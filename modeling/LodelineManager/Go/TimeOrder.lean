import LodelineManager.Foundation.DecimalFraction
import LodelineManager.Go.ZonedTime

/-!
# How the texts of times compare

{lit}`Time.MarshalJSON` writes the wall clock and leaves out the zeros at the end of the
fraction.  As text, times of one zone compare as their instants do, except that {lit}`Z`
comes after every digit and after the dot.
-/

namespace LodelineManager
namespace Go

open Foundation Calendar

/-!
## The wall clock
-/

theorem localText_length {t : Int} (h : Time.InRange t) : (localText t).length = 19 := by
  have htext := localText_append h []
  rw [List.append_nil] at htext
  rw [htext]
  simp

theorem localText_toSecond (t : Int) : localText (Time.toSecond t) = localText t := by
  have hdays : Time.days (Time.toSecond t) = Time.days t := by
    unfold Time.days Time.toSecond nsPerDay second millisecond
    omega
  have hdate : Time.date (Time.toSecond t) = Time.date t := congrArg dateOf hdays
  have hclock : Time.hour (Time.toSecond t) = Time.hour t ∧
      Time.min (Time.toSecond t) = Time.min t ∧ Time.sec (Time.toSecond t) = Time.sec t := by
    unfold Time.hour Time.min Time.sec Time.nsOfDay Time.toSecond nsPerDay second millisecond
    omega
  unfold localText
  rw [hdate, hclock.left, hclock.right.left, hclock.right.right]

theorem inRange_toSecond {t : Int} (h : Time.InRange t) : Time.InRange (Time.toSecond t) := by
  have hdays : Time.days (Time.toSecond t) = Time.days t := by
    unfold Time.days Time.toSecond nsPerDay second millisecond
    omega
  unfold Time.InRange Time.date
  rw [hdays]
  exact h

theorem formatUTC_toSecond (t : Int) :
    formatUTC (Time.toSecond t) = localText t ++ '.' :: (padded 9 0 ++ ['Z']) := by
  have hnsec : Time.nsec (Time.toSecond t) = 0 := by
    unfold Time.nsec Time.nsOfDay Time.toSecond nsPerDay second millisecond
    omega
  rw [← localText_toSecond t]
  unfold formatUTC localText
  rw [hnsec]
  simp only [List.append_assoc, List.cons_append]

theorem localText_lt {a b : Int} (ha : Time.InRange a) (hb : Time.InRange b)
    (h : Time.toSecond a < Time.toSecond b) : localText a < localText b := by
  have htext := formatUTC_lt (inRange_toSecond ha) (inRange_toSecond hb) h
  rw [formatUTC_toSecond, formatUTC_toSecond] at htext
  have hlen : (localText b).length = (localText a).length := by
    rw [localText_length ha, localText_length hb]
  rcases lt_trichotomy (localText a) (localText b) with hlt | heq | hgt
  · exact hlt
  · rw [heq] at htext
    exact absurd htext (lt_irrefl _)
  · exact absurd (append_lt_append_of_lt hlen hgt _ _) (lt_asymm htext)

/-!
## The fraction and the zone
-/

def fractionDigits (nsec : Nat) : List Char := trimZeros (padded 9 nsec)

theorem isDigit_of_mem_fractionDigits {nsec : Nat} {c : Char} (h : c ∈ fractionDigits nsec) :
    isDigit c = true := by
  rcases exists_trimZeros (padded 9 nsec) with ⟨k, hk⟩
  apply List.all_eq_true.mp (padded_all_isDigit 9 nsec) c
  rw [hk]
  exact List.mem_append_left _ h

theorem fractionDigits_lt {m n : Nat} (hn : n < 10 ^ 9) (h : m < n) :
    GoesOn (fractionDigits m) (fractionDigits n) ∨ Parts (fractionDigits m) (fractionDigits n) := by
  apply trimZeros_lt
  · rw [padded_length, padded_length]
  · exact padded_all_isDigit 9 m
  · apply padded_lt
    rw [Nat.mod_eq_of_lt (h.trans hn), Nat.mod_eq_of_lt hn]
    exact h

theorem appendNano_eq (nsec : Nat) :
    appendNano nsec = if fractionDigits nsec = [] then [] else '.' :: fractionDigits nsec := rfl

theorem appendNano_parts {m n : Nat} (h : Parts (fractionDigits m) (fractionDigits n))
    (u v : List Char) : appendNano m ++ u < appendNano n ++ v := by
  rw [appendNano_eq, appendNano_eq, if_neg h.ne_nil.left, if_neg h.ne_nil.right]
  exact (h.cons '.').append_lt u v

theorem appendNano_goesOn {m n : Nat} (h : GoesOn (fractionDigits m) (fractionDigits n)) :
    exists c rest, (c = '.' ∨ isDigit c = true) ∧ appendNano n = appendNano m ++ c :: rest := by
  rcases h with ⟨e, rest, hrest⟩
  have hne : fractionDigits n ≠ [] := by
    rw [hrest]
    exact List.append_ne_nil_of_right_ne_nil _ (List.cons_ne_nil e rest)
  rw [appendNano_eq, appendNano_eq, if_neg hne]
  by_cases hempty : fractionDigits m = []
  · rw [if_pos hempty]
    exact ⟨'.', fractionDigits n, Or.inl rfl, rfl⟩
  · rw [if_neg hempty]
    have hdigit : isDigit e = true := by
      apply @isDigit_of_mem_fractionDigits n
      rw [hrest]
      exact List.mem_append_right _ List.mem_cons_self
    exact ⟨e, rest, Or.inr hdigit, by rw [hrest]; rfl⟩

theorem lt_Z {c : Char} (h : c = '.' ∨ isDigit c = true) : c < 'Z' := by
  rcases h with rfl | hdigit
  · decide
  · unfold isDigit at hdigit
    exact lt_of_le_of_lt (of_decide_eq_true (Bool.and_eq_true_iff.mp hdigit).right)
      (by decide)

theorem sign_lt {sign c : Char} (hsign : sign = '+' ∨ sign = '-')
    (h : c = '.' ∨ isDigit c = true) : sign < c := by
  have hdot : sign < '.' := by
    rcases hsign with rfl | rfl
    · decide
    · decide
  rcases h with rfl | hdigit
  · exact hdot
  · exact lt_of_lt_of_le (lt_trans hdot (by decide)) (zero_le_of_isDigit hdigit)

theorem appendZone_sign {offset : Int} (h : offset ≠ 0) :
    exists sign rest, (sign = '+' ∨ sign = '-') ∧ appendZone offset = sign :: rest := by
  unfold appendZone
  rw [if_neg h]
  split
  · exact ⟨'-', _, Or.inr rfl, rfl⟩
  · exact ⟨'+', _, Or.inl rfl, rfl⟩

theorem mem_appendZone {offset : Int} {c : Char} (h : c ∈ appendZone offset) :
    c.toNat < 256 := by
  unfold appendZone at h
  split at h
  · rw [List.mem_singleton.mp h]
    decide
  · rcases List.mem_cons.mp h with hsign | h
    · rw [hsign]
      split
      · decide
      · decide
    · rcases List.mem_append.mp h with hhours | h
      · exact mem_appendInt hhours
      · rcases List.mem_cons.mp h with hcolon | hminutes
        · rw [hcolon]
          decide
        · exact mem_appendInt hminutes

namespace ZonedTime

/-- Times in UTC of one second of which the second fraction goes on after the first. -/
def Misordered (a b : ZonedTime) : Prop :=
  a.offset = 0 ∧ Time.toSecond a.instant = Time.toSecond b.instant ∧
    GoesOn (fractionDigits (Time.nsec a.instant)) (fractionDigits (Time.nsec b.instant))

theorem format_lt_of_wall {a b : ZonedTime} (ha : a.Writable) (hb : b.Writable)
    (h : Time.toSecond a.wall < Time.toSecond b.wall) : a.format < b.format :=
  append_lt_append_of_lt (by rw [localText_length ha.left, localText_length hb.left])
    (localText_lt ha.left hb.left h) _ _

theorem toSecond_wall {t : ZonedTime} (h : t.offset % minute = 0) :
    Time.toSecond t.wall = Time.toSecond t.instant + t.offset := by
  unfold Time.toSecond wall
  unfold minute second millisecond at *
  omega

theorem localText_wall {a b : ZonedTime}
    (h : Time.toSecond a.wall = Time.toSecond b.wall) : localText a.wall = localText b.wall := by
  rw [← localText_toSecond a.wall, h, localText_toSecond]

theorem format_order {a b : ZonedTime} (ha : a.Writable) (hb : b.Writable)
    (hwhole : a.offset % minute = 0) (hzone : a.offset = b.offset) (h : a.instant < b.instant) :
    (¬ Misordered a b -> a.format < b.format) ∧ (Misordered a b -> b.format < a.format) := by
  have hwallA := toSecond_wall hwhole
  have hwallB := toSecond_wall (t := b) (hzone ▸ hwhole)
  rcases Int.lt_or_eq_of_le (Time.toSecond_mono (Int.le_of_lt h)) with hsecond | hsecond
  · refine ⟨fun _ => format_lt_of_wall ha hb (by omega), ?_⟩
    intro hmis
    exact absurd hmis.right.left (Int.ne_of_lt hsecond)
  · have hlocal := @localText_wall a b (by omega)
    have hnsec : Time.nsec a.instant < Time.nsec b.instant := by
      unfold Time.nsec Time.nsOfDay nsPerDay
      unfold Time.toSecond second millisecond at hsecond
      omega
    unfold format
    rw [hlocal, ← hzone]
    have hbound : Time.nsec b.instant < 10 ^ 9 := Nat.mod_lt _ (by decide)
    rcases fractionDigits_lt hbound hnsec with hgoes | hparts
    · rcases appendNano_goesOn hgoes with ⟨c, rest, hc, hnano⟩
      rw [hnano, List.append_assoc, List.cons_append]
      by_cases hutc : a.offset = 0
      · refine ⟨fun hmis => absurd ⟨hutc, hsecond, hgoes⟩ hmis, fun _ => ?_⟩
        rw [hutc]
        exact append_lt_append_left (append_lt_append_left
          (List.cons_lt_cons_iff.mpr (Or.inl (lt_Z hc))))
      · refine ⟨fun _ => ?_, fun hmis => absurd hmis.left hutc⟩
        rcases appendZone_sign hutc with ⟨sign, rest', hsign, htext⟩
        rw [htext]
        exact append_lt_append_left (append_lt_append_left
          (List.cons_lt_cons_iff.mpr (Or.inl (sign_lt hsign hc))))
    · refine ⟨fun _ => append_lt_append_left (appendNano_parts hparts _ _), ?_⟩
      intro hmis
      exact absurd hmis.right.right hparts.not_goesOn

theorem mem_format {t : ZonedTime} {c : Char} (h : c ∈ t.format) : c.toNat < 256 := by
  unfold format at h
  rcases List.mem_append.mp h with hlocal | h
  · apply @mem_formatRFC3339 t.wall
    rw [formatRFC3339_eq_localText]
    exact List.mem_append_left _ hlocal
  · rcases List.mem_append.mp h with hnano | hzone
    · rw [appendNano_eq] at hnano
      split at hnano
      · cases hnano
      · rcases List.mem_cons.mp hnano with rfl | hmem
        · decide
        · exact toNat_lt_of_isDigit (isDigit_of_mem_fractionDigits hmem)
    · exact mem_appendZone hzone

end ZonedTime

end Go
end LodelineManager
