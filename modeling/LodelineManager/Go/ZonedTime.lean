import LodelineManager.Go.JSONTypes
import LodelineManager.Go.TimeParse

/-!
# Times in JSON

{lit}`Time.MarshalJSON` writes the wall clock of the zone with as much of a fraction as
it needs, and fails for a zone 24 hours away.  Every other time that was read is written
in a text that is read as the same time.
-/

namespace LodelineManager
namespace Go

open Foundation Utf16

namespace ZonedTime

/-- The zero {lit}`time.Time`. -/
def zero : ZonedTime := { instant := zeroTime, offset := 0 }

def utc (t : Int) : ZonedTime := { instant := t, offset := 0 }

def wall (t : ZonedTime) : Int := t.instant + t.offset

def zoneMinutes (offset : Int) : Int := offset.tdiv minute

end ZonedTime

/-- {lit}`appendNano` for a fraction without trailing zeros. -/
def appendNano (nsec : Nat) : List Char :=
  if trimZeros (padded 9 nsec) = [] then [] else '.' :: trimZeros (padded 9 nsec)

def appendZone (offset : Int) : List Char :=
  if offset = 0 then ['Z']
  else
    (if ZonedTime.zoneMinutes offset < 0 then '-' else '+') ::
      (appendInt (((ZonedTime.zoneMinutes offset).natAbs / 60 : Nat) : Int) 2 ++ ':' ::
        appendInt (((ZonedTime.zoneMinutes offset).natAbs % 60 : Nat) : Int) 2)

namespace ZonedTime

/-- {lit}`appendFormatRFC3339` with the fraction. -/
def format (t : ZonedTime) : List Char :=
  localText t.wall ++ (appendNano (Time.nsec t.instant) ++ appendZone t.offset)

/-- {lit}`appendStrictRFC3339` has no complaint: the year has four digits, and the hour of
the zone is below 24. -/
def Writable (t : ZonedTime) : Prop :=
  Time.InRange t.wall ∧ (zoneMinutes t.offset).natAbs / 60 < 24

instance (t : ZonedTime) : Decidable t.Writable := inferInstanceAs (Decidable (_ ∧ _))

end ZonedTime

/-!
## The text is read back
-/

theorem fraction_appendNano {nsec : Nat} (h : nsec < 10 ^ 9) {c : Char} {rest : List Char}
    (hdigit : isDigit c = false) (hdot : c ≠ '.') (hcomma : c ≠ ',') :
    fraction (appendNano nsec ++ c :: rest) = (nsec, c :: rest) := by
  have hread : readDigits (padded 9 nsec) = some nsec := by
    rw [readDigits_padded, Nat.mod_eq_of_lt h]
  rcases readDigits_trimZeros hread with ⟨m, hm, hvalue⟩
  rcases exists_trimZeros (padded 9 nsec) with ⟨k, hk⟩
  have hall : (trimZeros (padded 9 nsec)).all isDigit = true := by
    have hpadded := padded_all_isDigit 9 nsec
    rw [hk, List.all_append, Bool.and_eq_true] at hpadded
    exact hpadded.left
  have hlen : (trimZeros (padded 9 nsec)).length <= 9 := by
    have hlength := congrArg List.length hk
    rw [padded_length, List.length_append] at hlength
    omega
  rw [padded_length] at hvalue
  unfold appendNano
  generalize trimZeros (padded 9 nsec) = digits at hm hvalue hall hlen
  cases digits with
  | nil =>
      have hm0 : m = 0 := (Option.some.inj hm).symm
      have hnone : fraction (c :: rest) = (0, c :: rest) := by
        cases rest with
        | nil => rfl
        | cons d rest =>
            unfold fraction
            exact if_neg (fun hsep => hsep.left.elim hdot hcomma)
      rw [if_pos rfl, List.nil_append, hnone, ← hvalue, hm0, Nat.zero_mul]
  | cons d digits =>
      rw [if_neg (List.cons_ne_nil d digits), ← hvalue]
      exact fraction_digits hm (List.cons_ne_nil d digits) hall hlen hdigit rest

theorem appendInt_two {n : Nat} (h : n < 100) : appendInt (n : Int) 2 = padded 2 n :=
  appendInt_eq_padded (by decide) (Int.natCast_nonneg n) h

theorem padded_two (n : Nat) :
    padded 2 n = [Nat.digitChar (n / 10 % 10), Nat.digitChar (n % 10)] := by
  show [_, Nat.digitChar (n / 1 % 10)] = _
  rw [Nat.div_one]
  rfl

theorem zone_signed {sign : Char} (hsign : sign = '+' ∨ sign = '-') (a b c d : Char) :
    zone [sign, a, b, ':', c, d] =
      match getnumIn 0 24 true [a, b], getnumIn 0 60 true [c, d] with
      | some (hr, _), some (mm, _) =>
          some (if sign = '-' then -(((hr : Int) * 60 + mm) * minute)
            else ((hr : Int) * 60 + mm) * minute, [])
      | _, _ => none := by
  rcases hsign with rfl | rfl
  · rfl
  · rfl

theorem zone_padded {h m : Nat} (hh : h <= 24) (hm : m <= 60) {sign : Char}
    (hsign : sign = '+' ∨ sign = '-') :
    zone (sign :: (padded 2 h ++ ':' :: padded 2 m)) =
      some (if sign = '-' then -((h * 60 + m : Nat) * minute) else (h * 60 + m : Nat) * minute,
        []) := by
  have hhours := getnumIn_padded (by omega) (Nat.zero_le h) hh true []
  have hminutes := getnumIn_padded (by omega) (Nat.zero_le m) hm true []
  have hcast : ((h * 60 + m : Nat) : Int) = (h : Int) * 60 + m := by omega
  rw [List.append_nil, padded_two] at hhours hminutes
  rw [hcast, padded_two, padded_two, List.cons_append, List.cons_append, List.nil_append,
    zone_signed hsign, hhours, hminutes]

theorem zone_sign {n : Nat} (hhours : n / 60 < 24) {sign : Char}
    (hsign : sign = '+' ∨ sign = '-') :
    zone (sign :: (appendInt ((n / 60 : Nat) : Int) 2 ++ ':' ::
      appendInt ((n % 60 : Nat) : Int) 2)) =
      some (if sign = '-' then -((n : Int) * minute) else (n : Int) * minute, []) := by
  have hminutes : n % 60 < 60 := Nat.mod_lt _ (by decide)
  rw [appendInt_two (by omega), appendInt_two (by omega), zone_padded (by omega) (by omega) hsign,
    Nat.div_add_mod']

theorem zone_appendZone {offset : Int} (hwhole : offset % minute = 0)
    (hhours : (ZonedTime.zoneMinutes offset).natAbs / 60 < 24) :
    zone (appendZone offset) = some (offset, []) := by
  have hmul : ZonedTime.zoneMinutes offset * minute = offset :=
    Int.tdiv_mul_cancel (Int.dvd_of_emod_eq_zero hwhole)
  unfold appendZone
  split
  · rename_i hzero
    rw [hzero]
    rfl
  · split
    · rename_i hneg
      rw [zone_sign hhours (Or.inr rfl), if_pos rfl,
        Int.ofNat_natAbs_of_nonpos (Int.le_of_lt hneg), Int.neg_mul, Int.neg_neg, hmul]
    · rename_i hneg
      rw [zone_sign hhours (Or.inl rfl), if_neg (by decide),
        Int.natAbs_of_nonneg (Int.not_lt.mp hneg), hmul]

theorem appendZone_head (offset : Int) :
    exists c rest, appendZone offset = c :: rest ∧ isDigit c = false ∧ c ≠ '.' ∧ c ≠ ',' := by
  unfold appendZone
  split
  · exact ⟨'Z', [], rfl, rfl, by decide, by decide⟩
  · split
    · exact ⟨'-', _, rfl, rfl, by decide, by decide⟩
    · exact ⟨'+', _, rfl, rfl, by decide, by decide⟩

namespace ZonedTime

theorem nsec_wall {t : ZonedTime} (h : t.offset % minute = 0) :
    Time.nsec t.wall = Time.nsec t.instant := by
  unfold Time.nsec Time.nsOfDay nsPerDay wall
  unfold minute second millisecond at h
  omega

theorem parseZoned_format {t : ZonedTime} (h : t.Writable) (hwhole : t.offset % minute = 0) :
    parseZoned t.format = some t := by
  rcases appendZone_head t.offset with ⟨c, rest, hhead, hdigit, hdot, hcomma⟩
  have hnsec : Time.nsec t.instant < 10 ^ 9 := Nat.mod_lt _ (by decide)
  have hfraction : fraction (appendNano (Time.nsec t.instant) ++ appendZone t.offset) =
      (Time.nsec t.instant, appendZone t.offset) := by
    rw [hhead]
    exact fraction_appendNano hnsec hdigit hdot hcomma
  unfold format
  rw [parseZoned_localText h.left hfraction (zone_appendZone hwhole h.right), nsec_wall hwhole,
    Int.sub_add_cancel]
  show some (ZonedTime.mk (t.instant + t.offset - t.offset) t.offset) = some t
  rw [Int.add_sub_cancel]

end ZonedTime

theorem zone_whole {s rest : List Char} {offset : Int} (h : zone s = some (offset, rest)) :
    offset % minute = 0 := by
  unfold zone at h
  split at h
  · cases h
    rfl
  · split at h
    · split at h
      · cases h
        split
        · rw [← Int.neg_mul]
          exact Int.mul_emod_left _ _
        · exact Int.mul_emod_left _ _
      · cases h
    · cases h
  · cases h

theorem parseZoned_whole {s : List Char} {t : ZonedTime} (h : parseZoned s = some t) :
    t.offset % minute = 0 := by
  unfold parseZoned at h
  iterate 11
    rcases Option.bind_eq_some_iff.mp h with ⟨_, _, h⟩
  rcases Option.bind_eq_some_iff.mp h with ⟨⟨offset, rest⟩, hz, h⟩
  simp only at h
  split at h
  · cases h
    exact zone_whole hz
  · cases h

/-!
## Times in documents
-/

namespace JSON

def literal : Text -> Option (List Char)
  | [] => some []
  | .char c _ :: rest => (literal rest).map (c :: ·)
  | _ :: _ => none

/-- {lit}`Time.UnmarshalJSON` parses what stands between the quotes as it is. -/
def timeOf : Document -> Option ZonedTime
  | .string t => (literal t).bind parseZoned
  | _ => none

def decodeTime : Document -> ZonedTime -> Option ZonedTime := overwrite Json.isNull timeOf

def encodeTime (t : ZonedTime) : Option Document :=
  if t.Writable then some (.string (quote t.format)) else none

def asInstant : Value -> Option Int
  | .string u => parseTime (decode u)
  | _ => none

def instantIn (name : String) (v : Value) : Int :=
  ((lastOf Json.isNull (fieldValues name v)).bind asInstant).getD zeroTime

theorem units_literal {t : Text} {s : List Char} (h : literal t = some s) : units t = codes s := by
  induction t generalizing s with
  | nil =>
      cases h
      rfl
  | cons part rest ih =>
      cases part with
      | char c hc =>
          rcases Option.map_eq_some_iff.mp h with ⟨s', hs', heq⟩
          cases heq
          show (encodeChar c).map StringUnit.code ++ units rest = codes (c :: s')
          rw [ih hs', codes_cons]
      | escape u => cases h
      | invalid b hb => cases h

theorem timeOf_eq_some {v : Document} {t : ZonedTime} (h : timeOf v = some t) :
    asInstant (value v) = some t.instant ∧ t.offset % minute = 0 := by
  cases v with
  | string text =>
      rcases Option.bind_eq_some_iff.mp h with ⟨s, hs, hparse⟩
      refine ⟨?_, parseZoned_whole hparse⟩
      show parseTime (decode (units text)) = some t.instant
      rw [units_literal hs, decode_codes, parseTime_eq, hparse]
      rfl
  | _ => cases h

theorem encodeTime_eq_some {t : ZonedTime} {v : Document} (h : encodeTime t = some v)
    (hwhole : t.offset % minute = 0) : asInstant (value v) = some t.instant := by
  unfold encodeTime at h
  split at h
  · rename_i hwritable
    cases h
    show parseTime (decode (units (quote t.format))) = some t.instant
    rw [units_quote, decode_codes, parseTime_eq, ZonedTime.parseZoned_format hwritable hwhole]
    rfl
  · cases h

theorem Reads.instant {record : Type} {fields : List (Field Text record)} {name : String}
    {j : Document} {r r' : record} {get : record -> ZonedTime}
    (h : Reads fields name get decodeTime) (hdecode : JSON.decodeStruct fields j r = some r')
    (hzero : get r = ZonedTime.zero) :
    (get r').instant = instantIn name (value j) ∧ (get r').offset % minute = 0 := by
  unfold instantIn
  rw [fieldValues_value, lastOf_value]
  rcases lastOf_of_readAll (fun _ _ _ => overwrite_leaves) (fun _ _ _ => overwrite_reads)
      (h.decodeStruct hdecode) with ⟨hnone, hsame⟩ | ⟨v, hv, hread⟩
  · rw [hnone, hsame, hzero]
    exact ⟨rfl, rfl⟩
  · rcases timeOf_eq_some hread with ⟨hinstant, hwhole⟩
    rw [hv]
    refine ⟨?_, hwhole⟩
    show _ = (asInstant (value v)).getD zeroTime
    rw [hinstant]
    rfl

end JSON

end Go
end LodelineManager
