import LodelineManager.Foundation.TextReaders
import LodelineManager.Go.Ascii
import LodelineManager.Go.TimeParse

/-!
# The instants of the browser

{lit}`Date` counts milliseconds, and {lit}`toISOString` writes them with a year of four digits,
or with a sign and six.  The browser reads its own texts back, and Go reads those whose year has
four digits, as the same instant.
-/

namespace LodelineManager
namespace Web

open Foundation Calendar TextReaders Go

/-- {lit}`TimeClip`: the numbers that are the time of a {lit}`Date`. -/
def IsDate (ms : Int) : Prop := ms.natAbs <= 8640000000000000

instance (ms : Int) : Decidable (IsDate ms) := inferInstanceAs (Decidable (_ <= _))

/-- The instant of a {lit}`Date`. -/
def instantOfMs (ms : Int) : Int := ms * millisecond

def isoYear (year : Int) : List Char :=
  if 0 <= year ∧ year <= 9999 then padded 4 year.toNat
  else (if year < 0 then '-' else '+') :: padded 6 year.natAbs

def isoRest (t : Int) : List Char :=
  '-' :: (padded 2 (Time.date t).month ++ '-' :: (padded 2 (Time.date t).day ++
    'T' :: (padded 2 (Time.hour t) ++ ':' :: (padded 2 (Time.min t) ++
      ':' :: (padded 2 (Time.sec t) ++ '.' :: (padded 3 (Time.nsec t / 1000000) ++ ['Z']))))))

def isoText (ms : Int) : List Char :=
  isoYear (Time.date (instantOfMs ms)).year ++ isoRest (instantOfMs ms)

/-- {lit}`new Date(ms).toISOString()`, which throws when there is no such date. -/
def toISOString (ms : Int) : Option String :=
  if IsDate ms then some (String.ofList (isoText ms)) else none

/-!
## Reading
-/

def digits (width : Nat) : Reader Char Nat :=
  fun s => if width <= s.length then (readDigits (s.take width)).map (·, s.drop width) else none

def readYear : Reader Char Int
  | '+' :: rest => (digits 6 rest).map (fun p => ((p.1 : Int), p.2))
  | '-' :: rest => (digits 6 rest).map (fun p => (-(p.1 : Int), p.2))
  | s => (digits 4 s).map (fun p => ((p.1 : Int), p.2))

def readISO : Reader Char Int :=
  readYear.bind fun year =>
  (fixed ['-']).bind fun _ => (digits 2).bind fun month =>
  (fixed ['-']).bind fun _ => (digits 2).bind fun day =>
  (fixed ['T']).bind fun _ => (digits 2).bind fun hour =>
  (fixed [':']).bind fun _ => (digits 2).bind fun min =>
  (fixed [':']).bind fun _ => (digits 2).bind fun sec =>
  (fixed ['.']).bind fun _ => (digits 3).bind fun ms =>
  (fixed ['Z']).map fun _ => Time.ofDate year month day hour min sec 0 / millisecond + ms

/-- {lit}`Date.parse`: the texts of {lit}`toISOString` are read back, and {lit}`other` stands
for what the browser makes of other texts. -/
def dateParse (other : String -> Option Int) (text : String) : Option Int :=
  match readISO text.toList with
  | some (ms, []) => if toISOString ms = some text then some ms else other text
  | _ => other text

theorem readsAs_digits {width n : Nat} (h : n < 10 ^ width) :
    ReadsAs (digits width) (padded width n) n := by
  intro rest
  have hlen : (padded width n).length = width := padded_length width n
  unfold digits
  rw [if_pos (by rw [List.length_append]; omega), List.take_left' hlen, List.drop_left' hlen,
    readDigits_padded, Nat.mod_eq_of_lt h]
  rfl

theorem year_bounds {ms : Int} (h : IsDate ms) :
    (Time.date (instantOfMs ms)).year.natAbs < 10 ^ 6 := by
  have hlo : -100000000 + unixEpochDays <= Time.days (instantOfMs ms) := by
    unfold IsDate at h
    unfold Time.days instantOfMs nsPerDay millisecond
    omega
  have hhi : Time.days (instantOfMs ms) <= 100000000 + unixEpochDays := by
    unfold IsDate at h
    unfold Time.days instantOfMs nsPerDay millisecond
    omega
  have hfirst := yearOf_mono hlo
  have hlast := yearOf_mono hhi
  have hfirstYear : yearOf (-100000000 + unixEpochDays) = -271821 := by decide +kernel
  have hlastYear : yearOf (100000000 + unixEpochDays) = 275760 := by decide +kernel
  rw [hfirstYear] at hfirst
  rw [hlastYear] at hlast
  show (yearOf (Time.days (instantOfMs ms))).natAbs < 10 ^ 6
  omega

theorem readYear_digit {c : Char} (hc : isDigit c = true) (rest : List Char) :
    readYear (c :: rest) = (digits 4 (c :: rest)).map (fun p => ((p.1 : Int), p.2)) := by
  unfold readYear
  split
  · rename_i heq
    rw [(List.cons.inj heq).left] at hc
    exact absurd hc (by decide)
  · rename_i heq
    rw [(List.cons.inj heq).left] at hc
    exact absurd hc (by decide)
  · rfl

theorem readsAs_isoYear {year : Int} (h : year.natAbs < 10 ^ 6) :
    ReadsAs readYear (isoYear year) year := by
  intro rest
  unfold isoYear
  by_cases hfour : 0 <= year ∧ year <= 9999
  · rw [if_pos hfour]
    have hread := readsAs_digits (show year.toNat < 10 ^ 4 by omega) rest
    have hall := padded_all_isDigit 4 year.toNat
    cases hpadded : padded 4 year.toNat with
    | nil =>
        have hlen := padded_length 4 year.toNat
        rw [hpadded] at hlen
        cases hlen
    | cons c more =>
        rw [hpadded] at hread hall
        rw [List.all_cons, Bool.and_eq_true] at hall
        rw [List.cons_append, readYear_digit hall.left, ← List.cons_append, hread]
        exact congrArg some (Prod.ext (Int.toNat_of_nonneg hfour.left) rfl)
  · rw [if_neg hfour]
    have hread := readsAs_digits h rest
    by_cases hneg : year < 0
    · rw [if_pos hneg]
      show (digits 6 (padded 6 year.natAbs ++ rest)).map _ = _
      rw [hread]
      exact congrArg some (Prod.ext (by show -(year.natAbs : Int) = year; omega) rfl)
    · rw [if_neg hneg]
      show (digits 6 (padded 6 year.natAbs ++ rest)).map _ = _
      rw [hread]
      exact congrArg some (Prod.ext (by show (year.natAbs : Int) = year; omega) rfl)

theorem instantOfMs_nsec (ms : Int) : Time.nsec (instantOfMs ms) % 1000000 = 0 := by
  unfold Time.nsec Time.nsOfDay instantOfMs nsPerDay millisecond
  omega

theorem readsAs_isoText {ms : Int} (h : IsDate ms) : ReadsAs readISO (isoText ms) ms := by
  have hdate := Time.date_bounds (instantOfMs ms)
  have hclock := Time.clock_bounds (instantOfMs ms)
  have hnsec := instantOfMs_nsec ms
  have hfields := Time.ofDate_fields (instantOfMs ms)
  have hms : Time.ofDate (Time.date (instantOfMs ms)).year (Time.date (instantOfMs ms)).month
      (Time.date (instantOfMs ms)).day (Time.hour (instantOfMs ms)) (Time.min (instantOfMs ms))
      (Time.sec (instantOfMs ms)) 0 / millisecond + (Time.nsec (instantOfMs ms) / 1000000 : Nat) =
      ms := by
    unfold Time.ofDate at hfields ⊢
    unfold instantOfMs millisecond at *
    omega
  have htext : isoText ms = isoYear (Time.date (instantOfMs ms)).year ++ (['-'] ++
      (padded 2 (Time.date (instantOfMs ms)).month ++ (['-'] ++
      (padded 2 (Time.date (instantOfMs ms)).day ++ (['T'] ++
      (padded 2 (Time.hour (instantOfMs ms)) ++ ([':'] ++
      (padded 2 (Time.min (instantOfMs ms)) ++ ([':'] ++
      (padded 2 (Time.sec (instantOfMs ms)) ++ (['.'] ++
      (padded 3 (Time.nsec (instantOfMs ms) / 1000000) ++ ['Z'])))))))))))) := rfl
  rw [htext]
  refine (readsAs_isoYear (year_bounds h)).bind ?_
  refine (readsAs_fixed ['-']).bind ((readsAs_digits ?_).bind ?_)
  · omega
  refine (readsAs_fixed ['-']).bind ((readsAs_digits ?_).bind ?_)
  · omega
  refine (readsAs_fixed ['T']).bind ((readsAs_digits ?_).bind ?_)
  · omega
  refine (readsAs_fixed [':']).bind ((readsAs_digits ?_).bind ?_)
  · omega
  refine (readsAs_fixed [':']).bind ((readsAs_digits ?_).bind ?_)
  · omega
  refine (readsAs_fixed ['.']).bind ((readsAs_digits ?_).bind ?_)
  · omega
  have hlast := (readsAs_fixed ['Z']).map (fun _ => ms)
  rw [hms]
  exact hlast

theorem dateParse_toISOString (other : String -> Option Int) {ms : Int} {text : String}
    (h : toISOString ms = some text) : dateParse other text = some ms := by
  have hdate : IsDate ms ∧ some (String.ofList (isoText ms)) = some text :=
    Option.ite_none_right_eq_some.mp h
  have hread := readsAs_isoText hdate.left []
  rw [List.append_nil] at hread
  have htext : text.toList = isoText ms := by
    rw [← Option.some.inj hdate.right, String.toList_ofList]
  unfold dateParse
  rw [htext, hread]
  exact if_pos h

/-!
## What Go reads
-/

theorem isoText_eq_localText {ms : Int} (h : Time.InRange (instantOfMs ms)) :
    isoText ms = localText (instantOfMs ms) ++
      '.' :: (padded 3 (Time.nsec (instantOfMs ms) / 1000000) ++ ['Z']) := by
  have hyear : isoYear (Time.date (instantOfMs ms)).year =
      padded 4 (Time.date (instantOfMs ms)).year.toNat := if_pos h
  rw [localText_append h]
  unfold isoText
  rw [hyear]
  rfl

theorem parseTime_isoText (ms : Int) :
    parseTime (isoText ms) =
      if Time.InRange (instantOfMs ms) then some (instantOfMs ms) else none := by
  have hclock := Time.clock_bounds (instantOfMs ms)
  have hnsec := instantOfMs_nsec ms
  by_cases h : Time.InRange (instantOfMs ms)
  · rw [if_pos h, isoText_eq_localText h, parseTime_eq]
    have hread : readDigits (padded 3 (Time.nsec (instantOfMs ms) / 1000000)) =
        some (Time.nsec (instantOfMs ms) / 1000000) := by
      rw [readDigits_padded, Nat.mod_eq_of_lt (by omega)]
    have hlen := padded_length 3 (Time.nsec (instantOfMs ms) / 1000000)
    have hne : padded 3 (Time.nsec (instantOfMs ms) / 1000000) ≠ [] := List.cons_ne_nil _ _
    have hfraction : fraction ('.' :: (padded 3 (Time.nsec (instantOfMs ms) / 1000000) ++ ['Z'])) =
        (Time.nsec (instantOfMs ms) / 1000000 * 10 ^ 6, ['Z']) := by
      refine (fraction_digits hread hne (padded_all_isDigit 3 _) ?_ (by decide) []).trans ?_
      · rw [hlen]
        decide
      · rw [hlen]
    have hsame : instantOfMs ms - Time.nsec (instantOfMs ms) +
        (Time.nsec (instantOfMs ms) / 1000000 * 10 ^ 6 : Nat) - 0 = instantOfMs ms := by
      omega
    rw [parseZoned_localText h hfraction rfl]
    exact congrArg some hsame
  · rw [if_neg h]
    apply parseTime_of_no_year
    have hyear : isoYear (Time.date (instantOfMs ms)).year =
        (if (Time.date (instantOfMs ms)).year < 0 then '-' else '+') ::
          padded 6 (Time.date (instantOfMs ms)).year.natAbs := if_neg h
    unfold isoText
    rw [hyear, List.cons_append]
    split
    · rw [longYear_minus]
      rfl
    · have hplus : forall rest, longYear ('+' :: rest) = none := by
        intro rest
        match rest with
        | [] => rfl
        | [_] => rfl
        | [_, _] => rfl
        | _ :: _ :: _ :: _ => rfl
      rw [hplus]
      rfl

end Web
end LodelineManager
