import LodelineManager.Foundation.Calendar
import LodelineManager.Foundation.Decimal
import Mathlib.Data.String.Basic

/-!
# Instants and their RFC 3339 text

An instant is a number of nanoseconds since 1970-01-01T00:00:00Z, a duration a
number of nanoseconds.  The module models Go's {lit}`Time.Format` for the fixed-width
RFC 3339 layout in UTC, and proves that for the years 0000 to 9999 the text keeps the
order of the instants.
-/

namespace LodelineManager
namespace Go

open Foundation Calendar

def millisecond : Int := 1000000

def second : Int := 1000 * millisecond

def minute : Int := 60 * second

/-- The zero {lit}`time.Time`: 1 January of year 1. -/
def zeroTime : Int := -62135596800000000000

def nsPerDay : Int := 86400000000000

def unixEpochDays : Int := 719528

namespace Time

def days (t : Int) : Int := t / nsPerDay + unixEpochDays

def nsOfDay (t : Int) : Nat := (t % nsPerDay).toNat

def date (t : Int) : Date := dateOf (days t)

def hour (t : Int) : Nat := nsOfDay t / 3600000000000

def min (t : Int) : Nat := nsOfDay t / 60000000000 % 60

def sec (t : Int) : Nat := nsOfDay t / 1000000000 % 60

def nsec (t : Int) : Nat := nsOfDay t % 1000000000

/-- {lit}`time.Date` in UTC, for fields in range. -/
def ofDate (year : Int) (month day hour min sec nsec : Nat) : Int :=
  (daysOf { year := year, month := month, day := day } - unixEpochDays) * nsPerDay +
    (3600000000000 * hour + 60000000000 * min + 1000000000 * sec + nsec)

end Time

def decimalWidthFrom : Nat -> Nat -> Nat
  | 0, _ => 1
  | fuel + 1, u => if u < 10 then 1 else decimalWidthFrom fuel (u / 10) + 1

def decimalWidth (u : Nat) : Nat := decimalWidthFrom u u

/-- {lit}`time.appendInt`: at least {lit}`width` digits, more when the number has more. -/
def appendInt (x : Int) (width : Nat) : List Char :=
  (if x < 0 then ['-'] else []) ++
    padded (max width (decimalWidth x.natAbs)) x.natAbs

/-- {lit}`t.UTC().Format("2006-01-02T15:04:05.000000000Z07:00")`. -/
def formatUTC (t : Int) : List Char :=
  appendInt (Time.date t).year 4 ++ '-' :: (appendInt (Time.date t).month 2 ++
    '-' :: (appendInt (Time.date t).day 2 ++ 'T' :: (appendInt (Time.hour t) 2 ++
      ':' :: (appendInt (Time.min t) 2 ++ ':' :: (appendInt (Time.sec t) 2 ++
        '.' :: (padded 9 (Time.nsec t) ++ ['Z']))))))

/-- {lit}`t.UTC().Format(time.RFC3339)`, which leaves out the fraction of the second. -/
def formatRFC3339 (t : Int) : List Char :=
  appendInt (Time.date t).year 4 ++ '-' :: (appendInt (Time.date t).month 2 ++
    '-' :: (appendInt (Time.date t).day 2 ++ 'T' :: (appendInt (Time.hour t) 2 ++
      ':' :: (appendInt (Time.min t) 2 ++ ':' :: (appendInt (Time.sec t) 2 ++ ['Z'])))))

example : formatUTC 0 = "1970-01-01T00:00:00.000000000Z".toList := by decide

/-!
## Fields of an instant
-/

/-- The years RFC 3339 can write. -/
def Time.InRange (t : Int) : Prop :=
  0 <= (Time.date t).year ∧ (Time.date t).year <= 9999

instance (t : Int) : Decidable (Time.InRange t) :=
  inferInstanceAs (Decidable (_ ∧ _))

def rfc3339Layout : List (Nat × Char) :=
  [(4, '-'), (2, '-'), (2, 'T'), (2, ':'), (2, ':'), (2, '.'), (9, 'Z')]

def Time.fields (t : Int) : List Nat :=
  [(Time.date t).year.toNat, (Time.date t).month, (Time.date t).day, Time.hour t,
    Time.min t, Time.sec t, Time.nsec t]

theorem Time.nsOfDay_lt (t : Int) : Time.nsOfDay t < 86400000000000 := by
  unfold nsOfDay nsPerDay
  omega

theorem Time.ofDate_fields (t : Int) :
    Time.ofDate (Time.date t).year (Time.date t).month (Time.date t).day
      (Time.hour t) (Time.min t) (Time.sec t) (Time.nsec t) = t := by
  have hdays : daysOf (dateOf (Time.days t)) = Time.days t := daysOf_dateOf _
  unfold Time.ofDate
  show (daysOf (dateOf (Time.days t)) - unixEpochDays) * nsPerDay + _ = t
  rw [hdays]
  have hclock : 3600000000000 * Time.hour t + 60000000000 * Time.min t +
      1000000000 * Time.sec t + Time.nsec t = Time.nsOfDay t := by
    have h := Time.nsOfDay_lt t
    unfold Time.hour Time.min Time.sec Time.nsec
    omega
  have hns : (Time.nsOfDay t : Int) = t % nsPerDay := by
    unfold Time.nsOfDay nsPerDay
    omega
  unfold Time.days
  unfold nsPerDay at hns ⊢
  omega

theorem Time.date_bounds (t : Int) :
    1 <= (Time.date t).month ∧ (Time.date t).month <= 12 ∧ 1 <= (Time.date t).day ∧
      (Time.date t).day <= (daysIn (Time.date t).year (Time.date t).month).toNat ∧
      (Time.date t).day <= 31 := by
  have hb := dateOf_bounds (Time.days t)
  have hle := daysIn_le (y := (dateOf (Time.days t)).year) hb.left hb.right.left
  unfold Time.date
  omega

theorem Time.clock_bounds (t : Int) :
    Time.hour t <= 23 ∧ Time.min t <= 59 ∧ Time.sec t <= 59 ∧ Time.nsec t < 1000000000 := by
  have h := Time.nsOfDay_lt t
  unfold Time.hour Time.min Time.sec Time.nsec
  omega

theorem Time.fields_fit {t : Int} (h : Time.InRange t) :
    FieldsFit rfc3339Layout (Time.fields t) := by
  have hd := Time.date_bounds t
  have hc := Time.clock_bounds t
  unfold Time.InRange at h
  refine ⟨?_, ?_, ?_, ?_, ?_, ?_, ?_, trivial⟩ <;> omega

theorem Time.fields_lt {a b : Int} (ha : Time.InRange a) (h : a < b) :
    FieldsLt (Time.fields a) (Time.fields b) := by
  have hsame : Time.days a = Time.days b -> Time.nsOfDay a < Time.nsOfDay b := by
    unfold Time.days Time.nsOfDay nsPerDay
    omega
  have hle : Time.days a <= Time.days b := by
    unfold Time.days nsPerDay
    omega
  unfold Time.InRange at ha
  simp only [Time.fields, FieldsLt]
  rcases Int.lt_or_eq_of_le hle with hlt | heq
  · rcases dateOf_lt hlt with hy | ⟨hy, hm | ⟨hm, hday⟩⟩
    · apply Or.inl
      show (dateOf (Time.days a)).year.toNat < (dateOf (Time.days b)).year.toNat
      unfold Time.date at ha
      omega
    · exact Or.inr ⟨congrArg Int.toNat hy, Or.inl hm⟩
    · exact Or.inr ⟨congrArg Int.toNat hy, Or.inr ⟨hm, Or.inl hday⟩⟩
  · have hns := hsame heq
    have hdate : Time.date a = Time.date b := congrArg dateOf heq
    rw [hdate]
    simp only [Nat.lt_irrefl, true_and, false_or]
    unfold Time.hour Time.min Time.sec Time.nsec
    omega

/-!
## The text of an instant in range
-/

theorem decimalWidthFrom_le {fuel u width : Nat} (hpos : 0 < width) (h : u < 10 ^ width) :
    decimalWidthFrom fuel u <= width := by
  induction fuel generalizing u width with
  | zero => exact hpos
  | succ fuel ih =>
      unfold decimalWidthFrom
      by_cases hu : u < 10
      · rw [if_pos hu]
        exact hpos
      · rw [if_neg hu]
        cases width with
        | zero => cases hpos
        | succ width =>
            have hwidth : 0 < width := by
              cases width with
              | zero => omega
              | succ width => exact Nat.succ_pos width
            have hdiv : u / 10 < 10 ^ width := by
              rw [Nat.pow_succ] at h
              omega
            have hrest := ih hwidth hdiv
            omega

theorem appendInt_eq_padded {x : Int} {width : Nat} (hwidth : 0 < width)
    (hx : 0 <= x) (hfit : x.toNat < 10 ^ width) : appendInt x width = padded width x.toNat := by
  have habs : x.natAbs = x.toNat := by omega
  have hle : decimalWidth x.toNat <= width := decimalWidthFrom_le hwidth hfit
  unfold appendInt
  rw [if_neg (by omega), habs]
  show padded (max width (decimalWidth x.toNat)) x.toNat = _
  rw [Nat.max_eq_left hle]

theorem formatUTC_eq_fieldsText {t : Int} (h : Time.InRange t) :
    formatUTC t = fieldsText rfc3339Layout (Time.fields t) := by
  have hfit := Time.fields_fit h
  rcases hfit with ⟨hy, hmo, hd, hh, hmi, hs, _, _⟩
  unfold formatUTC
  rw [appendInt_eq_padded (by decide) h.left hy,
    appendInt_eq_padded (by decide) (by omega) hmo,
    appendInt_eq_padded (by decide) (by omega) hd,
    appendInt_eq_padded (by decide) (by omega) hh,
    appendInt_eq_padded (by decide) (by omega) hmi,
    appendInt_eq_padded (by decide) (by omega) hs]
  rfl

theorem formatUTC_lt {a b : Int} (ha : Time.InRange a) (hb : Time.InRange b) (h : a < b) :
    formatUTC a < formatUTC b := by
  rw [formatUTC_eq_fieldsText ha, formatUTC_eq_fieldsText hb]
  exact fieldsText_lt (Time.fields_fit ha) (Time.fields_fit hb) (Time.fields_lt ha h)

theorem not_mem_formatUTC {t : Int} {c : Char} (h : Time.InRange t)
    (hdigit : isDigit c = false) (hsep : c ∉ rfc3339Layout.map Prod.snd) : c ∉ formatUTC t := by
  rw [formatUTC_eq_fieldsText h]
  exact not_mem_fieldsText hdigit hsep _

/-!
## Characters
-/

theorem ascii_of_isDigit {c : Char} (h : isDigit c = true) : c.toNat < 128 := by
  have hle : c.toNat <= '9'.toNat := of_decide_eq_true ((Bool.and_eq_true _ _).mp h).right
  exact Nat.lt_of_le_of_lt hle (by decide)

theorem ascii_of_mem_padded {width n : Nat} {c : Char} (h : c ∈ padded width n) :
    c.toNat < 128 :=
  ascii_of_isDigit (List.all_eq_true.mp (padded_all_isDigit width n) c h)

theorem ascii_of_mem_appendInt {x : Int} {width : Nat} {c : Char} (h : c ∈ appendInt x width) :
    c.toNat < 128 := by
  unfold appendInt at h
  rcases List.mem_append.mp h with hsign | hdigits
  · split at hsign
    · rw [List.mem_singleton.mp hsign]
      decide
    · cases hsign
  · exact ascii_of_mem_padded hdigits

end Go
end LodelineManager
