import Mathlib.Order.Basic
import Mathlib.Data.Int.Order.Basic
import Mathlib.Tactic.IntervalCases

/-!
# The proleptic Gregorian calendar

Days are counted from 1 January of year 0.  Years start at
{lit}`yearStart`; inside a year the months start at {lit}`monthStart`.  The module
proves that splitting a day count into a date loses nothing and keeps the order.
-/

namespace LodelineManager
namespace Foundation
namespace Calendar

def isLeap (y : Int) : Bool :=
  y % 4 == 0 && (y % 100 != 0 || y % 400 == 0)

/-- Days from 1 January of year 0 to 1 January of year {lit}`y`. -/
def yearStart (y : Int) : Int :=
  365 * y + (y + 3) / 4 - (y + 99) / 100 + (y + 399) / 400

def leapDay (y : Int) : Int :=
  if isLeap y then 1 else 0

/-- Days of a year before month {lit}`m`; month 13 is the end of the year. -/
def monthStart (y : Int) : Nat -> Int
  | 1 => 0
  | 2 => 31
  | 3 => 59 + leapDay y
  | 4 => 90 + leapDay y
  | 5 => 120 + leapDay y
  | 6 => 151 + leapDay y
  | 7 => 181 + leapDay y
  | 8 => 212 + leapDay y
  | 9 => 243 + leapDay y
  | 10 => 273 + leapDay y
  | 11 => 304 + leapDay y
  | 12 => 334 + leapDay y
  | _ => 365 + leapDay y

def daysIn (y : Int) (m : Nat) : Int :=
  monthStart y (m + 1) - monthStart y m

def yearOf (days : Int) : Int :=
  let y := 400 * days / 146097
  if days < yearStart y then y - 1
  else if yearStart (y + 1) <= days then y + 1
  else y

/-- The first of {lit}`m`, ..., {lit}`m + steps` whose successor starts later. -/
def monthFrom (y yday : Int) : Nat -> Nat -> Nat
  | 0, m => m
  | steps + 1, m =>
      if yday < monthStart y (m + 1) then m else monthFrom y yday steps (m + 1)

def monthOf (y yday : Int) : Nat :=
  monthFrom y yday 11 1

structure Date where
  year : Int
  month : Nat
  day : Nat
  deriving DecidableEq

def dateOf (days : Int) : Date :=
  let y := yearOf days
  let yday := days - yearStart y
  let m := monthOf y yday
  { year := y, month := m, day := (yday - monthStart y m).toNat + 1 }

def daysOf (d : Date) : Int :=
  yearStart d.year + monthStart d.year d.month + (d.day - 1)

/-!
## Years
-/

theorem leapDay_bounds (y : Int) : 0 <= leapDay y ∧ leapDay y <= 1 := by
  unfold leapDay
  split <;> omega

theorem yearStart_succ (y : Int) : yearStart (y + 1) = yearStart y + 365 + leapDay y := by
  unfold yearStart leapDay
  by_cases hleap : isLeap y = true
  · rw [if_pos hleap]
    simp only [isLeap, Bool.and_eq_true, Bool.or_eq_true, beq_iff_eq, bne_iff_ne] at hleap
    omega
  · rw [if_neg hleap]
    simp only [isLeap, Bool.and_eq_true, Bool.or_eq_true, beq_iff_eq, bne_iff_ne] at hleap
    omega

theorem yearStart_mono {y z : Int} (h : y <= z) : yearStart y <= yearStart z := by
  unfold yearStart
  omega

theorem yearOf_spec (days : Int) :
    yearStart (yearOf days) <= days ∧ days < yearStart (yearOf days + 1) := by
  unfold yearOf
  simp only
  split
  · rename_i h
    rw [Int.sub_add_cancel]
    refine ⟨?_, h⟩
    unfold yearStart
    omega
  · rename_i h
    split
    · rename_i h2
      constructor
      · exact h2
      · unfold yearStart
        omega
    · rename_i h2
      omega

theorem yearOf_mono {a b : Int} (h : a <= b) : yearOf a <= yearOf b := by
  have ha := yearOf_spec a
  have hb := yearOf_spec b
  by_contra hlt
  have hmono := yearStart_mono (show yearOf b + 1 <= yearOf a by omega)
  omega

/-!
## Months
-/

theorem monthFrom_spec {y yday : Int} (steps m : Nat) (h : monthStart y m <= yday) :
    m <= monthFrom y yday steps m ∧ monthFrom y yday steps m <= m + steps ∧
      monthStart y (monthFrom y yday steps m) <= yday ∧
      (monthFrom y yday steps m = m + steps ∨
        yday < monthStart y (monthFrom y yday steps m + 1)) := by
  induction steps generalizing m with
  | zero => exact ⟨Nat.le_refl m, Nat.le_refl m, h, Or.inl rfl⟩
  | succ steps ih =>
      unfold monthFrom
      by_cases hnext : yday < monthStart y (m + 1)
      · rw [if_pos hnext]
        exact ⟨Nat.le_refl m, by omega, h, Or.inr hnext⟩
      · rw [if_neg hnext]
        have hrest := ih (m + 1) (by omega)
        refine ⟨by omega, by omega, hrest.right.right.left, ?_⟩
        rcases hrest.right.right.right with heq | hlt
        · exact Or.inl (by omega)
        · exact Or.inr hlt

theorem monthOf_spec {y yday : Int} (hlo : 0 <= yday) (hhi : yday < 365 + leapDay y) :
    1 <= monthOf y yday ∧ monthOf y yday <= 12 ∧
      monthStart y (monthOf y yday) <= yday ∧
      yday < monthStart y (monthOf y yday + 1) := by
  have hspec := @monthFrom_spec y yday 11 1 hlo
  refine ⟨hspec.left, hspec.right.left, hspec.right.right.left, ?_⟩
  rcases hspec.right.right.right with heq | hlt
  · show yday < monthStart y (monthFrom y yday 11 1 + 1)
    rw [heq]
    exact hhi
  · exact hlt

theorem monthStart_succ_le {y : Int} {m : Nat} (hm : 1 <= m) (hm12 : m <= 12) :
    monthStart y m + 28 <= monthStart y (m + 1) ∧
      monthStart y (m + 1) <= monthStart y m + 31 := by
  have hl := leapDay_bounds y
  interval_cases m <;> simp only [monthStart, Nat.reduceAdd] <;> omega

theorem monthStart_mono {y : Int} {m n : Nat} (hm : 1 <= m) (h : m <= n) (hn : n <= 13) :
    monthStart y m <= monthStart y n := by
  induction n, h using Nat.le_induction with
  | base => exact Int.le_refl _
  | succ n hmn ih =>
      have hsucc := monthStart_succ_le (y := y) (show 1 <= n by omega) (by omega)
      have hle := ih (by omega)
      omega

/-!
## Dates
-/

theorem yday_bounds (days : Int) :
    0 <= days - yearStart (yearOf days) ∧
      days - yearStart (yearOf days) < 365 + leapDay (yearOf days) := by
  have hspec := yearOf_spec days
  have hsucc := yearStart_succ (yearOf days)
  omega

theorem daysOf_dateOf (days : Int) : daysOf (dateOf days) = days := by
  have hy := yday_bounds days
  have hm := monthOf_spec hy.left hy.right
  unfold daysOf dateOf
  simp only
  omega

theorem dateOf_bounds (days : Int) :
    1 <= (dateOf days).month ∧ (dateOf days).month <= 12 ∧ 1 <= (dateOf days).day ∧
      ((dateOf days).day : Int) <= daysIn (dateOf days).year (dateOf days).month := by
  have hy := yday_bounds days
  have hm := monthOf_spec hy.left hy.right
  unfold dateOf daysIn
  simp only
  omega

theorem daysIn_le {y : Int} {m : Nat} (hm : 1 <= m) (hm12 : m <= 12) : daysIn y m <= 31 := by
  have hsucc := monthStart_succ_le (y := y) hm hm12
  unfold daysIn
  omega

theorem dateOf_lt {a b : Int} (h : a < b) :
    (dateOf a).year < (dateOf b).year ∨
      (dateOf a).year = (dateOf b).year ∧
        ((dateOf a).month < (dateOf b).month ∨
          (dateOf a).month = (dateOf b).month ∧ (dateOf a).day < (dateOf b).day) := by
  have hmono : (dateOf a).year <= (dateOf b).year := yearOf_mono (by omega)
  have hda := daysOf_dateOf a
  have hdb := daysOf_dateOf b
  have ha := dateOf_bounds a
  have hb := dateOf_bounds b
  unfold daysOf at hda hdb
  unfold daysIn at ha hb
  rcases Int.lt_or_eq_of_le hmono with hlt | heq
  · exact Or.inl hlt
  · refine Or.inr ⟨heq, ?_⟩
    rw [heq] at hda ha
    rcases Nat.lt_trichotomy (dateOf a).month (dateOf b).month with hm | hm | hm
    · exact Or.inl hm
    · rw [hm] at hda
      exact Or.inr ⟨hm, by omega⟩
    · exfalso
      have hstart := monthStart_mono (y := (dateOf b).year)
        (show 1 <= (dateOf b).month + 1 by omega) hm (by omega)
      omega

end Calendar
end Foundation
end LodelineManager
