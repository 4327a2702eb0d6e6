import Mathlib.Algebra.Ring.Nat

/-!
# Whole numbers as doubles

A double keeps 53 bits of a whole number.  It is printed with as few digits before its zeros
as still read back as it, so from {lit}`2 ^ 53` on what is printed may be another number.
-/

namespace LodelineManager
namespace Foundation
namespace ShortestDigits

def spacing (n : Nat) : Nat := 2 ^ (n.log2 - 52)

def nearest (n : Nat) : Nat :=
  if 2 * (n % spacing n) < spacing n ∨
      2 * (n % spacing n) = spacing n ∧ n / spacing n % 2 = 0 then n / spacing n * spacing n
  else (n / spacing n + 1) * spacing n

def IsDouble (n : Nat) : Prop := nearest n = n

instance (n : Nat) : Decidable (IsDouble n) := inferInstanceAs (Decidable (nearest n = n))

/-- The multiple of a power of ten that reads back as a double.  When both around it do, the
closer one counts, and the even one on a tie. -/
def shorter (power x : Nat) : Option Nat :=
  let below := x / power * power
  let above := below + power
  if nearest below = x then
    if nearest above = x ∧
        (above - x < x - below ∨ above - x = x - below ∧ x / power % 2 = 1) then some above
    else some below
  else if nearest above = x then some above
  else none

def printedFrom : Nat -> Nat -> Nat
  | 0, x => x
  | zeros + 1, x => (shorter (10 ^ (zeros + 1)) x).getD (printedFrom zeros x)

/-- The number that is printed for a double below {lit}`10 ^ 21`. -/
def printed (x : Nat) : Nat := printedFrom 21 x

example : printed (2 ^ 62) = 4611686018427388000 := by decide +kernel

/-!
## Rounding
-/

theorem log2_le_of_lt {n k : Nat} (h : n < 2 ^ (k + 1)) : n.log2 <= k := by
  by_cases hn : n = 0
  · rw [hn, Nat.log2_zero]
    exact Nat.zero_le k
  · exact Nat.le_of_lt_succ ((Nat.log2_lt hn).mpr h)

theorem nearest_of_lt {n : Nat} (h : n < 2 ^ 53) : nearest n = n := by
  have hspacing : spacing n = 1 := by
    unfold spacing
    rw [Nat.sub_eq_zero_of_le (log2_le_of_lt h), Nat.pow_zero]
  unfold nearest
  rw [hspacing, Nat.mod_one, if_pos (Or.inl Nat.one_pos), Nat.div_one, Nat.mul_one]

theorem two_pow_log2_le_nearest {n : Nat} (h : 52 <= n.log2) : 2 ^ n.log2 <= nearest n := by
  have hn : n ≠ 0 := by
    intro hzero
    rw [hzero, Nat.log2_zero] at h
    exact absurd h (Nat.not_succ_le_zero 51)
  have hpow : 2 ^ n.log2 = 2 ^ 52 * spacing n := by
    unfold spacing
    rw [← Nat.pow_add, Nat.add_sub_cancel' h]
  have hpos : 0 < spacing n := Nat.two_pow_pos _
  have hquotient : 2 ^ 52 <= n / spacing n := by
    rw [Nat.le_div_iff_mul_le hpos, ← hpow]
    exact Nat.log2_self_le hn
  rw [hpow]
  unfold nearest
  split
  · exact Nat.mul_le_mul_right _ hquotient
  · exact Nat.mul_le_mul_right _ (Nat.le_succ_of_le hquotient)

theorem le_nearest {n : Nat} (h : 2 ^ 53 <= n) : 2 ^ 53 <= nearest n := by
  have hn : n ≠ 0 := Nat.ne_of_gt (Nat.lt_of_lt_of_le (Nat.two_pow_pos 53) h)
  have hlog : 53 <= n.log2 := (Nat.le_log2 hn).mpr h
  calc 2 ^ 53 <= 2 ^ n.log2 := Nat.pow_le_pow_right (Nat.succ_pos 1) hlog
    _ <= nearest n := two_pow_log2_le_nearest (Nat.le_of_succ_le hlog)

/-!
## Printing
-/

theorem nearest_of_shorter {power x y : Nat} (h : shorter power x = some y) : nearest y = x := by
  unfold shorter at h
  simp only at h
  split at h
  · rename_i hbelow
    split at h
    · rename_i habove
      cases h
      exact habove.left
    · cases h
      exact hbelow
  · split at h
    · rename_i habove
      cases h
      exact habove
    · cases h

theorem nearest_printedFrom {x : Nat} (h : IsDouble x) (zeros : Nat) :
    nearest (printedFrom zeros x) = x := by
  induction zeros with
  | zero => exact h
  | succ zeros ih =>
      show nearest ((shorter (10 ^ (zeros + 1)) x).getD (printedFrom zeros x)) = x
      cases hshorter : shorter (10 ^ (zeros + 1)) x with
      | none => exact ih
      | some y => exact nearest_of_shorter hshorter

theorem printed_of_lt {x : Nat} (h : x < 2 ^ 53) : printed x = x := by
  have hback : nearest (printed x) = x := by
    unfold printed
    exact nearest_printedFrom (nearest_of_lt h) 21
  generalize printed x = y at hback
  rcases Nat.lt_or_ge y (2 ^ 53) with hy | hy
  · exact (nearest_of_lt hy).symm.trans hback
  · exact absurd h (Nat.not_lt.mpr (hback ▸ le_nearest hy))

end ShortestDigits
end Foundation
end LodelineManager
