import Mathlib.Data.List.Sort
import Mathlib.Order.Basic

/-!
# Numbered items sorted by a stamp

Items are numbered as they arrive and carry a stamp of their own.  Sorting them by
stamp, with the number to break ties, gives the order of arrival back exactly when
the stamps never step back along it.
-/

namespace LodelineManager
namespace Foundation

variable {item stamp : Type} [LinearOrder stamp]

/-- The order of a sort by stamp, and by number where the stamps are equal. -/
def StampOrder (stampOf : item -> stamp) (numberOf : item -> Nat) (a b : item) : Prop :=
  stampOf a < stampOf b ∨ stampOf a = stampOf b ∧ numberOf a <= numberOf b

namespace StampOrder

variable {stampOf : item -> stamp} {numberOf : item -> Nat}

theorem total (a b : item) :
    StampOrder stampOf numberOf a b ∨ StampOrder stampOf numberOf b a := by
  unfold StampOrder
  rcases lt_trichotomy (stampOf a) (stampOf b) with hlt | heq | hgt
  · exact Or.inl (Or.inl hlt)
  · rcases Nat.le_total (numberOf a) (numberOf b) with hle | hle
    · exact Or.inl (Or.inr ⟨heq, hle⟩)
    · exact Or.inr (Or.inr ⟨heq.symm, hle⟩)
  · exact Or.inr (Or.inl hgt)

theorem trans {a b c : item} (hab : StampOrder stampOf numberOf a b)
    (hbc : StampOrder stampOf numberOf b c) : StampOrder stampOf numberOf a c := by
  unfold StampOrder at *
  rcases hab with hlt | ⟨heq, hle⟩
  · rcases hbc with hlt' | ⟨heq', _⟩
    · exact Or.inl (lt_trans hlt hlt')
    · exact Or.inl (heq' ▸ hlt)
  · rcases hbc with hlt' | ⟨heq', hle'⟩
    · exact Or.inl (heq ▸ hlt')
    · exact Or.inr ⟨heq.trans heq', Nat.le_trans hle hle'⟩

theorem stamp_le {a b : item} (h : StampOrder stampOf numberOf a b) :
    stampOf a <= stampOf b := by
  rcases h with hlt | ⟨heq, _⟩
  · exact le_of_lt hlt
  · exact le_of_eq heq

theorem of_stamp_le {a b : item} (hnumber : numberOf a < numberOf b)
    (h : stampOf a <= stampOf b) : StampOrder stampOf numberOf a b := by
  rcases lt_or_eq_of_le h with hlt | heq
  · exact Or.inl hlt
  · exact Or.inr ⟨heq, Nat.le_of_lt hnumber⟩

section

variable {r : item -> item -> Prop} [DecidableRel r]

theorem insertionSort_eq (hr : forall a b, r a b <-> StampOrder stampOf numberOf a b)
    {xs : List item} (hnumbered : xs.Pairwise (fun a b => numberOf a < numberOf b))
    (hsteady : (xs.map stampOf).Pairwise (· <= ·)) : xs.insertionSort r = xs := by
  have horder : xs.Pairwise r := ((List.pairwise_map.mp hsteady).and hnumbered).imp
    (fun hab => (hr _ _).mpr (of_stamp_le hab.right hab.left))
  exact List.Pairwise.insertionSort_eq horder

theorem steady_of_numbers [Std.Total r] [IsTrans item r]
    (hr : forall a b, r a b <-> StampOrder stampOf numberOf a b)
    {xs : List item} (hnumbered : xs.Pairwise (fun a b => numberOf a < numberOf b))
    (h : (xs.insertionSort r).map numberOf = xs.map numberOf) :
    (xs.map stampOf).Pairwise (· <= ·) := by
  have hsorted : (xs.insertionSort r).Pairwise (fun a b => numberOf a < numberOf b) := by
    rw [<- List.pairwise_map, h, List.pairwise_map]
    exact hnumbered
  have hsame : xs.insertionSort r = xs := by
    apply (List.perm_insertionSort r xs).eq_of_pairwise _ hsorted hnumbered
    intro a b _ _ hab hba
    exact absurd hab (Nat.lt_asymm hba)
  have horder := List.pairwise_insertionSort r xs
  rw [hsame] at horder
  rw [List.pairwise_map]
  exact horder.imp (fun hab => stamp_le ((hr _ _).mp hab))

end

end StampOrder

end Foundation
end LodelineManager
