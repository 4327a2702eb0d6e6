import LodelineManager.Foundation.Decimal

/-!
# Decimal fractions without their last zeros

Fractions of one width compare as their digits do.  Without the zeros at the end they
either part at a digit, the same way, or the smaller one is a beginning of the larger.
-/

namespace LodelineManager
namespace Foundation

theorem trimZeros_cons (c : Char) (s : List Char) :
    trimZeros (c :: s) = if trimZeros s = [] ∧ c = '0' then [] else c :: trimZeros s := by
  unfold trimZeros List.rdropWhile
  rw [List.reverse_cons, List.dropWhile_append]
  cases hrest : s.reverse.dropWhile (fun c => decide (c = '0')) with
  | nil =>
      by_cases hc : c = '0'
      · simp [hc]
      · simp [hc]
  | cons d rest => simp

theorem trimZeros_cons_digit {c : Char} (h : c ≠ '0') (s : List Char) :
    trimZeros (c :: s) = c :: trimZeros s := by
  rw [trimZeros_cons, if_neg (fun hboth => h hboth.right)]

theorem trimZeros_cons_rest (c : Char) {s : List Char} (h : trimZeros s ≠ []) :
    trimZeros (c :: s) = c :: trimZeros s := by
  rw [trimZeros_cons, if_neg (fun hboth => h hboth.left)]

/-- The first text is smaller at the first character in which they differ. -/
def Parts (x y : List Char) : Prop :=
  exists common c d x' y', x = common ++ c :: x' ∧ y = common ++ d :: y' ∧ c < d

/-- The second text goes on where the first ends. -/
def GoesOn (x y : List Char) : Prop := exists e rest, y = x ++ e :: rest

theorem Parts.cons {x y : List Char} (h : Parts x y) (c : Char) : Parts (c :: x) (c :: y) := by
  rcases h with ⟨common, d, e, x', y', hx, hy, hlt⟩
  exact ⟨c :: common, d, e, x', y', by rw [hx]; rfl, by rw [hy]; rfl, hlt⟩

theorem Parts.ne_nil {x y : List Char} (h : Parts x y) : x ≠ [] ∧ y ≠ [] := by
  rcases h with ⟨common, c, d, x', y', hx, hy, _⟩
  rw [hx, hy]
  exact ⟨List.append_ne_nil_of_right_ne_nil common (List.cons_ne_nil c x'),
    List.append_ne_nil_of_right_ne_nil common (List.cons_ne_nil d y')⟩

theorem Parts.append_lt {x y : List Char} (h : Parts x y) (u v : List Char) :
    x ++ u < y ++ v := by
  rcases h with ⟨common, c, d, x', y', hx, hy, hlt⟩
  rw [hx, hy, List.append_assoc, List.append_assoc]
  exact append_lt_append_left (List.cons_lt_cons_iff.mpr (Or.inl hlt))

theorem Parts.not_goesOn {x y : List Char} (h : Parts x y) : ¬ GoesOn x y := by
  rintro ⟨e, rest, hy⟩
  rcases h with ⟨common, c, d, x', y', hx, hy', hlt⟩
  rw [hy', hx, List.append_assoc, List.append_cancel_left_eq] at hy
  exact Char.ne_of_lt hlt (List.cons.inj hy).left.symm

theorem zero_le_of_isDigit {c : Char} (h : isDigit c = true) : '0' <= c := by
  unfold isDigit at h
  exact of_decide_eq_true (Bool.and_eq_true_iff.mp h).left

theorem trimZeros_lt {x y : List Char} (hlen : x.length = y.length)
    (hdigits : x.all isDigit = true) (h : x < y) :
    GoesOn (trimZeros x) (trimZeros y) ∨ Parts (trimZeros x) (trimZeros y) := by
  induction x generalizing y with
  | nil =>
      cases y with
      | nil => exact absurd h (List.not_lt_nil _)
      | cons d ys => cases hlen
  | cons c xs ih =>
      cases y with
      | nil => cases hlen
      | cons d ys =>
          rw [List.all_cons, Bool.and_eq_true] at hdigits
          have hcut : trimZeros (c :: xs) = [] ∨ trimZeros (c :: xs) = c :: trimZeros xs := by
            rw [trimZeros_cons]
            split
            · exact Or.inl rfl
            · exact Or.inr rfl
          rcases List.cons_lt_cons_iff.mp h with hlt | ⟨heq, htail⟩
          · have hd : d ≠ '0' := by
              intro hzero
              rw [hzero] at hlt
              exact Char.not_lt.mpr (zero_le_of_isDigit hdigits.left) hlt
            rw [trimZeros_cons_digit hd]
            rcases hcut with hnil | hcons
            · exact Or.inl ⟨d, trimZeros ys, by rw [hnil]; rfl⟩
            · exact Or.inr ⟨[], c, d, trimZeros xs, trimZeros ys, hcons, rfl, hlt⟩
          · subst heq
            rcases ih (Nat.succ.inj hlen) hdigits.right htail with ⟨e, rest, hrest⟩ | hparts
            · have hne : trimZeros ys ≠ [] := by
                rw [hrest]
                exact List.append_ne_nil_of_right_ne_nil _ (List.cons_ne_nil e rest)
              rw [trimZeros_cons_rest c hne]
              refine Or.inl ?_
              rcases hcut with hnil | hcons
              · exact ⟨c, trimZeros ys, by rw [hnil]; rfl⟩
              · exact ⟨e, rest, by rw [hcons, hrest]; rfl⟩
            · rw [trimZeros_cons_rest c hparts.ne_nil.left,
                trimZeros_cons_rest c hparts.ne_nil.right]
              exact Or.inr (hparts.cons c)

end Foundation
end LodelineManager
