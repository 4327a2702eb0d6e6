import Mathlib.Data.List.Basic
import Mathlib.Data.List.DropRight
import Mathlib.Order.Basic
import Mathlib.Data.Nat.ModEq
import Mathlib.Tactic.Ring

/-!
# Fixed-width decimal fields

A number below {lit}`10 ^ width` written with leading zeros.  Fields of one width
compare as text the way their numbers compare, and reading a field back gives
the number it was written from.
-/

namespace LodelineManager
namespace Foundation

/-- The last {lit}`width` decimal digits of a number, most significant first. -/
def padded : Nat -> Nat -> List Char
  | 0, _ => []
  | width + 1, n => Nat.digitChar (n / 10 ^ width % 10) :: padded width n

def isDigit (c : Char) : Bool := decide ('0' <= c) && decide (c <= '9')

def digitValue (c : Char) : Nat := c.toNat - '0'.toNat

def readDigits (s : List Char) : Option Nat :=
  if s.all isDigit then some (s.foldl (fun n c => 10 * n + digitValue c) 0) else none

/-!
## Digits
-/

theorem digitChar_lt {a b : Nat} (hab : a < b) (hb : b < 10) :
    Nat.digitChar a < Nat.digitChar b := by
  have hall : forall b : Fin 10, forall a : Fin 10, a < b ->
      Nat.digitChar a.val < Nat.digitChar b.val := by decide
  exact hall ⟨b, hb⟩ ⟨a, by omega⟩ hab

theorem isDigit_digitChar {n : Nat} (h : n < 10) : isDigit (Nat.digitChar n) = true := by
  have hall : forall n : Fin 10, isDigit (Nat.digitChar n.val) = true := by decide
  exact hall ⟨n, h⟩

theorem digitValue_digitChar {n : Nat} (h : n < 10) : digitValue (Nat.digitChar n) = n := by
  have hall : forall n : Fin 10, digitValue (Nat.digitChar n.val) = n.val := by decide
  exact hall ⟨n, h⟩

theorem mod_pow_succ_eq (n width : Nat) :
    n % 10 ^ (width + 1) = n / 10 ^ width % 10 * 10 ^ width + n % 10 ^ width := by
  rw [Nat.pow_succ, Nat.mod_mul]
  ring

/-!
## Order and reading back
-/

@[simp] theorem padded_length (width n : Nat) : (padded width n).length = width := by
  induction width with
  | zero => rfl
  | succ width ih => simp [padded, ih]

theorem padded_lt {width a b : Nat} (h : a % 10 ^ width < b % 10 ^ width) :
    padded width a < padded width b := by
  induction width with
  | zero => simp [Nat.mod_one] at h
  | succ width ih =>
      rw [mod_pow_succ_eq, mod_pow_succ_eq] at h
      have hpos : 0 < 10 ^ width := Nat.pow_pos (by decide)
      have ha : a % 10 ^ width < 10 ^ width := Nat.mod_lt _ hpos
      have hb : b % 10 ^ width < 10 ^ width := Nat.mod_lt _ hpos
      show Nat.digitChar _ :: padded width a < Nat.digitChar _ :: padded width b
      rcases Nat.lt_trichotomy (a / 10 ^ width % 10) (b / 10 ^ width % 10) with hlt | heq | hgt
      · exact List.cons_lt_cons_iff.mpr (Or.inl (digitChar_lt hlt (Nat.mod_lt _ (by decide))))
      · rw [heq] at h ⊢
        exact List.cons_lt_cons_iff.mpr (Or.inr ⟨rfl, ih (by omega)⟩)
      · exfalso
        have hle : (b / 10 ^ width % 10 + 1) * 10 ^ width <= a / 10 ^ width % 10 * 10 ^ width :=
          Nat.mul_le_mul_right _ hgt
        rw [Nat.add_mul, Nat.one_mul] at hle
        omega

theorem padded_all_isDigit (width n : Nat) : (padded width n).all isDigit = true := by
  induction width with
  | zero => rfl
  | succ width ih =>
      simp only [padded, List.all_cons, ih, Bool.and_true]
      exact isDigit_digitChar (Nat.mod_lt _ (by decide))

theorem foldl_padded (width n acc : Nat) :
    (padded width n).foldl (fun n c => 10 * n + digitValue c) acc =
      acc * 10 ^ width + n % 10 ^ width := by
  induction width generalizing acc with
  | zero => simp [padded, Nat.mod_one]
  | succ width ih =>
      simp only [padded, List.foldl_cons]
      rw [ih, digitValue_digitChar (Nat.mod_lt _ (by decide)), mod_pow_succ_eq, Nat.pow_succ]
      ring

theorem readDigits_padded (width n : Nat) :
    readDigits (padded width n) = some (n % 10 ^ width) := by
  rw [readDigits, padded_all_isDigit, if_pos rfl, foldl_padded, Nat.zero_mul, Nat.zero_add]

/-!
## Zeros at the end
-/

def trimZeros (s : List Char) : List Char := s.rdropWhile (fun c => decide (c = '0'))

theorem exists_trimZeros (s : List Char) : exists k, s = trimZeros s ++ List.replicate k '0' := by
  have hsplit : s.reverse.takeWhile (fun c => decide (c = '0')) ++
      s.reverse.dropWhile (fun c => decide (c = '0')) = s.reverse :=
    List.takeWhile_append_dropWhile
  have hzeros : forall c, c ∈ s.reverse.takeWhile (fun c => decide (c = '0')) -> c = '0' := by
    intro c hc
    have hdecide := List.mem_takeWhile_imp hc
    exact of_decide_eq_true hdecide
  have hreverse := congrArg List.reverse hsplit
  rw [List.reverse_append, List.reverse_reverse, List.eq_replicate_of_mem hzeros,
    List.reverse_replicate] at hreverse
  exact ⟨_, hreverse.symm⟩

theorem foldl_zeros (k acc : Nat) :
    (List.replicate k '0').foldl (fun n c => 10 * n + digitValue c) acc = acc * 10 ^ k := by
  induction k generalizing acc with
  | zero => exact (Nat.mul_one acc).symm
  | succ k ih =>
      have hzero : digitValue '0' = 0 := rfl
      rw [List.replicate_succ, List.foldl_cons, ih, hzero, Nat.pow_succ]
      ring

theorem readDigits_trimZeros {s : List Char} {n : Nat} (h : readDigits s = some n) :
    exists m, readDigits (trimZeros s) = some m ∧
      m * 10 ^ (s.length - (trimZeros s).length) = n := by
  rcases exists_trimZeros s with ⟨k, hk⟩
  unfold readDigits at h
  split at h
  · rename_i hall
    have hlen : s.length = (trimZeros s).length + k := by
      conv_lhs => rw [hk]
      rw [List.length_append, List.length_replicate]
    rw [hk, List.all_append, Bool.and_eq_true] at hall
    refine ⟨(trimZeros s).foldl (fun n c => 10 * n + digitValue c) 0, if_pos hall.left, ?_⟩
    have hread : s.foldl (fun n c => 10 * n + digitValue c) 0 = n := Option.some.inj h
    rw [hk, List.foldl_append, foldl_zeros] at hread
    rw [hlen, Nat.add_sub_cancel_left]
    exact hread
  · cases h

/-!
## Text made of fields
-/

theorem append_lt_append_left {front x y : List Char} (h : x < y) :
    front ++ x < front ++ y := by
  induction front with
  | nil => exact h
  | cons c rest ih => exact List.cons_lt_cons_iff.mpr (Or.inr ⟨rfl, ih⟩)

theorem append_lt_append_of_lt {x y : List Char} (hlen : x.length = y.length) (h : x < y)
    (u v : List Char) : x ++ u < y ++ v := by
  induction x generalizing y with
  | nil =>
      cases y with
      | nil => exact absurd h (List.not_lt_nil _)
      | cons d ys => cases hlen
  | cons c xs ih =>
      cases y with
      | nil => cases hlen
      | cons d ys =>
          rcases List.cons_lt_cons_iff.mp h with hlt | ⟨heq, htail⟩
          · exact List.cons_lt_cons_iff.mpr (Or.inl hlt)
          · exact List.cons_lt_cons_iff.mpr
              (Or.inr ⟨heq, ih (Nat.succ.inj hlen) htail⟩)

/-- Lexicographic order on the values of fields. -/
def FieldsLt : List Nat -> List Nat -> Prop
  | a :: as, b :: bs => a < b ∨ a = b ∧ FieldsLt as bs
  | _, _ => False

def fieldsText : List (Nat × Char) -> List Nat -> List Char
  | (width, sep) :: layout, n :: ns => padded width n ++ sep :: fieldsText layout ns
  | _, _ => []

/-- Every value fits the width of its field. -/
def FieldsFit : List (Nat × Char) -> List Nat -> Prop
  | [], [] => True
  | (width, _) :: layout, n :: ns => n < 10 ^ width ∧ FieldsFit layout ns
  | _, _ => False

theorem fieldsText_lt {layout : List (Nat × Char)} {ms ns : List Nat}
    (hms : FieldsFit layout ms) (hns : FieldsFit layout ns) (h : FieldsLt ms ns) :
    fieldsText layout ms < fieldsText layout ns := by
  induction layout generalizing ms ns with
  | nil =>
      cases ms with
      | nil => cases h
      | cons m ms => cases hms
  | cons field layout ih =>
      cases ms with
      | nil => cases hms
      | cons m ms =>
          cases ns with
          | nil => cases hns
          | cons n ns =>
              rcases h with hlt | ⟨heq, htail⟩
              · apply append_lt_append_of_lt (by simp)
                apply padded_lt
                rw [Nat.mod_eq_of_lt hms.left, Nat.mod_eq_of_lt hns.left]
                exact hlt
              · rw [heq]
                exact append_lt_append_left
                  (List.cons_lt_cons_iff.mpr (Or.inr ⟨rfl, ih hms.right hns.right htail⟩))

theorem not_mem_fieldsText {layout : List (Nat × Char)} {c : Char}
    (hdigit : isDigit c = false) (hsep : c ∉ layout.map Prod.snd) (ns : List Nat) :
    c ∉ fieldsText layout ns := by
  induction layout generalizing ns with
  | nil =>
      intro hc
      cases hc
  | cons field layout ih =>
      rcases field with ⟨width, sep⟩
      rw [List.map_cons, List.mem_cons, not_or] at hsep
      cases ns with
      | nil =>
          intro hc
          cases hc
      | cons n ns =>
          intro hc
          rcases List.mem_append.mp hc with hpad | hrest
          · have hall := List.all_eq_true.mp (padded_all_isDigit width n) c hpad
            rw [hdigit] at hall
            cases hall
          · rcases List.mem_cons.mp hrest with heq | hlater
            · exact hsep.left heq
            · exact ih hsep.right ns hlater

end Foundation
end LodelineManager
