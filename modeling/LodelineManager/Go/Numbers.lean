import LodelineManager.Go.Strings
import LodelineManager.Go.TimeParse

/-!
# Numbers as texts

{lit}`strconv.Atoi` reads back what is written for a number, as long as the number fits into
64 bits.
-/

namespace LodelineManager
namespace Go

open Foundation

theorem lt_pow_decimalWidth (u : Nat) : u < 10 ^ decimalWidth u := by
  by_contra hnot
  have hle : 10 ^ decimalWidth u <= u := Nat.le_of_not_lt hnot
  have hfuel : decimalWidth u <= u :=
    Nat.le_trans (Nat.le_of_lt (Nat.lt_pow_self (by decide))) hle
  exact Nat.lt_irrefl _ (lt_decimalWidthFrom hfuel hle)

theorem text_digits {digits : List Char} (hdigits : digits.all isDigit = true) :
    (bytesOf (String.ofList digits)).text.toList = digits := by
  rw [text_bytesOf, String.toList_ofList]
  intro c hc
  rw [String.toList_ofList] at hc
  exact toNat_lt_of_isDigit (List.all_eq_true.mp hdigits c hc)

theorem bytesOf_ofList (chars : List Char) :
    bytesOf (String.ofList chars) = chars.map (fun c => UInt8.ofNat c.toNat) := by
  unfold bytesOf
  rw [String.toList_ofList]

theorem head?_digits {digits : List Char} (hdigits : digits.all isDigit = true) {b : UInt8}
    (hb : b.toNat < 48) : (bytesOf (String.ofList digits)).head? ≠ some b := by
  rw [bytesOf_ofList, List.head?_map]
  intro hhead
  rcases Option.map_eq_some_iff.mp hhead with ⟨c, hc, hbyte⟩
  have hdigit := List.all_eq_true.mp hdigits c (List.mem_of_head? hc)
  have hle : '0'.toNat <= c.toNat := of_decide_eq_true ((Bool.and_eq_true _ _).mp hdigit).left
  have hnat : (UInt8.ofNat c.toNat).toNat = c.toNat :=
    UInt8.toNat_ofNat_of_lt' (toNat_lt_of_isDigit hdigit)
  rw [hbyte] at hnat
  exact absurd hle (Nat.not_le.mpr (hnat ▸ hb))

section

variable {digits : List Char} {n : Nat} (hread : readDigits digits = some n)
    (hdigits : digits.all isDigit = true) (hne : digits ≠ [])

include hread hdigits hne

theorem atoi_digits :
    atoi (bytesOf (String.ofList digits)) = if n < 2 ^ 63 then some (n : Int) else none := by
  have hminus := head?_digits hdigits (b := 45) (by decide)
  have hplus := head?_digits hdigits (b := 43) (by decide)
  have hbytes : bytesOf (String.ofList digits) ≠ [] := by
    rw [bytesOf_ofList]
    exact fun h => hne (List.map_eq_nil_iff.mp h)
  unfold atoi
  simp only [hminus, hplus, or_self, if_false, if_neg hbytes, text_digits hdigits, hread,
    decide_false, Bool.false_eq_true]

theorem atoi_minus :
    atoi (bytesOf (String.ofList ('-' :: digits))) =
      if n <= 2 ^ 63 then some (-(n : Int)) else none := by
  have hbytes : bytesOf (String.ofList ('-' :: digits)) = 45 :: bytesOf (String.ofList digits) := by
    rw [bytesOf_ofList, bytesOf_ofList]
    rfl
  have hrest : bytesOf (String.ofList digits) ≠ [] := by
    rw [bytesOf_ofList]
    exact fun h => hne (List.map_eq_nil_iff.mp h)
  unfold atoi
  rw [hbytes]
  simp only [List.head?_cons, true_or, if_true, List.drop_succ_cons, List.drop_zero,
    if_neg hrest, text_digits hdigits, hread, decide_true]

end

theorem padded_ne_nil (u : Nat) : padded (max 1 (decimalWidth u)) u ≠ [] := by
  apply List.ne_nil_of_length_pos
  rw [padded_length]
  exact Nat.lt_of_lt_of_le Nat.one_pos (Nat.le_max_left 1 _)

theorem appendInt_ne_nil (n : Int) : appendInt n 1 ≠ [] :=
  List.append_ne_nil_of_right_ne_nil _ (padded_ne_nil n.natAbs)

theorem atoi_appendInt (n : Int) :
    atoi (bytesOf (String.ofList (appendInt n 1))) =
      if -2 ^ 63 <= n ∧ n < 2 ^ 63 then some n else none := by
  have hread : readDigits (padded (max 1 (decimalWidth n.natAbs)) n.natAbs) = some n.natAbs := by
    have hlt : n.natAbs < 10 ^ max 1 (decimalWidth n.natAbs) :=
      Nat.lt_of_lt_of_le (lt_pow_decimalWidth n.natAbs)
        (Nat.pow_le_pow_right (by decide) (Nat.le_max_right 1 _))
    rw [readDigits_padded, Nat.mod_eq_of_lt hlt]
  have hdigits := padded_all_isDigit (max 1 (decimalWidth n.natAbs)) n.natAbs
  have hne : padded (max 1 (decimalWidth n.natAbs)) n.natAbs ≠ [] := padded_ne_nil n.natAbs
  unfold appendInt
  by_cases hneg : n < 0
  · rw [if_pos hneg, List.singleton_append, atoi_minus hread hdigits hne]
    by_cases hrange : n.natAbs <= 2 ^ 63
    · rw [if_pos hrange, if_pos (by omega), Int.ofNat_natAbs_of_nonpos (Int.le_of_lt hneg), Int.neg_neg]
    · rw [if_neg hrange, if_neg (by omega)]
  · rw [if_neg hneg, List.nil_append, atoi_digits hread hdigits hne]
    by_cases hrange : n.natAbs < 2 ^ 63
    · rw [if_pos hrange, if_pos (by omega), Int.natAbs_of_nonneg (Int.not_lt.mp hneg)]
    · rw [if_neg hrange, if_neg (by omega)]

theorem atoi_inRange {s : ByteString} {n : Int} (h : atoi s = some n) :
    -2 ^ 63 <= n ∧ n < 2 ^ 63 := by
  unfold atoi at h
  simp only at h
  generalize (if s.head? = some 45 ∨ s.head? = some 43 then s.drop 1 else s) = digits at h
  split at h
  · cases h
  · cases hread : readDigits (ByteString.text digits).toList with
    | none =>
        rw [hread] at h
        cases h
    | some m =>
        rw [hread] at h
        simp only at h
        split_ifs at h
        all_goals
          cases h
          omega

end Go
end LodelineManager
