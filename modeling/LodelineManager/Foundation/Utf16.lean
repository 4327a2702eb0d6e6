import Mathlib.Data.List.Basic
import Mathlib.Data.UInt

/-!
# Texts as UTF-16 code units

The content of a JSON string is a sequence of UTF-16 code units, which need not be the
code units of a text: a surrogate may stand alone.  A document that is not UTF-8 has
bytes in it that stand for nothing.  Decoding puts U+FFFD in the place of both, and
gives a text back from its code units.
-/

namespace LodelineManager
namespace Foundation
namespace Utf16

inductive StringUnit where
  | code (u : UInt16)
  | byte (b : UInt8)
  deriving DecidableEq

def isHigh (u : UInt16) : Bool := 0xD800 <= u.toNat && u.toNat < 0xDC00

def isLow (u : UInt16) : Bool := 0xDC00 <= u.toNat && u.toNat < 0xE000

def encodeChar (c : Char) : List UInt16 :=
  if c.toNat < 0x10000 then [UInt16.ofNat c.toNat]
  else
    [UInt16.ofNat (0xD800 + (c.toNat - 0x10000) / 0x400),
      UInt16.ofNat (0xDC00 + (c.toNat - 0x10000) % 0x400)]

def codes (s : List Char) : List StringUnit :=
  s.flatMap (fun c => (encodeChar c).map StringUnit.code)

def replacement : Char := Char.ofNat 0xFFFD

def pair (high low : UInt16) : Char :=
  Char.ofNat (0x10000 + (high.toNat - 0xD800) * 0x400 + (low.toNat - 0xDC00))

def single (u : UInt16) : Char :=
  if isHigh u || isLow u then replacement else Char.ofNat u.toNat

def decode : List StringUnit -> List Char
  | [] => []
  | .byte _ :: rest => replacement :: decode rest
  | .code u :: .code v :: rest =>
      if isHigh u && isLow v then pair u v :: decode rest
      else single u :: decode (.code v :: rest)
  | .code u :: rest => single u :: decode rest

theorem codes_cons (c : Char) (s : List Char) :
    codes (c :: s) = (encodeChar c).map StringUnit.code ++ codes s := rfl

theorem toNat_unit {n : Nat} (h : n < 0x10000) : (UInt16.ofNat n).toNat = n :=
  UInt16.toNat_ofNat_of_lt h

theorem not_surrogate (c : Char) : c.toNat < 0xD800 ∨ 0xDFFF < c.toNat ∧ c.toNat < 0x110000 :=
  c.valid

theorem decode_single {u : UInt16} (hhigh : isHigh u = false) (hlow : isLow u = false)
    (rest : List StringUnit) :
    decode (.code u :: rest) = Char.ofNat u.toNat :: decode rest := by
  have hsingle : single u = Char.ofNat u.toNat := by
    unfold single
    rw [hhigh, hlow]
    rfl
  match rest with
  | [] => exact congrArg (· :: []) hsingle
  | .byte b :: rest => exact congrArg (· :: decode (.byte b :: rest)) hsingle
  | .code v :: rest =>
      show (if isHigh u && isLow v then _ else single u :: decode (.code v :: rest)) = _
      rw [hhigh, hsingle]
      rfl

theorem decode_codes_cons (c : Char) (s : List Char) :
    decode (codes (c :: s)) = c :: decode (codes s) := by
  have hchar := not_surrogate c
  rw [codes_cons]
  unfold encodeChar
  split
  · rename_i hsmall
    have hunit : (UInt16.ofNat c.toNat).toNat = c.toNat := toNat_unit hsmall
    have hhigh : isHigh (UInt16.ofNat c.toNat) = false := by
      unfold isHigh
      rw [hunit, Bool.and_eq_false_iff, decide_eq_false_iff_not, decide_eq_false_iff_not]
      omega
    have hlow : isLow (UInt16.ofNat c.toNat) = false := by
      unfold isLow
      rw [hunit, Bool.and_eq_false_iff, decide_eq_false_iff_not, decide_eq_false_iff_not]
      omega
    show decode (.code (UInt16.ofNat c.toNat) :: codes s) = _
    rw [decode_single hhigh hlow, hunit, Char.ofNat_toNat]
  · rename_i hlarge
    have hfirst : (UInt16.ofNat (0xD800 + (c.toNat - 0x10000) / 0x400)).toNat =
        0xD800 + (c.toNat - 0x10000) / 0x400 := toNat_unit (by omega)
    have hsecond : (UInt16.ofNat (0xDC00 + (c.toNat - 0x10000) % 0x400)).toNat =
        0xDC00 + (c.toNat - 0x10000) % 0x400 := toNat_unit (by omega)
    have hhigh : isHigh (UInt16.ofNat (0xD800 + (c.toNat - 0x10000) / 0x400)) = true := by
      unfold isHigh
      rw [hfirst, Bool.and_eq_true, decide_eq_true_eq, decide_eq_true_eq]
      omega
    have hlow : isLow (UInt16.ofNat (0xDC00 + (c.toNat - 0x10000) % 0x400)) = true := by
      unfold isLow
      rw [hsecond, Bool.and_eq_true, decide_eq_true_eq, decide_eq_true_eq]
      omega
    have hpair : pair (UInt16.ofNat (0xD800 + (c.toNat - 0x10000) / 0x400))
        (UInt16.ofNat (0xDC00 + (c.toNat - 0x10000) % 0x400)) = c := by
      unfold pair
      rw [hfirst, hsecond]
      have hsum : 0x10000 + (0xD800 + (c.toNat - 0x10000) / 0x400 - 0xD800) * 0x400 +
          (0xDC00 + (c.toNat - 0x10000) % 0x400 - 0xDC00) = c.toNat := by omega
      rw [hsum, Char.ofNat_toNat]
    show (if isHigh _ && isLow _ then pair _ _ :: decode (codes s) else _) = _
    rw [hhigh, hlow, hpair]
    rfl

theorem decode_codes (s : List Char) : decode (codes s) = s := by
  induction s with
  | nil => rfl
  | cons c rest ih => rw [decode_codes_cons, ih]

/-!
## Characters of ASCII
-/

theorem toNat_ofNat_of_valid {n : Nat} (h : n.isValidChar) : (Char.ofNat n).toNat = n := by
  unfold Char.ofNat
  rw [dif_pos h]
  rfl

theorem toNat_pair {u v : UInt16} (h : (isHigh u && isLow v) = true) :
    0x10000 <= (pair u v).toNat := by
  unfold isHigh isLow at h
  simp only [Bool.and_eq_true, decide_eq_true_eq] at h
  unfold pair
  rw [toNat_ofNat_of_valid (Or.inr ⟨by omega, by omega⟩)]
  omega

theorem toNat_single (u : UInt16) : single u = replacement ∨ (single u).toNat = u.toNat := by
  unfold single
  split
  · exact Or.inl rfl
  · rename_i h
    right
    unfold isHigh isLow at h
    simp only [Bool.or_eq_true, Bool.and_eq_true, decide_eq_true_eq] at h
    have hu : u.toNat < 0x10000 := u.toNat_lt
    apply toNat_ofNat_of_valid
    unfold Nat.isValidChar
    omega

theorem code_of_single {u : UInt16} {c : Char} (hc : c.toNat < 0x80) (h : c = single u) :
    u = UInt16.ofNat c.toNat := by
  rcases toNat_single u with hrep | hnat
  · rw [h, hrep] at hc
    exact absurd hc (by decide)
  · rw [h, hnat, UInt16.ofNat_toNat]

theorem mem_of_mem_decode {s : List StringUnit} {c : Char} (hc : c.toNat < 0x80)
    (h : c ∈ decode s) : StringUnit.code (UInt16.ofNat c.toNat) ∈ s := by
  induction s using decode.induct with
  | case1 => cases h
  | case2 b rest ih =>
      rw [decode] at h
      rcases List.mem_cons.mp h with heq | hrest
      · rw [heq] at hc
        exact absurd hc (by decide)
      · exact List.mem_cons_of_mem _ (ih hrest)
  | case3 u v rest hpair ih =>
      rw [decode, if_pos hpair] at h
      rcases List.mem_cons.mp h with heq | hrest
      · rw [heq] at hc
        exact absurd (toNat_pair hpair) (Nat.not_le.mpr (Nat.lt_trans hc (by decide)))
      · exact List.mem_cons_of_mem _ (List.mem_cons_of_mem _ (ih hrest))
  | case4 u v rest hpair ih =>
      rw [decode, if_neg hpair] at h
      rcases List.mem_cons.mp h with heq | hrest
      · rw [← code_of_single hc heq]
        exact List.mem_cons_self
      · exact List.mem_cons_of_mem _ (ih hrest)
  | case5 u rest hnone ih =>
      rw [decode] at h
      · rcases List.mem_cons.mp h with heq | hrest
        · rw [← code_of_single hc heq]
          exact List.mem_cons_self
        · exact List.mem_cons_of_mem _ (ih hrest)
      · exact hnone

end Utf16
end Foundation
end LodelineManager
