import Mathlib.Data.List.Basic
import Mathlib.Data.UInt

/-!
# Percent-encoding

A byte that an alphabet keeps stands for itself; any other is written as a percent
sign and two hexadecimal digits.  Decoding undoes every alphabet without the percent
sign, and two alphabets write the same text exactly when they agree on its bytes.  In a
form a space is written as a plus sign.
-/

namespace LodelineManager
namespace Foundation
namespace PercentCoding

def percent : UInt8 := 37

def hexDigit (n : Nat) : UInt8 := UInt8.ofNat (if n < 10 then 48 + n else 55 + n)

def hexValue (b : UInt8) : Option Nat :=
  if 48 <= b && b <= 57 then some (b.toNat - 48)
  else if 97 <= b && b <= 102 then some (b.toNat - 87)
  else if 65 <= b && b <= 70 then some (b.toNat - 55)
  else none

def encodeByte (keep : UInt8 -> Bool) (b : UInt8) : List UInt8 :=
  if keep b then [b] else [percent, hexDigit (b.toNat / 16), hexDigit (b.toNat % 16)]

def encode (keep : UInt8 -> Bool) (s : List UInt8) : List UInt8 :=
  s.flatMap (encodeByte keep)

/-- Undefined when a percent sign is not followed by two hexadecimal digits. -/
def decode : List UInt8 -> Option (List UInt8)
  | [] => some []
  | b :: rest =>
      if b = percent then
        match rest with
        | hi :: lo :: rest =>
            match hexValue hi, hexValue lo with
            | some h, some l => (decode rest).map (fun s => UInt8.ofNat (16 * h + l) :: s)
            | _, _ => none
        | _ => none
      else (decode rest).map (fun s => b :: s)

/-!
## One byte
-/

theorem hexValue_hexDigit {n : Nat} (h : n < 16) : hexValue (hexDigit n) = some n := by
  have hall : forall n : Fin 16, hexValue (hexDigit n.val) = some n.val := by decide
  exact hall ⟨n, h⟩

theorem decode_cons_of_ne {b : UInt8} (hb : b ≠ percent) (rest : List UInt8) :
    decode (b :: rest) = (decode rest).map (fun s => b :: s) := by
  rw [decode.eq_def]
  exact if_neg hb

theorem decode_triple {h l : Nat} (hh : h < 16) (hl : l < 16) (rest : List UInt8) :
    decode (percent :: hexDigit h :: hexDigit l :: rest) =
      (decode rest).map (fun s => UInt8.ofNat (16 * h + l) :: s) := by
  rw [decode.eq_def]
  simp only [if_true, hexValue_hexDigit hh, hexValue_hexDigit hl]

theorem decode_encodeByte_append {keep : UInt8 -> Bool} (hkeep : keep percent = false)
    (b : UInt8) (rest : List UInt8) :
    decode (encodeByte keep b ++ rest) = (decode rest).map (fun s => b :: s) := by
  unfold encodeByte
  by_cases hb : keep b = true
  · have hne : b ≠ percent := by
      intro heq
      rw [heq, hkeep] at hb
      cases hb
    rw [if_pos hb]
    exact decode_cons_of_ne hne rest
  · have hlt : b.toNat < 256 := b.toNat_lt
    have hbyte : UInt8.ofNat (16 * (b.toNat / 16) + b.toNat % 16) = b := by
      rw [Nat.div_add_mod]
      exact UInt8.ofNat_toNat
    rw [if_neg hb]
    refine (decode_triple (by omega) (by omega) rest).trans ?_
    rw [hbyte]

/-!
## Texts
-/

theorem encode_cons (keep : UInt8 -> Bool) (b : UInt8) (s : List UInt8) :
    encode keep (b :: s) = encodeByte keep b ++ encode keep s := List.flatMap_cons

theorem encode_append (keep : UInt8 -> Bool) (s t : List UInt8) :
    encode keep (s ++ t) = encode keep s ++ encode keep t := List.flatMap_append

theorem decode_encode_append {keep : UInt8 -> Bool} (hkeep : keep percent = false)
    (s rest : List UInt8) :
    decode (encode keep s ++ rest) = (decode rest).map (fun t => s ++ t) := by
  induction s with
  | nil =>
      show decode rest = _
      cases decode rest <;> rfl
  | cons b s ih =>
      rw [encode_cons, List.append_assoc, decode_encodeByte_append hkeep, ih, Option.map_map]
      rfl

theorem decode_encode {keep : UInt8 -> Bool} (hkeep : keep percent = false) (s : List UInt8) :
    decode (encode keep s) = some s := by
  have h := decode_encode_append hkeep s []
  rw [List.append_nil] at h
  rw [h]
  show some (s ++ []) = some s
  rw [List.append_nil]

theorem encode_injective {keep : UInt8 -> Bool} (hkeep : keep percent = false)
    {s t : List UInt8} (h : encode keep s = encode keep t) : s = t := by
  have hs := decode_encode hkeep s
  rw [h, decode_encode hkeep t] at hs
  exact (Option.some.inj hs).symm

theorem length_le_encode (keep : UInt8 -> Bool) (s : List UInt8) :
    s.length <= (encode keep s).length := by
  induction s with
  | nil => exact Nat.le_refl 0
  | cons b s ih =>
      have hone : 1 <= (encodeByte keep b).length := by
        unfold encodeByte
        split
        · exact Nat.le_refl 1
        · exact Nat.le_add_left 1 2
      rw [encode_cons, List.length_append, List.length_cons, Nat.add_comm]
      exact Nat.add_le_add hone ih

theorem mem_encode {keep : UInt8 -> Bool} {s : List UInt8} {x : UInt8} (h : x ∈ encode keep s) :
    keep x = true ∨ x = percent ∨ exists n, n < 16 ∧ x = hexDigit n := by
  rcases List.mem_flatMap.mp h with ⟨b, _, hx⟩
  unfold encodeByte at hx
  by_cases hb : keep b = true
  · rw [if_pos hb, List.mem_singleton] at hx
    rw [hx]
    exact Or.inl hb
  · have hlt : b.toNat < 256 := b.toNat_lt
    rw [if_neg hb] at hx
    simp only [List.mem_cons, List.not_mem_nil, or_false] at hx
    rcases hx with hx | hx | hx
    · exact Or.inr (Or.inl hx)
    · exact Or.inr (Or.inr ⟨b.toNat / 16, by omega, hx⟩)
    · exact Or.inr (Or.inr ⟨b.toNat % 16, by omega, hx⟩)

theorem not_mem_encode {keep : UInt8 -> Bool} {x : UInt8} (hkeep : keep x = false)
    (hpercent : x ≠ percent) (hhex : forall n : Fin 16, x ≠ hexDigit n.val) (s : List UInt8) :
    x ∉ encode keep s := by
  intro hmem
  rcases mem_encode hmem with h | h | ⟨n, hn, h⟩
  · rw [hkeep] at h
    cases h
  · exact hpercent h
  · exact hhex ⟨n, hn⟩ h

theorem not_mem_encodeByte {keep : UInt8 -> Bool} {x b : UInt8} (hne : x ≠ b)
    (hpercent : x ≠ percent) (hhex : forall n : Fin 16, x ≠ hexDigit n.val) :
    x ∉ encodeByte keep b := by
  have hlt : b.toNat < 256 := b.toNat_lt
  have hhi : x ≠ hexDigit (b.toNat / 16) := hhex ⟨b.toNat / 16, by omega⟩
  have hlo : x ≠ hexDigit (b.toNat % 16) := hhex ⟨b.toNat % 16, by omega⟩
  unfold encodeByte
  split
  · simp only [List.mem_singleton, hne, not_false_eq_true]
  · simp only [List.mem_cons, hpercent, hhi, hlo, List.not_mem_nil, or_false, not_false_eq_true]

/-!
## Two alphabets
-/

section

variable {keep keep' : UInt8 -> Bool}

theorem encodeByte_append_inj (hkeep : keep percent = false) (hkeep' : keep' percent = false)
    {b : UInt8} {rest rest' : List UInt8}
    (h : encodeByte keep b ++ rest = encodeByte keep' b ++ rest') :
    keep b = keep' b ∧ rest = rest' := by
  unfold encodeByte at h
  cases hb : keep b with
  | true =>
      cases hb' : keep' b with
      | true =>
          rw [hb, hb'] at h
          exact ⟨rfl, (List.cons.inj h).right⟩
      | false =>
          rw [hb, hb'] at h
          have hpercent : b = percent := (List.cons.inj h).left
          rw [hpercent, hkeep] at hb
          cases hb
  | false =>
      cases hb' : keep' b with
      | true =>
          rw [hb, hb'] at h
          have hpercent : percent = b := (List.cons.inj h).left
          rw [← hpercent, hkeep'] at hb'
          cases hb'
      | false =>
          rw [hb, hb'] at h
          exact ⟨rfl, List.append_cancel_left h⟩

theorem encode_append_eq_iff (hkeep : keep percent = false) (hkeep' : keep' percent = false)
    {s rest rest' : List UInt8} :
    encode keep s ++ rest = encode keep' s ++ rest' <->
      (forall b, b ∈ s -> keep b = keep' b) ∧ rest = rest' := by
  induction s generalizing rest rest' with
  | nil =>
      constructor
      · intro h
        exact ⟨fun b hb => absurd hb List.not_mem_nil, h⟩
      · intro h
        exact h.right
  | cons b s ih =>
      rw [encode_cons, encode_cons, List.append_assoc, List.append_assoc]
      constructor
      · intro h
        rcases encodeByte_append_inj hkeep hkeep' h with ⟨hb, hrest⟩
        rcases ih.mp hrest with ⟨hs, hend⟩
        exact ⟨List.forall_mem_cons.mpr ⟨hb, hs⟩, hend⟩
      · intro h
        rcases List.forall_mem_cons.mp h.left with ⟨hb, hs⟩
        rw [ih.mpr ⟨hs, h.right⟩]
        unfold encodeByte
        rw [hb]

theorem encode_eq_self_iff {s : List UInt8} :
    encode keep s = s <-> forall b, b ∈ s -> keep b = true := by
  constructor
  · intro h b hb
    induction s with
    | nil => cases hb
    | cons c s ih =>
        rw [encode_cons] at h
        unfold encodeByte at h
        cases hc : keep c with
        | true =>
            rw [hc] at h
            rcases List.mem_cons.mp hb with heq | hrest
            · rw [heq]
              exact hc
            · exact ih (List.cons.inj h).right hrest
        | false =>
            rw [hc] at h
            -- the text would be longer than itself
            have hlen := congrArg List.length h
            have hle : s.length <= (encode keep s).length := length_le_encode keep s
            simp only [Bool.false_eq_true, if_false, List.length_append, List.length_cons,
              List.length_nil] at hlen
            omega
  · intro h
    induction s with
    | nil => rfl
    | cons c s ih =>
        rw [encode_cons, ih (fun b hb => h b (List.mem_cons_of_mem _ hb))]
        unfold encodeByte
        rw [h c List.mem_cons_self]
        rfl

end

/-!
## A plus sign for the space
-/

def encodePlus (keep : UInt8 -> Bool) (s : List UInt8) : List UInt8 :=
  s.flatMap (fun c => if c = 32 then [43] else encodeByte keep c)

def decodePlus (s : List UInt8) : Option (List UInt8) :=
  decode (s.map (fun c => if c = 43 then 32 else c))

section

variable {keep : UInt8 -> Bool}

theorem not_mem_encodeByte_of_not_kept {x : UInt8} (hkeep : keep x = false) (hpercent : x ≠ percent)
    (hhex : forall n : Fin 16, x ≠ hexDigit n.val) (b : UInt8) : x ∉ encodeByte keep b := by
  have hnone := not_mem_encode hkeep hpercent hhex [b]
  rw [encode_cons, List.mem_append, not_or] at hnone
  exact hnone.left

theorem not_mem_encodePlus {x : UInt8} (hkeep : keep x = false) (hplus : x ≠ 43)
    (hpercent : x ≠ percent) (hhex : forall n : Fin 16, x ≠ hexDigit n.val) (s : List UInt8) :
    x ∉ encodePlus keep s := by
  intro hmem
  rcases List.mem_flatMap.mp hmem with ⟨b, _, hb⟩
  by_cases hspace : b = 32
  · rw [if_pos hspace, List.mem_singleton] at hb
    exact hplus hb
  · rw [if_neg hspace] at hb
    exact not_mem_encodeByte_of_not_kept hkeep hpercent hhex b hb

theorem decodePlus_encodePlus (hpercent : keep percent = false) (hplus : keep 43 = false)
    (s : List UInt8) : decodePlus (encodePlus keep s) = some s := by
  unfold decodePlus encodePlus
  induction s with
  | nil => rfl
  | cons c s ih =>
      rw [List.flatMap_cons, List.map_append]
      by_cases hspace : c = 32
      · rw [if_pos hspace, hspace, List.map_singleton, if_pos rfl, List.singleton_append,
          decode_cons_of_ne (by decide), ih]
        rfl
      · have hsame : (encodeByte keep c).map (fun c => if c = 43 then 32 else c) =
            encodeByte keep c := by
          have hnone := not_mem_encodeByte_of_not_kept hplus (by decide) (by decide) c
          conv_rhs => rw [← List.map_id (encodeByte keep c)]
          apply List.map_congr_left
          intro x hx
          refine if_neg ?_
          intro heq
          exact hnone (heq ▸ hx)
        rw [if_neg hspace, hsame, decode_encodeByte_append hpercent, ih]
        rfl

end

end PercentCoding
end Foundation
end LodelineManager
