import LodelineManager.Go.URL
import Mathlib.Data.String.Basic

/-!
# ASCII texts

A text of ASCII characters has one byte for each character, and its bytes compare as the
text does.
-/

namespace LodelineManager
namespace Go

/-- The text has one byte for each character. -/
def Ascii (s : String) : Prop := forall c, c ∈ s.toList -> c.toNat < 128

theorem ascii_of_all {s : String} (h : s.toList.all (fun c => decide (c.toNat < 128)) = true) :
    Ascii s := by
  intro c hc
  exact of_decide_eq_true (List.all_eq_true.mp h c hc)

theorem utf8EncodeChar_ascii {c : Char} (h : c.toNat < 128) :
    String.utf8EncodeChar c = [UInt8.ofNat c.toNat] := by
  have hle : c.val <= 127 := UInt32.le_iff_toNat_le.mpr (Nat.le_of_lt_succ h)
  rw [String.utf8EncodeChar_eq_singleton (Char.utf8Size_eq_one_iff.mpr hle)]
  rfl

theorem utf8_eq_flatMap (s : String) : utf8 s = s.toList.flatMap String.utf8EncodeChar := by
  unfold utf8
  rw [← String.utf8Encode_toList]
  unfold List.utf8Encode
  simp

theorem utf8_ascii {s : String} (h : Ascii s) : utf8 s = bytesOf s := by
  rw [utf8_eq_flatMap]
  unfold bytesOf
  unfold Ascii at h
  generalize s.toList = chars at h
  induction chars with
  | nil => rfl
  | cons c rest ih =>
      rw [List.flatMap_cons, utf8EncodeChar_ascii (h c List.mem_cons_self),
        ih (fun d hd => h d (List.mem_cons_of_mem c hd))]
      rfl

theorem utf8_length {s : String} (h : Ascii s) : (utf8 s).length = s.toList.length := by
  rw [utf8_ascii h]
  exact List.length_map _

theorem ofNat_toNat_lt {c d : Char} (hd : d.toNat < 128) (h : c < d) :
    UInt8.ofNat c.toNat < UInt8.ofNat d.toNat := by
  have hlt : c.toNat < d.toNat := h
  have hsize : d.toNat < UInt8.size := Nat.lt_trans hd (by decide)
  rw [UInt8.lt_iff_toNat_lt, UInt8.toNat_ofNat_of_lt' hsize,
    UInt8.toNat_ofNat_of_lt' (Nat.lt_trans hlt hsize)]
  exact hlt

theorem utf8_lt {s t : String} (hs : Ascii s) (ht : Ascii t) (h : s < t) : utf8 s < utf8 t := by
  rw [utf8_ascii hs, utf8_ascii ht]
  rw [String.lt_iff_toList_lt] at h
  unfold bytesOf
  unfold Ascii at hs ht
  generalize s.toList = left at h hs
  generalize t.toList = right at h ht
  induction h with
  | nil => exact List.Lex.nil
  | @rel a as b bs hlt => exact List.Lex.rel (ofNat_toNat_lt (ht b List.mem_cons_self) hlt)
  | @cons a as bs _ ih =>
      exact List.Lex.cons (ih (fun c hc => hs c (List.mem_cons_of_mem a hc))
        (fun c hc => ht c (List.mem_cons_of_mem a hc)))

end Go
end LodelineManager
