import LodelineManager.Foundation.TextReaders
import LodelineManager.Go.Ascii
import Mathlib.Tactic.Ring

/-!
# Quoted texts

{lit}`strconv.Quote` writes any bytes between double quotes.  Bytes that are no UTF-8 and
characters that are not printed are escaped, so the quoted text keeps to one line and gives
the bytes back.
-/

namespace LodelineManager
namespace Go

open Foundation TextReaders

/-- What a string is decoded to: a character, or a byte that begins none. -/
inductive Rune where
  | valid (c : Char)
  | invalid (b : UInt8)

/-- {lit}`utf8.DecodeRuneInString`, without the width. -/
def decodeRune (s : ByteString) : Option Char := s.toByteArray.utf8DecodeChar? 0

def runesWithin : Nat -> ByteString -> List Rune
  | _, [] => []
  | 0, _ => []
  | n + 1, b :: rest =>
      match decodeRune (b :: rest) with
      | some c => .valid c :: runesWithin n ((b :: rest).drop (String.utf8EncodeChar c).length)
      | none => .invalid b :: runesWithin n rest

def runes (s : ByteString) : List Rune := runesWithin s.length s

def lowerHex (n : Nat) : UInt8 := UInt8.ofNat (if n < 10 then 48 + n else 87 + n)

def hexDigits : Nat -> Nat -> ByteString
  | 0, _ => []
  | width + 1, n => lowerHex (n / 16 ^ width % 16) :: hexDigits width n

/-- {lit}`strconv.IsPrint`: Latin-1 by ranges, and everything above by the table of the
library. -/
def isPrint (table : Char -> Bool) (c : Char) : Bool :=
  if c.toNat <= 0xFF then
    if 0x20 <= c.toNat ∧ c.toNat < 0x7F then true
    else if 0xA1 <= c.toNat ∧ c.toNat <= 0xFF then decide (c.toNat ≠ 0xAD)
    else false
  else table c

def escapeLetters : List (Nat × UInt8) :=
  [(7, 97), (8, 98), (12, 102), (10, 110), (13, 114), (9, 116), (11, 118)]

def backslash : UInt8 := 92

def doubleQuote : UInt8 := 34

/-- {lit}`appendEscapedRune`, and the escape of a byte that begins no character. -/
def quoteRune (table : Char -> Bool) : Rune -> ByteString
  | .invalid b => backslash :: 120 :: hexDigits 2 b.toNat
  | .valid c =>
      if c = '"' ∨ c = '\\' then [backslash, UInt8.ofNat c.toNat]
      else if isPrint table c then String.utf8EncodeChar c
      else
        match escapeLetters.find? (fun p => decide (p.1 = c.toNat)) with
        | some p => [backslash, p.2]
        | none =>
            if c.toNat < 0x20 ∨ c.toNat = 0x7F then backslash :: 120 :: hexDigits 2 c.toNat
            else if c.toNat < 0x10000 then backslash :: 117 :: hexDigits 4 c.toNat
            else backslash :: 85 :: hexDigits 8 c.toNat

/-- {lit}`strconv.AppendQuote` to an empty buffer. -/
def appendQuote (table : Char -> Bool) (s : ByteString) : ByteString :=
  doubleQuote :: ((runes s).flatMap (quoteRune table) ++ [doubleQuote])

example : appendQuote (fun _ => true) [97, 34, 10, 195, 169, 195] =
    bytesOf "\"a\\\"\\n" ++ [195, 169] ++ bytesOf "\\xc3\"" := by decide +kernel

/-!
## Reading a quoted text
-/

def readHex : Nat -> Nat -> Reader UInt8 Nat
  | 0, acc, s => some (acc, s)
  | _ + 1, _, [] => none
  | width + 1, acc, b :: rest =>
      (PercentCoding.hexValue b).bind (fun v => readHex width (16 * acc + v) rest)

/-- What follows a backslash, as bytes. -/
def readEscape : Reader UInt8 ByteString
  | [] => none
  | b :: rest =>
      if b = 120 then (readHex 2 0).map (fun n => [UInt8.ofNat n]) rest
      else if b = 117 then
        (readHex 4 0).map (fun n => String.utf8EncodeChar (Char.ofNat n)) rest
      else if b = 85 then
        (readHex 8 0).map (fun n => String.utf8EncodeChar (Char.ofNat n)) rest
      else if b = doubleQuote ∨ b = backslash then some ([b], rest)
      else (escapeLetters.find? (fun p => decide (p.2 = b))).map
        (fun p => ([UInt8.ofNat p.1], rest))

def readUnit : Reader UInt8 ByteString
  | [] => none
  | b :: rest =>
      if b = backslash then readEscape rest
      else (decodeRune (b :: rest)).map
        (fun c => (String.utf8EncodeChar c, (b :: rest).drop (String.utf8EncodeChar c).length))

def readQuoted : Reader UInt8 ByteString :=
  (fixed [doubleQuote]).bind
    (fun _ => (unitsBefore doubleQuote readUnit).map List.flatten)

/-!
## Characters in a string
-/

def Rune.bytes : Rune -> ByteString
  | .valid c => String.utf8EncodeChar c
  | .invalid b => [b]

theorem decodeRune_encode (c : Char) (rest : ByteString) :
    decodeRune (String.utf8EncodeChar c ++ rest) = some c := by
  unfold decodeRune
  rw [List.toByteArray_append]
  exact ByteArray.utf8DecodeChar?_utf8EncodeChar_append

theorem encode_of_decodeRune {s : ByteString} {c : Char} (h : decodeRune s = some c) :
    exists rest, s = String.utf8EncodeChar c ++ rest := by
  rcases ByteArray.exists_of_utf8DecodeChar?_eq_some h with ⟨rest, hrest⟩
  refine ⟨rest.data.toList, ?_⟩
  have heq := congrArg (fun b => b.data.toList) hrest
  simpa using heq

theorem flatMap_runes (s : ByteString) : (runes s).flatMap Rune.bytes = s := by
  have hwithin : forall n s, s.length <= n -> (runesWithin n s).flatMap Rune.bytes = s := by
    intro n
    induction n with
    | zero =>
        intro s hs
        rw [List.eq_nil_of_length_eq_zero (Nat.le_zero.mp hs)]
        rfl
    | succ n ih =>
        intro s hs
        cases s with
        | nil => rfl
        | cons b rest =>
            cases hdecode : decodeRune (b :: rest) with
            | none =>
                simp only [runesWithin, hdecode, List.flatMap_cons]
                rw [ih rest (Nat.le_of_succ_le_succ hs)]
                rfl
            | some c =>
                simp only [runesWithin, hdecode, List.flatMap_cons]
                rcases encode_of_decodeRune hdecode with ⟨tail, htail⟩
                have hpos := List.length_pos_iff.mpr (String.utf8EncodeChar_ne_nil (c := c))
                have hlen := congrArg List.length htail
                rw [List.length_append] at hlen
                rw [htail, List.drop_left, ih tail (by omega)]
                rfl
  exact hwithin s.length s (Nat.le_refl _)

theorem ascii_of_mem_encode {c : Char} {b : UInt8} (hb : b ∈ String.utf8EncodeChar c)
    (h : b.toNat < 128) : c.toNat < 128 ∧ b = UInt8.ofNat c.toNat := by
  have hlarge : forall m base k, k <= 64 -> 128 <= base -> base + k <= 256 -> 0 < k ->
      ¬ (UInt8.ofNat (m % k + base)).toNat < 128 := by
    intro m base k _ hbase hsum hk hlt
    have hmod := Nat.mod_lt m hk
    rw [UInt8.toNat_ofNat_of_lt' (show m % k + base < 256 by omega)] at hlt
    omega
  by_cases hc : c.toNat < 128
  · rw [utf8EncodeChar_ascii hc] at hb
    exact ⟨hc, List.mem_singleton.mp hb⟩
  · exfalso
    have hsmall : ¬ c.val.toNat <= 0x7F := fun hle => hc (Nat.lt_succ_of_le hle)
    unfold String.utf8EncodeChar at hb
    simp only [if_neg hsmall] at hb
    split_ifs at hb
    · simp only [List.mem_cons, List.not_mem_nil, or_false] at hb
      rcases hb with hb | hb
      all_goals exact hlarge _ _ _ (by decide) (by decide) (by decide) (by decide) (hb ▸ h)
    · simp only [List.mem_cons, List.not_mem_nil, or_false] at hb
      rcases hb with hb | hb | hb
      all_goals exact hlarge _ _ _ (by decide) (by decide) (by decide) (by decide) (hb ▸ h)
    · simp only [List.mem_cons, List.not_mem_nil, or_false] at hb
      rcases hb with hb | hb | hb | hb
      all_goals exact hlarge _ _ _ (by decide) (by decide) (by decide) (by decide) (hb ▸ h)

theorem eq_of_ascii_mem {c d : Char} (hd : d.toNat < 128)
    (h : UInt8.ofNat d.toNat ∈ String.utf8EncodeChar c) : c = d := by
  have hd' : (UInt8.ofNat d.toNat).toNat = d.toNat :=
    UInt8.toNat_ofNat_of_lt' (Nat.lt_trans hd (by decide))
  rcases ascii_of_mem_encode h (hd'.symm ▸ hd) with ⟨hlt, hbyte⟩
  have hnat := congrArg UInt8.toNat hbyte
  rw [hd', UInt8.toNat_ofNat_of_lt' (Nat.lt_trans hlt (by decide))] at hnat
  exact Char.toNat_inj.mp hnat.symm

/-!
## Escapes
-/

theorem hexValue_lowerHex {n : Nat} (h : n < 16) :
    PercentCoding.hexValue (lowerHex n) = some n := by
  have hall : forall n : Fin 16, PercentCoding.hexValue (lowerHex n.val) = some n.val := by decide
  exact hall ⟨n, h⟩

theorem readsAs_hexDigits (width n acc : Nat) :
    ReadsAs (readHex width acc) (hexDigits width n) (acc * 16 ^ width + n % 16 ^ width) := by
  induction width generalizing acc with
  | zero =>
      intro rest
      show some (acc, rest) = some (acc * 16 ^ 0 + n % 16 ^ 0, rest)
      rw [Nat.pow_zero, Nat.mul_one, Nat.mod_one, Nat.add_zero]
  | succ width ih =>
      intro rest
      have hdigit : n / 16 ^ width % 16 < 16 := Nat.mod_lt _ (by decide)
      have hsum : (16 * acc + n / 16 ^ width % 16) * 16 ^ width + n % 16 ^ width =
          acc * 16 ^ (width + 1) + n % 16 ^ (width + 1) := by
        rw [Nat.mod_pow_succ, Nat.pow_succ]
        ring
      show (PercentCoding.hexValue (lowerHex (n / 16 ^ width % 16))).bind
        (fun v => readHex width (16 * acc + v) (hexDigits width n ++ rest)) = _
      rw [hexValue_lowerHex hdigit, Option.bind_some, ih, hsum]

theorem readsAs_hex {width n : Nat} (h : n < 16 ^ width) :
    ReadsAs (readHex width 0) (hexDigits width n) n := by
  have hread := readsAs_hexDigits width n 0
  rw [Nat.zero_mul, Nat.zero_add, Nat.mod_eq_of_lt h] at hread
  exact hread

theorem readUnit_cons (b : UInt8) (rest : ByteString) : readUnit (b :: rest) =
    if b = backslash then readEscape rest
    else (decodeRune (b :: rest)).map
      (fun c => (String.utf8EncodeChar c, (b :: rest).drop (String.utf8EncodeChar c).length)) := rfl

theorem readsAs_escape {text bytes : ByteString} (h : ReadsAs readEscape text bytes) :
    ReadsAs readUnit (backslash :: text) bytes := by
  intro rest
  rw [List.cons_append, readUnit_cons, if_pos rfl, h]

theorem readsAs_encode {c : Char} (h : c ≠ '\\') :
    ReadsAs readUnit (String.utf8EncodeChar c) (String.utf8EncodeChar c) := by
  intro rest
  rcases List.exists_cons_of_ne_nil (String.utf8EncodeChar_ne_nil (c := c)) with ⟨b, tail, heq⟩
  have hb : b ≠ backslash := by
    intro hb
    have hmem : UInt8.ofNat '\\'.toNat ∈ String.utf8EncodeChar c :=
      heq ▸ hb ▸ List.mem_cons_self
    exact h (eq_of_ascii_mem (by decide) hmem)
  have hdecode := decodeRune_encode c rest
  rw [heq, List.cons_append] at hdecode ⊢
  rw [readUnit_cons, if_neg hb, hdecode, Option.map_some, heq, ← List.cons_append, List.drop_left]

theorem readsAs_escapeLetter {p : Nat × UInt8} (hp : p ∈ escapeLetters) :
    ReadsAs readEscape [p.2] [UInt8.ofNat p.1] := by
  have hall : forall q, q ∈ escapeLetters -> q.2 ≠ 120 ∧ q.2 ≠ 117 ∧ q.2 ≠ 85 ∧
      ¬ (q.2 = doubleQuote ∨ q.2 = backslash) ∧
      escapeLetters.find? (fun r => decide (r.2 = q.2)) = some q := by decide
  rcases hall p hp with ⟨hx, hu, hU, hsame, hfind⟩
  intro rest
  show readEscape (p.2 :: rest) = _
  simp only [readEscape, if_neg hx, if_neg hu, if_neg hU, if_neg hsame, hfind, Option.map_some]

theorem readsAs_quoteRune (table : Char -> Bool) (r : Rune) :
    ReadsAs readUnit (quoteRune table r) r.bytes := by
  cases r with
  | invalid b =>
      have hread := (readsAs_hex (show b.toNat < 16 ^ 2 from b.toNat_lt)).map
        (fun n => [UInt8.ofNat n])
      rw [UInt8.ofNat_toNat] at hread
      exact readsAs_escape hread
  | valid c =>
      show ReadsAs readUnit (quoteRune table (.valid c)) (String.utf8EncodeChar c)
      by_cases hsame : c = '"' ∨ c = '\\'
      · simp only [quoteRune, if_pos hsame]
        rcases hsame with hc | hc
        · rw [hc]
          exact readsAs_escape (fun _ => rfl)
        · rw [hc]
          exact readsAs_escape (fun _ => rfl)
      · simp only [quoteRune, if_neg hsame]
        split
        · exact readsAs_encode (fun hc => hsame (Or.inr hc))
        · cases hfind : escapeLetters.find? (fun p => decide (p.1 = c.toNat)) with
          | some p =>
              have hmem := List.mem_of_find?_eq_some hfind
              have hcode : p.1 = c.toNat := by simpa using List.find?_some hfind
              have hsmall : forall q, q ∈ escapeLetters -> q.1 < 128 := by decide
              rw [utf8EncodeChar_ascii (hcode ▸ hsmall p hmem), ← hcode]
              exact readsAs_escape (readsAs_escapeLetter hmem)
          | none =>
              simp only
              split_ifs with hcontrol hshort
              · have hlt : c.toNat < 128 := by omega
                have hread := (readsAs_hex (show c.toNat < 16 ^ 2 by omega)).map
                  (fun n => [UInt8.ofNat n])
                rw [utf8EncodeChar_ascii hlt]
                exact readsAs_escape hread
              · have hread := (readsAs_hex (show c.toNat < 16 ^ 4 from hshort)).map
                  (fun n => String.utf8EncodeChar (Char.ofNat n))
                rw [Char.ofNat_toNat] at hread
                exact readsAs_escape hread
              · have hlt : c.toNat < 16 ^ 8 := Nat.lt_of_lt_of_eq c.val.toNat_lt (by decide)
                have hread := (readsAs_hex hlt).map
                  (fun n => String.utf8EncodeChar (Char.ofNat n))
                rw [Char.ofNat_toNat] at hread
                exact readsAs_escape hread

/-!
## Visible bytes
-/

def visible (b : UInt8) : Bool := decide (0x20 <= b.toNat) && decide (b.toNat ≠ 0x7F)

theorem visible_hexDigits (width n : Nat) : (hexDigits width n).all visible = true := by
  induction width with
  | zero => rfl
  | succ width ih =>
      have hall : forall d : Fin 16, visible (lowerHex d.val) = true := by decide
      have hhead := hall ⟨n / 16 ^ width % 16, Nat.mod_lt _ (by decide)⟩
      exact (Bool.and_eq_true _ _).mpr ⟨hhead, ih⟩

theorem visible_encode {table : Char -> Bool} {c : Char} (h : isPrint table c = true)
    {b : UInt8} (hb : b ∈ String.utf8EncodeChar c) : visible b = true := by
  unfold visible
  rw [Bool.and_eq_true, decide_eq_true_eq, decide_eq_true_eq]
  by_cases hlt : b.toNat < 128
  · rcases ascii_of_mem_encode hb hlt with ⟨hc, hbyte⟩
    have hnat := congrArg UInt8.toNat hbyte
    rw [UInt8.toNat_ofNat_of_lt' (Nat.lt_trans hc (by decide))] at hnat
    rw [hnat]
    unfold isPrint at h
    rw [if_pos (Nat.le_trans (Nat.le_of_lt hc) (by decide))] at h
    split_ifs at h with hrange
    · omega
    · omega
  · omega

theorem quoteRune_visible (table : Char -> Bool) (r : Rune) :
    exists b tail, quoteRune table r = b :: tail ∧ b ≠ doubleQuote ∧
      (b :: tail).all visible = true := by
  have hescape : forall b : UInt8, visible b = true -> forall width n,
      exists c tail, backslash :: b :: hexDigits width n = c :: tail ∧ c ≠ doubleQuote ∧
        (c :: tail).all visible = true := by
    intro b hb width n
    refine ⟨backslash, b :: hexDigits width n, rfl, by decide, ?_⟩
    rw [List.all_cons, List.all_cons, hb, visible_hexDigits]
    rfl
  cases r with
  | invalid b => exact hescape 120 (by decide) 2 b.toNat
  | valid c =>
      by_cases hsame : c = '"' ∨ c = '\\'
      · simp only [quoteRune, if_pos hsame]
        rcases hsame with hc | hc
        · rw [hc]
          exact hescape _ (by decide) 0 0
        · rw [hc]
          exact hescape _ (by decide) 0 0
      · simp only [quoteRune, if_neg hsame]
        split
        · rename_i hprint
          have hall := List.all_eq_true.mpr (fun b hb => visible_encode hprint hb)
          rcases List.exists_cons_of_ne_nil (String.utf8EncodeChar_ne_nil (c := c)) with
            ⟨b, tail, heq⟩
          refine ⟨b, tail, heq, ?_, heq ▸ hall⟩
          intro hb
          have hmem : UInt8.ofNat '"'.toNat ∈ String.utf8EncodeChar c :=
            heq ▸ hb ▸ List.mem_cons_self
          exact hsame (Or.inl (eq_of_ascii_mem (by decide) hmem))
        · split
          · rename_i p hfind
            have hletters : forall q, q ∈ escapeLetters -> visible q.2 = true := by decide
            exact hescape p.2 (hletters p (List.mem_of_find?_eq_some hfind)) 0 0
          · split_ifs
            · exact hescape 120 (by decide) 2 c.toNat
            · exact hescape 117 (by decide) 4 c.toNat
            · exact hescape 85 (by decide) 8 c.toNat

theorem readsAs_appendQuote (table : Char -> Bool) (s : ByteString) :
    ReadsAs readQuoted (appendQuote table s) s := by
  have hunits : ReadsAs (unitsBefore doubleQuote readUnit)
      ((runes s).flatMap (quoteRune table) ++ [doubleQuote]) ((runes s).map Rune.bytes) := by
    apply readsAs_unitsBefore
    · intro r _
      exact readsAs_quoteRune table r
    · intro r _
      rcases quoteRune_visible table r with ⟨b, tail, heq, hne, _⟩
      exact ⟨b, tail, heq, hne⟩
  have hflat := hunits.map List.flatten
  rw [← List.flatMap_def, flatMap_runes] at hflat
  show ReadsAs readQuoted
    ([doubleQuote] ++ ((runes s).flatMap (quoteRune table) ++ [doubleQuote])) s
  exact (readsAs_fixed [doubleQuote]).bind hflat

theorem visible_appendQuote (table : Char -> Bool) (s : ByteString) :
    (appendQuote table s).all visible = true := by
  have hunits : ((runes s).flatMap (quoteRune table)).all visible = true := by
    rw [List.all_eq_true]
    intro b hb
    rcases List.mem_flatMap.mp hb with ⟨r, _, hr⟩
    rcases quoteRune_visible table r with ⟨c, tail, heq, _, hall⟩
    exact List.all_eq_true.mp hall b (heq ▸ hr)
  unfold appendQuote
  rw [List.all_cons, List.all_append, hunits]
  rfl

end Go
end LodelineManager
