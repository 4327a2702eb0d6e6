import LodelineManager.Go.JSON

/-!
# The text of a JSON document

Which bytes spell a document: any white space between its parts, any way to escape a
character, numbers as they are written.  The first byte tells {lit}`null` from all other
values.
-/

namespace LodelineManager
namespace Go
namespace JSON

open Foundation

def spelling (s : List Char) : List UInt8 := s.flatMap String.utf8EncodeChar

/-!
## Numbers
-/

def skipFraction : List Char -> Option (List Char)
  | '.' :: rest =>
      if (rest.takeWhile isDigit).isEmpty then none else some (rest.dropWhile isDigit)
  | s => some s

def skipSign : List Char -> List Char
  | '+' :: rest => rest
  | '-' :: rest => rest
  | s => s

def skipExponent : List Char -> Option (List Char)
  | [] => some []
  | e :: rest =>
      if e = 'e' ∨ e = 'E' then
        if ((skipSign rest).takeWhile isDigit).isEmpty then none
        else some ((skipSign rest).dropWhile isDigit)
      else some (e :: rest)

def isUnsigned (s : List Char) : Bool :=
  match s.takeWhile isDigit with
  | [] => false
  | '0' :: _ :: _ => false
  | _ => decide ((skipFraction (s.dropWhile isDigit)).bind skipExponent = some [])

/-- {lit}`isValidNumber`. -/
def isValidNumber (s : List Char) : Bool :=
  match s with
  | '-' :: rest => isUnsigned rest
  | _ => isUnsigned s

example : ["0", "-12.50", "3e+8"].all (fun s => isValidNumber s.toList) = true := by decide
example : ["", "-", "01", "1.", "null"].any (fun s => isValidNumber s.toList) = false := by decide

theorem isUnsigned_head {s : List Char} (h : isUnsigned s = true) :
    exists c rest, s = c :: rest ∧ isDigit c = true := by
  cases s with
  | nil => cases h
  | cons c rest =>
      refine ⟨c, rest, rfl, ?_⟩
      cases hc : isDigit c with
      | true => rfl
      | false =>
          unfold isUnsigned at h
          rw [List.takeWhile_cons_of_neg (ne_true_of_eq_false hc)] at h
          cases h

theorem isValidNumber_head {s : List Char} (h : isValidNumber s = true) :
    exists c rest, s = c :: rest ∧ (c = '-' ∨ isDigit c = true) := by
  unfold isValidNumber at h
  split at h
  · exact ⟨_, _, rfl, Or.inl rfl⟩
  · rcases isUnsigned_head h with ⟨c, rest, hs, hc⟩
    exact ⟨c, rest, hs, Or.inr hc⟩

/-!
## Strings
-/

def shortEscapes : List (UInt8 × UInt16) :=
  [(0x22, 0x22), (0x5C, 0x5C), (0x2F, 0x2F), (0x62, 0x08), (0x66, 0x0C), (0x6E, 0x0A),
    (0x72, 0x0D), (0x74, 0x09)]

def hexValue (b : UInt8) : Option UInt16 :=
  if 0x30 <= b ∧ b <= 0x39 then some (b.toUInt16 - 0x30)
  else if 0x61 <= b ∧ b <= 0x66 then some (b.toUInt16 - 0x61 + 10)
  else if 0x41 <= b ∧ b <= 0x46 then some (b.toUInt16 - 0x41 + 10)
  else none

inductive SpellsPart : List UInt8 -> StringPart -> Prop where
  | char (c : Char) (h : plain c = true) : SpellsPart (String.utf8EncodeChar c) (.char c h)
  | invalid (b : UInt8) (h : 0x80 <= b) : SpellsPart [b] (.invalid b h)
  | short {letter : UInt8} {u : UInt16} :
      (letter, u) ∈ shortEscapes -> SpellsPart [0x5C, letter] (.escape u)
  | hex {b1 b2 b3 b4 : UInt8} {u1 u2 u3 u4 : UInt16} :
      hexValue b1 = some u1 -> hexValue b2 = some u2 -> hexValue b3 = some u3 ->
      hexValue b4 = some u4 ->
      SpellsPart [0x5C, 0x75, b1, b2, b3, b4] (.escape (((u1 * 16 + u2) * 16 + u3) * 16 + u4))

inductive SpellsText : List UInt8 -> Text -> Prop where
  | nil : SpellsText [] []
  | cons {bytes rest : List UInt8} {part : StringPart} {t : Text} :
      SpellsPart bytes part -> SpellsText rest t -> SpellsText (bytes ++ rest) (part :: t)

/-!
## Values
-/

def Spaces (bytes : List UInt8) : Prop :=
  forall b, b ∈ bytes -> b ∈ [0x20, 0x09, 0x0A, (0x0D : UInt8)]

mutual

/-- The bytes spell the document, without white space around it. -/
inductive Spells : List UInt8 -> Document -> Prop where
  | null : Spells (spelling "null".toList) .null
  | bool (b : Bool) : Spells (spelling (if b then "true" else "false").toList) (.bool b)
  | number {literal : String} : isValidNumber literal.toList = true ->
      Spells (spelling literal.toList) (.number literal)
  | string {bytes : List UInt8} {t : Text} : SpellsText bytes t ->
      Spells (0x22 :: bytes ++ [0x22]) (.string t)
  | emptyArray {ws : List UInt8} : Spaces ws -> Spells (0x5B :: ws ++ [0x5D]) (.array [])
  | array {bytes : List UInt8} {items : List Document} : SpellsItems bytes items ->
      Spells (0x5B :: bytes ++ [0x5D]) (.array items)
  | emptyObject {ws : List UInt8} : Spaces ws -> Spells (0x7B :: ws ++ [0x7D]) (.object [])
  | object {bytes : List UInt8} {members : List (Text × Document)} :
      SpellsMembers bytes members -> Spells (0x7B :: bytes ++ [0x7D]) (.object members)

inductive SpellsItems : List UInt8 -> List Document -> Prop where
  | last {front bytes back : List UInt8} {v : Document} :
      Spaces front -> Spells bytes v -> Spaces back -> SpellsItems (front ++ bytes ++ back) [v]
  | more {front bytes back rest : List UInt8} {v : Document} {items : List Document} :
      Spaces front -> Spells bytes v -> Spaces back -> SpellsItems rest items ->
      SpellsItems (front ++ bytes ++ back ++ 0x2C :: rest) (v :: items)

inductive SpellsMembers : List UInt8 -> List (Text × Document) -> Prop where
  | last {front name middle after bytes back : List UInt8} {t : Text} {v : Document} :
      Spaces front -> SpellsText name t -> Spaces middle -> Spaces after -> Spells bytes v ->
      Spaces back ->
      SpellsMembers (front ++ 0x22 :: name ++ 0x22 :: middle ++ 0x3A :: after ++ bytes ++ back)
        [(t, v)]
  | more {front name middle after bytes back rest : List UInt8} {t : Text} {v : Document}
      {members : List (Text × Document)} :
      Spaces front -> SpellsText name t -> Spaces middle -> Spaces after -> Spells bytes v ->
      Spaces back -> SpellsMembers rest members ->
      SpellsMembers (front ++ 0x22 :: name ++ 0x22 :: middle ++ 0x3A :: after ++ bytes ++ back ++
        0x2C :: rest) ((t, v) :: members)

end

theorem spelling_number {s : List Char} (h : isValidNumber s = true) :
    exists first rest, spelling s = first :: rest ∧ first ≠ 0x6E := by
  rcases isValidNumber_head h with ⟨c, rest, hs, hc⟩
  have hsmall : c.toNat <= 0x39 := by
    rcases hc with hminus | hdigit
    · rw [hminus]
      decide
    · exact of_decide_eq_true ((Bool.and_eq_true _ _).mp hdigit).right
  have hencode : String.utf8EncodeChar c = [UInt8.ofNat c.toNat] := by
    unfold String.utf8EncodeChar
    exact if_pos (Nat.le_trans hsmall (by decide))
  refine ⟨UInt8.ofNat c.toNat, spelling rest, ?_, ?_⟩
  · rw [hs]
    show String.utf8EncodeChar c ++ spelling rest = _
    rw [hencode]
    rfl
  · intro heq
    have hnat := congrArg UInt8.toNat heq
    rw [UInt8.toNat_ofNat'] at hnat
    have hvalue : (0x6E : UInt8).toNat = 110 := rfl
    omega

theorem Spells.head {bytes : List UInt8} {v : Document} (h : Spells bytes v) :
    exists first rest, bytes = first :: rest ∧ (first = 0x6E <-> v.isNull = true) := by
  have hother : forall {first : UInt8} {rest : List UInt8} {w : Document}, first ≠ 0x6E ->
      w.isNull = false -> exists first' rest', first :: rest = first' :: rest' ∧
        (first' = 0x6E <-> w.isNull = true) := by
    intro first rest w hfirst hw
    refine ⟨first, rest, rfl, ?_⟩
    rw [hw]
    exact ⟨fun heq => absurd heq hfirst, fun heq => by cases heq⟩
  cases h with
  | null => exact ⟨_, _, rfl, fun _ => rfl, fun _ => rfl⟩
  | bool b =>
      cases b with
      | true => exact hother (by decide) rfl
      | false => exact hother (by decide) rfl
  | number hvalid =>
      rcases spelling_number hvalid with ⟨first, rest, hbytes, hfirst⟩
      rw [hbytes]
      exact hother hfirst rfl
  | string ht => exact hother (by decide) rfl
  | emptyArray hws => exact hother (by decide) rfl
  | array hitems => exact hother (by decide) rfl
  | emptyObject hws => exact hother (by decide) rfl
  | object hmembers => exact hother (by decide) rfl

theorem Spells.isNull_eq {bytes : List UInt8} {v w : Document} (h : Spells bytes v)
    (h' : Spells bytes w) : v.isNull = w.isNull := by
  rcases h.head with ⟨first, rest, hbytes, hv⟩
  rcases h'.head with ⟨first', rest', hbytes', hw⟩
  rw [hbytes] at hbytes'
  injection hbytes' with hfirst _
  rw [<- hfirst] at hw
  exact Bool.eq_iff_iff.mpr (hv.symm.trans hw)

end JSON
end Go
end LodelineManager
