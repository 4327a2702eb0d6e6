import LodelineManager.Foundation.JsonTree
import LodelineManager.Foundation.Utf16
import LodelineManager.Go.Strings
import LodelineManager.Go.Time
import Mathlib.Data.List.AList
import Mathlib.Data.List.Sort

/-!
# encoding/json

Documents are JSON trees whose strings are kept as they were spelled, and the value of
a document forgets the spelling.  The decoder takes the members of an object for the
fields of a struct by name, first exactly and then without regard to case, and reads
into what the struct holds already.  The encoder escapes what HTML gives a meaning to.
-/

namespace LodelineManager
namespace Go
namespace JSON

open Foundation Utf16

/-!
## Strings
-/

def plain (c : Char) : Bool := decide (0x20 <= c.toNat ∧ c ≠ '"' ∧ c ≠ '\\')

/-- The spelling of a string: characters that stand for themselves, escape sequences with
the code unit that they mean, and bytes that are not UTF-8. -/
inductive StringPart where
  | char (c : Char) (h : plain c = true)
  | escape (u : UInt16)
  | invalid (b : UInt8) (h : 0x80 <= b)
  deriving DecidableEq

def StringPart.units : StringPart -> List StringUnit
  | char c _ => (encodeChar c).map StringUnit.code
  | escape u => [StringUnit.code u]
  | invalid b _ => [StringUnit.byte b]

abbrev Text := List StringPart

abbrev Document := Json Text

abbrev Value := Json (List StringUnit)

def units (t : Text) : List StringUnit := t.flatMap StringPart.units

def value (j : Document) : Value := j.map units

/-- {lit}`unquote`: what is no character becomes U+FFFD. -/
def unquote (t : Text) : List Char := decode (units t)

/-- Characters that {lit}`escapeHTML` does not let stand. -/
def htmlUnsafe (c : Char) : Bool :=
  decide (c ∈ ['<', '>', '&', Char.ofNat 0x2028, Char.ofNat 0x2029])

def escapePart : StringPart -> StringPart
  | .char c h => if htmlUnsafe c then .escape (UInt16.ofNat c.toNat) else .char c h
  | part => part

/-- A character as {lit}`appendString` writes it. -/
def quoteChar (c : Char) : StringPart :=
  if h : plain c = true then escapePart (.char c h) else .escape (UInt16.ofNat c.toNat)

def quote (s : List Char) : Text := s.map quoteChar

/-- {lit}`appendCompact` with HTML escaping. -/
def compact (j : Document) : Document := j.map (fun t => t.map escapePart)

theorem encodeChar_of_lt {c : Char} (h : c.toNat < 0x10000) :
    encodeChar c = [UInt16.ofNat c.toNat] := if_pos h

theorem lt_of_htmlUnsafe {c : Char} (h : htmlUnsafe c = true) : c.toNat < 0x10000 := by
  have hmem := of_decide_eq_true h
  simp only [List.mem_cons, List.not_mem_nil, or_false] at hmem
  rcases hmem with rfl | rfl | rfl | rfl | rfl <;> decide

theorem lt_of_not_plain {c : Char} (h : ¬ plain c = true) : c.toNat < 0x10000 := by
  by_cases hquote : c = '"' ∨ c = '\\'
  · rcases hquote with rfl | rfl <;> decide
  · have hsmall : c.toNat < 0x20 := by
      apply Nat.lt_of_not_le
      intro hle
      exact h (decide_eq_true ⟨hle, fun hc => hquote (Or.inl hc), fun hc => hquote (Or.inr hc)⟩)
    exact Nat.lt_trans hsmall (by decide)

theorem units_escapePart (part : StringPart) : (escapePart part).units = part.units := by
  cases part with
  | char c h =>
      show (if htmlUnsafe c then StringPart.escape _ else StringPart.char c h).units = _
      split
      · rename_i hunsafe
        show [StringUnit.code _] = (encodeChar c).map StringUnit.code
        rw [encodeChar_of_lt (lt_of_htmlUnsafe hunsafe)]
        rfl
      · rfl
  | escape u => rfl
  | invalid b h => rfl

theorem units_quoteChar (c : Char) :
    (quoteChar c).units = (encodeChar c).map StringUnit.code := by
  unfold quoteChar
  split
  · exact units_escapePart _
  · rename_i hplain
    show [StringUnit.code _] = _
    rw [encodeChar_of_lt (lt_of_not_plain hplain)]
    rfl

theorem units_quote (s : List Char) : units (quote s) = codes s := by
  unfold units quote codes
  rw [List.flatMap_map]
  apply List.flatMap_congr
  intro c _
  exact units_quoteChar c

theorem value_compact (j : Document) : value (compact j) = value j := by
  unfold value compact
  rw [Json.map_map]
  congr 1
  funext t
  show (t.map escapePart).flatMap StringPart.units = t.flatMap StringPart.units
  rw [List.flatMap_map]
  apply List.flatMap_congr
  intro part _
  exact units_escapePart part

/-!
## Members and fields
-/

def foldRune (c : Char) : Char :=
  if 'a'.toNat <= c.toNat ∧ c.toNat <= 'z'.toNat then Char.ofNat (c.toNat - 32)
  else if c = Char.ofNat 0x17F then 'S'
  else if c = Char.ofNat 0x212A then 'K'
  else c

/-- {lit}`foldName`, as far as names of ASCII letters can tell. -/
def foldName (name : List Char) : List Char := name.map foldRune

/-- The field of a struct that a member is for: {lit}`byExactName`, then
{lit}`byFoldedName`. -/
def fieldFor {record : Type} (fields : List (Field Text record)) (name : Text) :
    Option (Field Text record) :=
  match fields.find? (fun f => decide (f.name.toList = unquote name)) with
  | some f => some f
  | none => fields.find? (fun f => decide (foldName f.name.toList = foldName (unquote name)))

/-- Read a document into a struct; {lit}`null` changes nothing. -/
def decodeStruct {record : Type} (fields : List (Field Text record)) (j : Document)
    (r : record) : Option record :=
  match j with
  | .null => some r
  | .object members => readMembers (fieldFor fields) members r
  | _ => none

def takesName (name : String) (u : List StringUnit) : Bool :=
  decide (foldName (decode u) = foldName name.toList)

/-- No two names differ in case only. -/
def DistinctNames {record : Type} (fields : List (Field Text record)) : Prop :=
  (fields.map (fun f => foldName f.name.toList)).Nodup

theorem fieldFor_mem {record : Type} {fields : List (Field Text record)} {name : Text}
    {f : Field Text record} (h : fieldFor fields name = some f) :
    f ∈ fields ∧ takesName f.name (units name) = true := by
  unfold fieldFor at h
  split at h
  · rename_i g hg
    cases h
    have hfound := List.find?_some hg
    have hname := of_decide_eq_true hfound
    exact ⟨List.mem_of_find?_eq_some hg, decide_eq_true (congrArg foldName hname.symm)⟩
  · have hfound := List.find?_some h
    have hname := of_decide_eq_true hfound
    exact ⟨List.mem_of_find?_eq_some h, decide_eq_true hname.symm⟩

theorem exists_fieldFor {record : Type} {fields : List (Field Text record)} {name : Text}
    {f : Field Text record} (hf : f ∈ fields) (h : takesName f.name (units name) = true) :
    exists g, fieldFor fields name = some g := by
  have hfold : foldName f.name.toList = foldName (unquote name) := (of_decide_eq_true h).symm
  unfold fieldFor
  cases fields.find? (fun f => decide (f.name.toList = unquote name)) with
  | some g => exact ⟨g, rfl⟩
  | none =>
      exact Option.isSome_iff_exists.mp
        (List.find?_isSome.mpr ⟨f, hf, decide_eq_true hfold⟩)

theorem takesName_iff {record : Type} {fields : List (Field Text record)} {name : Text}
    {f g : Field Text record} (hnames : DistinctNames fields) (hg : g ∈ fields)
    (h : fieldFor fields name = some f) : takesName g.name (units name) = true <-> g = f := by
  rcases fieldFor_mem h with ⟨hf, htakes⟩
  constructor
  · intro hname
    have hfold : foldName g.name.toList = foldName f.name.toList :=
      (of_decide_eq_true hname).symm.trans (of_decide_eq_true htakes)
    exact List.inj_on_of_nodup_map hnames hg hf hfold
  · intro heq
    rw [heq]
    exact htakes

def fieldValues (name : String) (v : Value) : List Value := v.named (takesName name)

/-- One field of a struct and the component that it is read into. -/
structure Reads {record component : Type} (fields : List (Field Text record)) (name : String)
    (get : record -> component) (step : Document -> component -> Option component) : Prop where
  names : DistinctNames fields
  own : exists f, f ∈ fields ∧ f.name = name ∧
    forall v r r', f.read v r = some r' -> step v (get r) = some (get r')
  others : forall f, f ∈ fields -> f.name ≠ name ->
    forall v r r', f.read v r = some r' -> get r' = get r

theorem Reads.decodeStruct {record component : Type} {fields : List (Field Text record)}
    {name : String} {get : record -> component} {step : Document -> component -> Option component}
    (h : Reads fields name get step) {j : Document} {r r' : record}
    (hdecode : decodeStruct fields j r = some r') :
    readAll step (j.named (fun t => takesName name (units t))) (get r) = some (get r') := by
  rcases h.own with ⟨g, hg, hname, hstep⟩
  cases j with
  | null =>
      cases hdecode
      rfl
  | object members =>
      refine @readAll_of_readMembers _ _ _ _ (fun t => takesName name (units t)) get step
        ?_ ?_ ?_ _ _ _ hdecode
      · intro t ht
        exact exists_fieldFor hg (hname ▸ ht)
      · intro t f hf ht
        have heq := (takesName_iff h.names hg hf).mp (hname ▸ ht)
        exact heq ▸ hstep
      · intro t f hf ht
        apply h.others f (fieldFor_mem hf).left
        intro heq
        have htakes := (fieldFor_mem hf).right
        rw [heq, ht] at htakes
        cases htakes
  | _ => cases hdecode

def field {record component : Type} (name : String) (get : record -> component)
    (set : record -> component -> record)
    (read : Document -> component -> Option component) : Field Text record :=
  { name := name, read := fun v r => (read v (get r)).map (set r) }

theorem field_own {record component : Type} {name : String} {get : record -> component}
    {set : record -> component -> record} {read : Document -> component -> Option component}
    (hget : forall r c, get (set r c) = c) (v : Document) (r r' : record)
    (h : (field name get set read).read v r = some r') : read v (get r) = some (get r') := by
  rcases Option.map_eq_some_iff.mp h with ⟨c, hc, heq⟩
  rw [hc, ← heq, hget]

theorem field_other {record component component' : Type} {name : String}
    {get : record -> component} {get' : record -> component'}
    {set : record -> component -> record} {read : Document -> component -> Option component}
    (hget : forall r c, get' (set r c) = get' r) (v : Document) (r r' : record)
    (h : (field name get set read).read v r = some r') : get' r' = get' r := by
  rcases Option.map_eq_some_iff.mp h with ⟨c, _, heq⟩
  rw [← heq, hget]

theorem Reads.of_field {record component : Type} {fields : List (Field Text record)}
    {name : String} {get : record -> component} {set : record -> component -> record}
    {read : Document -> component -> Option component} (hnames : DistinctNames fields)
    (hmem : field name get set read ∈ fields) (hget : forall r c, get (set r c) = c)
    (hothers : forall f, f ∈ fields -> f.name = name ∨
      forall v r r', f.read v r = some r' -> get r' = get r) :
    Reads fields name get read where
  names := hnames
  own := ⟨field name get set read, hmem, rfl, field_own hget⟩
  others := fun f hf hne => (hothers f hf).resolve_left hne

end JSON
end Go
end LodelineManager
