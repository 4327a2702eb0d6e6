import LodelineManager.Go.Numbers
import LodelineManager.Go.ZonedTime
import Mathlib.Data.List.DropRight

/-!
# Members that are read one over another

An object may name a field more than once, and a struct, a pointer or a list that is there
already is read into again.  What is left behind in the end, in terms of the values of all
the members for a field.
-/

namespace LodelineManager
namespace Go
namespace JSON

open Foundation Utf16

/-!
## What values leave behind
-/

def lastText (vs : List Value) : String := ((lastOf Json.isNull vs).bind asText).getD ""

def asInt : Value -> Option Int
  | .number literal => atoi (bytesOf literal)
  | _ => none

def lastInt (vs : List Value) : Int := ((lastOf Json.isNull vs).bind asInt).getD 0

def asZoned : Value -> Option ZonedTime
  | .string u => parseZoned (decode u)
  | _ => none

def lastTime (vs : List Value) : ZonedTime :=
  ((lastOf Json.isNull vs).bind asZoned).getD ZonedTime.zero

/-- Texts read over those that a list held before; {lit}`null` leaves a text as it was. -/
def readTexts : List Value -> List String -> List String × List String
  | [], old => ([], old)
  | v :: rest, old =>
      (((asText v).getD (old.headD "")) :: (readTexts rest old.tail).1, (readTexts rest old.tail).2)

def overTexts (s : Slice String) : Value -> Slice String
  | .array [] => { items := some [], spare := [] }
  | .array vs =>
      { items := some (readTexts vs (s.toList ++ s.spare)).1
        spare := (readTexts vs (s.toList ++ s.spare)).2 }
  | _ => Slice.nil

def textsOf (vs : List Value) : Option (List String) := (vs.foldl overTexts Slice.nil).items

def membersOf (name : String) (vs : List Value) : List Value := vs.flatMap (fieldValues name)

/-- The values that are read into what a pointer points to in the end: those behind the last
{lit}`null`. -/
def pointed {text : Type} (vs : List (Json text)) : List (Json text) :=
  vs.rtakeWhile (fun v => !v.isNull)

/-!
## Fields of structs
-/

def namedIn (name : String) (j : Document) : List Document :=
  j.named (fun t => takesName name (units t))

theorem membersOf_value (name : String) (js : List Document) :
    membersOf name (js.map value) = (js.flatMap (namedIn name)).map value := by
  unfold membersOf
  rw [List.flatMap_map, List.map_flatMap]
  apply List.flatMap_congr
  intro j _
  exact fieldValues_value name j

theorem pointed_value (js : List Document) : pointed (js.map value) = (pointed js).map value := by
  unfold pointed List.rtakeWhile
  rw [← List.map_reverse, List.takeWhile_map, List.map_reverse]
  congr 3
  funext j
  show (!(Json.map units j).isNull) = !j.isNull
  rw [Json.isNull_map]

section

variable {record component : Type} {fields : List (Field Text record)} {name : String}

theorem Reads.over {get : record -> component} {step : Document -> component -> Option component}
    (h : Reads fields name get step) {js : List Document} {r r' : record}
    (hread : readAll (JSON.decodeStruct fields) js r = some r') :
    readAll step (js.flatMap (namedIn name)) (get r) = some (get r') := by
  induction js generalizing r with
  | nil =>
      cases hread
      rfl
  | cons j rest ih =>
      rcases Option.bind_eq_some_iff.mp hread with ⟨mid, hmid, hrest⟩
      have hnamed : readAll step (namedIn name j) (get r) = some (get mid) := h.decodeStruct hmid
      rw [List.flatMap_cons, readAll_append, hnamed]
      exact ih hrest

/-- A pointer that was nil: it is nil again behind a last {lit}`null`, and otherwise it
points to what the values since then were read into. -/
theorem readAll_decodePtr {type : Type} {zero : type} {read : Document -> type -> Option type}
    {vs : List Document} {p : Option type} (h : readAll (decodePtr zero read) vs none = some p) :
    (pointed vs = [] ∧ p = none) ∨
      exists a, pointed vs ≠ [] ∧ p = some a ∧ readAll read (pointed vs) zero = some a := by
  induction vs using List.reverseRecOn generalizing p with
  | nil =>
      cases h
      exact Or.inl ⟨rfl, rfl⟩
  | append_singleton vs v ih =>
      rw [readAll_append] at h
      rcases Option.bind_eq_some_iff.mp h with ⟨mid, hmid, hlast⟩
      rcases Option.bind_eq_some_iff.mp hlast with ⟨p', hp', hsame⟩
      cases hsame
      unfold pointed
      unfold decodePtr at hp'
      cases hnull : v.isNull with
      | true =>
          rw [if_pos hnull] at hp'
          cases hp'
          left
          exact ⟨List.rtakeWhile_concat_neg _ _ _ (by rw [hnull]; decide), rfl⟩
      | false =>
          rw [if_neg (by rw [hnull]; decide)] at hp'
          rcases Option.map_eq_some_iff.mp hp' with ⟨a, ha, hp⟩
          rw [List.rtakeWhile_concat_pos _ _ _ (by rw [hnull]; rfl)]
          refine Or.inr ⟨a, List.append_ne_nil_of_right_ne_nil _ (List.cons_ne_nil v []), hp.symm, ?_⟩
          rw [readAll_append]
          rcases ih hmid with ⟨hnil, hnone⟩ | ⟨b, _, hb, hread⟩
          · have hpointed : pointed vs = [] := hnil
            unfold pointed at hpointed
            rw [hpointed]
            rw [hnone] at ha
            exact (Option.bind_fun_some _).trans ha
          · unfold pointed at hread
            rw [hread]
            rw [hb] at ha
            exact (Option.bind_fun_some _).trans ha

end

/-!
## Components
-/

section

variable {record : Type} {fields : List (Field Text record)} {name : String}
  {js : List Document} {r r' : record}

theorem asInt_value (v : Document) : asInt (value v) =
    (match v with
      | .number literal => atoi (bytesOf literal)
      | _ => none) := by
  cases v <;> rfl

theorem asZoned_of_timeOf {v : Document} {t : ZonedTime} (h : timeOf v = some t) :
    asZoned (value v) = some t := by
  cases v with
  | string text =>
      rcases Option.bind_eq_some_iff.mp h with ⟨s, hs, hparse⟩
      show parseZoned (decode (units text)) = some t
      rw [units_literal hs, decode_codes, hparse]
  | _ => cases h

theorem Reads.overwritten {component : Type} {get : record -> component}
    {f : Document -> Option component} {as : Value -> Option component}
    (h : Reads fields name get (overwrite Json.isNull f))
    (has : forall v c, f v = some c -> as (value v) = some c)
    (hread : readAll (JSON.decodeStruct fields) js r = some r') :
    get r' = ((lastOf Json.isNull (membersOf name (js.map value))).bind as).getD (get r) := by
  rw [membersOf_value, lastOf_value]
  rcases lastOf_of_readAll (fun _ _ _ => overwrite_leaves) (fun _ _ _ => overwrite_reads)
      (h.over hread) with ⟨hnone, hsame⟩ | ⟨v, hv, hfv⟩
  · rw [hnone, hsame]
    rfl
  · rw [hv]
    show get r' = (as (value v)).getD (get r)
    rw [has v _ hfv]
    rfl

theorem Reads.lastText {get : record -> String} (h : Reads fields name get decodeString)
    (hread : readAll (JSON.decodeStruct fields) js r = some r') (hzero : get r = "") :
    get r' = JSON.lastText (membersOf name (js.map value)) := by
  unfold JSON.lastText
  rw [← hzero]
  apply h.overwritten _ hread
  intro v c hv
  rw [asText_value, hv]

theorem Reads.lastInt {get : record -> Int} (h : Reads fields name get decodeInt)
    (hread : readAll (JSON.decodeStruct fields) js r = some r') (hzero : get r = 0) :
    get r' = JSON.lastInt (membersOf name (js.map value)) := by
  unfold JSON.lastInt
  rw [← hzero]
  apply h.overwritten _ hread
  intro v c hv
  rw [asInt_value]
  exact hv

theorem Reads.lastTime {get : record -> ZonedTime} (h : Reads fields name get decodeTime)
    (hread : readAll (JSON.decodeStruct fields) js r = some r') (hzero : get r = ZonedTime.zero) :
    get r' = JSON.lastTime (membersOf name (js.map value)) := by
  unfold JSON.lastTime
  rw [← hzero]
  exact h.overwritten (fun _ _ hv => asZoned_of_timeOf hv) hread

/-!
## Lists of texts
-/

theorem readItems_strings {vs : List Document} {old out left : List String}
    (h : readItems decodeString "" vs old = some (out, left)) :
    readTexts (vs.map value) old = (out, left) := by
  induction vs generalizing old out left with
  | nil =>
      cases h
      rfl
  | cons v rest ih =>
      rcases Option.bind_eq_some_iff.mp h with ⟨a, ha, hrest⟩
      rcases Option.map_eq_some_iff.mp hrest with ⟨pair, hpair, heq⟩
      cases heq
      have htext : (asText (value v)).getD (old.headD "") = a := by
        cases hnull : v.isNull with
        | true =>
            cases v with
            | null => exact (@overwrite_leaves _ _ Json.isNull _ _ _ _ rfl ha).symm
            | _ => cases hnull
        | false =>
            have hstring : stringOf v = some a := overwrite_reads hnull ha
            rw [asText_value, hstring]
            rfl
      show ((asText (value v)).getD (old.headD "") :: (readTexts (rest.map value) old.tail).1,
        (readTexts (rest.map value) old.tail).2) = _
      rw [htext, ih hpair]

theorem overTexts_value {v : Document} {s s' : Slice String}
    (h : decodeSlice "" decodeString v s = some s') : overTexts s (value v) = s' := by
  cases v with
  | null =>
      cases h
      rfl
  | array vs =>
      match vs with
      | [] =>
          cases h
          rfl
      | v :: rest =>
          rcases Option.map_eq_some_iff.mp h with ⟨pair, hpair, heq⟩
          have hvalue : value (.array (v :: rest)) = .array (value v :: rest.map value) :=
            congrArg Json.array (Json.mapItems_eq units (v :: rest))
          have htexts := readItems_strings hpair
          rw [List.map_cons] at htexts
          rw [hvalue, ← heq]
          show Slice.mk (some (readTexts (value v :: rest.map value) _).1) _ = _
          rw [htexts]
  | _ => cases h

theorem Reads.texts {get : record -> Slice String}
    (h : Reads fields name get (decodeSlice "" decodeString))
    (hread : readAll (JSON.decodeStruct fields) js r = some r') (hzero : get r = Slice.nil) :
    (get r').items = textsOf (membersOf name (js.map value)) := by
  have hover := h.over hread
  unfold textsOf
  rw [membersOf_value, hzero] at *
  generalize js.flatMap (namedIn name) = vs at hover
  generalize get r' = s' at hover
  generalize Slice.nil = s at hover
  induction vs generalizing s with
  | nil =>
      cases hover
      rfl
  | cons v rest ih =>
      rcases Option.bind_eq_some_iff.mp hover with ⟨mid, hmid, hrest⟩
      rw [List.map_cons, List.foldl_cons, overTexts_value hmid]
      exact ih mid hrest

end

/-!
## Numbers that are written again
-/

theorem lastInt_inRange (vs : List Value) : -2 ^ 63 <= lastInt vs ∧ lastInt vs < 2 ^ 63 := by
  unfold lastInt
  cases hread : (lastOf Json.isNull vs).bind asInt with
  | none => decide
  | some n =>
      rcases Option.bind_eq_some_iff.mp hread with ⟨v, _, hv⟩
      cases v with
      | number literal => exact atoi_inRange hv
      | _ => cases hv

theorem asInt_encodeInt {n : Int} (h : -2 ^ 63 <= n ∧ n < 2 ^ 63) :
    asInt (value (encodeInt n)) = some n := by
  show atoi (bytesOf (String.ofList (appendInt n 1))) = some n
  rw [atoi_appendInt, if_pos h]

end JSON
end Go
end LodelineManager
