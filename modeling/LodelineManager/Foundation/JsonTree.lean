import Mathlib.Data.List.Basic
import Mathlib.Data.List.Forall2

/-!
# JSON trees

Trees over any representation of the texts of strings and member names.  A number is
kept as the literal it was written as, and an object as its members in order, so that
trees tell apart all that documents do but white space.

An object is read into a record member by member.  A reader looks up the field that a
name stands for, and a member may change what an earlier one has left in its field.
-/

namespace LodelineManager
namespace Foundation

inductive Json (text : Type) where
  | null
  | bool (b : Bool)
  | number (literal : String)
  | string (s : text)
  | array (items : List (Json text))
  | object (members : List (text × Json text))

namespace Json

variable {text text' text'' : Type}

mutual

def map (f : text -> text') : Json text -> Json text'
  | null => null
  | bool b => bool b
  | number literal => number literal
  | string s => string (f s)
  | array items => array (mapItems f items)
  | object members => object (mapMembers f members)

def mapItems (f : text -> text') : List (Json text) -> List (Json text')
  | [] => []
  | item :: rest => item.map f :: mapItems f rest

def mapMembers (f : text -> text') : List (text × Json text) -> List (text' × Json text')
  | [] => []
  | (name, v) :: rest => (f name, v.map f) :: mapMembers f rest

end

theorem mapItems_eq (f : text -> text') (items : List (Json text)) :
    mapItems f items = items.map (map f) := by
  induction items with
  | nil => rfl
  | cons item rest ih => exact congrArg (item.map f :: ·) ih

theorem mapMembers_eq (f : text -> text') (members : List (text × Json text)) :
    mapMembers f members = members.map (fun m => (f m.1, m.2.map f)) := by
  induction members with
  | nil => rfl
  | cons m rest ih => exact congrArg ((f m.1, m.2.map f) :: ·) ih

mutual

theorem map_map (g : text' -> text'') (f : text -> text') (j : Json text) :
    (j.map f).map g = j.map (g ∘ f) := by
  cases j with
  | null => rfl
  | bool b => rfl
  | number literal => rfl
  | string s => rfl
  | array items => exact congrArg array (mapItems_mapItems g f items)
  | object members => exact congrArg object (mapMembers_mapMembers g f members)

theorem mapItems_mapItems (g : text' -> text'') (f : text -> text') (items : List (Json text)) :
    mapItems g (mapItems f items) = mapItems (g ∘ f) items := by
  match items with
  | [] => rfl
  | item :: rest =>
      show (item.map f).map g :: mapItems g (mapItems f rest) = _
      rw [map_map g f item, mapItems_mapItems g f rest]
      rfl

theorem mapMembers_mapMembers (g : text' -> text'') (f : text -> text')
    (members : List (text × Json text)) :
    mapMembers g (mapMembers f members) = mapMembers (g ∘ f) members := by
  match members with
  | [] => rfl
  | (name, v) :: rest =>
      show (g (f name), (v.map f).map g) :: mapMembers g (mapMembers f rest) = _
      rw [map_map g f v, mapMembers_mapMembers g f rest]
      rfl

end

def isNull : Json text -> Bool
  | null => true
  | _ => false

def items : Json text -> List (Json text)
  | array items => items
  | _ => []

def members : Json text -> List (text × Json text)
  | object members => members
  | _ => []

@[simp] theorem isNull_map (f : text -> text') (j : Json text) : (j.map f).isNull = j.isNull := by
  cases j <;> rfl

@[simp] theorem items_map (f : text -> text') (j : Json text) :
    (j.map f).items = j.items.map (map f) := by
  cases j with
  | array items => exact mapItems_eq f items
  | _ => rfl

@[simp] theorem members_map (f : text -> text') (j : Json text) :
    (j.map f).members = j.members.map (fun m => (f m.1, m.2.map f)) := by
  cases j with
  | object members => exact mapMembers_eq f members
  | _ => rfl

def named (takes : text -> Bool) (j : Json text) : List (Json text) :=
  (j.members.filter (fun m => takes m.1)).map Prod.snd

theorem named_map {f : text -> text'} {takes : text -> Bool} {takes' : text' -> Bool}
    (h : forall name, takes' (f name) = takes name) (j : Json text) :
    (j.map f).named takes' = (j.named takes).map (map f) := by
  unfold named
  rw [members_map, List.filter_map, List.map_map, List.map_map]
  congr 1
  apply List.filter_congr
  intro m _
  exact h m.1

end Json

/-!
## Reading an object into a record
-/

section

variable {text record component : Type}

/-- How a record takes the member of a name; nothing when the value does not fit. -/
structure Field (text record : Type) where
  name : String
  read : Json text -> record -> Option record

/-- Take the members in order, each by the field that its name stands for; the others
are passed over. -/
def readMembers (field : text -> Option (Field text record)) :
    List (text × Json text) -> record -> Option record
  | [], r => some r
  | (name, v) :: rest, r =>
      match field name with
      | none => readMembers field rest r
      | some f => (f.read v r).bind (readMembers field rest)

def readAll (step : Json text -> component -> Option component) :
    List (Json text) -> component -> Option component
  | [], c => some c
  | v :: rest, c => (step v c).bind (readAll step rest)

/-- What is left in one component: its own members, taken in order. -/
theorem readAll_of_readMembers {field : text -> Option (Field text record)}
    {takes : text -> Bool} (get : record -> component)
    (step : Json text -> component -> Option component)
    (htakes : forall name, takes name = true -> exists f, field name = some f)
    (hown : forall name f, field name = some f -> takes name = true ->
      forall v r r', f.read v r = some r' -> step v (get r) = some (get r'))
    (hother : forall name f, field name = some f -> takes name = false ->
      forall v r r', f.read v r = some r' -> get r' = get r)
    {members : List (text × Json text)} {r r' : record}
    (h : readMembers field members r = some r') :
    readAll step ((members.filter (fun m => takes m.1)).map Prod.snd) (get r) =
      some (get r') := by
  induction members generalizing r with
  | nil =>
      cases h
      rfl
  | cons m rest ih =>
      rcases m with ⟨name, v⟩
      cases hfield : field name with
      | none =>
          have hnot : takes name = false := by
            cases hname : takes name with
            | false => rfl
            | true =>
                rcases htakes name hname with ⟨f, hf⟩
                rw [hfield] at hf
                cases hf
          have hrest : readMembers field rest r = some r' := by
            simpa only [readMembers, hfield] using h
          rw [List.filter_cons, if_neg (ne_true_of_eq_false hnot)]
          exact ih hrest
      | some f =>
          have hbind : (f.read v r).bind (readMembers field rest) = some r' := by
            simpa only [readMembers, hfield] using h
          rcases Option.bind_eq_some_iff.mp hbind with ⟨mid, hread, hrest⟩
          cases hname : takes name with
          | false =>
              rw [List.filter_cons, if_neg (ne_true_of_eq_false hname),
                ← hother name f hfield hname v r mid hread]
              exact ih hrest
          | true =>
              rw [List.filter_cons, if_pos hname]
              show (step v (get r)).bind _ = _
              rw [hown name f hfield hname v r mid hread]
              exact ih hrest

theorem readAll_append {step : Json text -> component -> Option component}
    (vs ws : List (Json text)) (c : component) :
    readAll step (vs ++ ws) c = (readAll step vs c).bind (readAll step ws) := by
  induction vs generalizing c with
  | nil => rfl
  | cons v rest ih =>
      show (step v c).bind (readAll step (rest ++ ws)) = ((step v c).bind (readAll step rest)).bind _
      rw [Option.bind_assoc]
      congr 1
      funext mid
      exact ih mid

theorem readAll_of_single {step : Json text -> component -> Option component}
    {vs : List (Json text)} {c c' : component} (hone : vs.length <= 1)
    (h : readAll step vs c = some c') :
    (vs = [] ∧ c' = c) ∨ exists v, vs = [v] ∧ step v c = some c' := by
  match vs, hone with
  | [], _ =>
      cases h
      exact Or.inl ⟨rfl, rfl⟩
  | [v], _ =>
      rcases Option.bind_eq_some_iff.mp h with ⟨mid, hmid, hrest⟩
      cases hrest
      exact Or.inr ⟨v, rfl, hmid⟩

def overwrite (leaves : Json text -> Bool) (f : Json text -> Option component) (v : Json text)
    (c : component) : Option component :=
  if leaves v then some c else f v

def lastOf (leaves : Json text -> Bool) (vs : List (Json text)) : Option (Json text) :=
  (vs.filter (fun v => !leaves v)).getLast?

theorem lastOf_map {text' : Type} {leaves : Json text -> Bool} {leaves' : Json text' -> Bool}
    {f : Json text -> Json text'} (h : forall v, leaves' (f v) = leaves v)
    (vs : List (Json text)) : lastOf leaves' (vs.map f) = (lastOf leaves vs).map f := by
  unfold lastOf
  rw [List.filter_map, List.getLast?_map]
  congr 2
  apply List.filter_congr
  intro v _
  exact congrArg (!·) (h v)

theorem lastOf_of_readAll {leaves : Json text -> Bool}
    {step : Json text -> component -> Option component} {P : Json text -> component -> Prop}
    (hkeep : forall v c c', leaves v = true -> step v c = some c' -> c' = c)
    (hread : forall v c c', leaves v = false -> step v c = some c' -> P v c')
    {vs : List (Json text)} {c c' : component} (h : readAll step vs c = some c') :
    (lastOf leaves vs = none ∧ c' = c) ∨ exists v, lastOf leaves vs = some v ∧ P v c' := by
  unfold lastOf
  induction vs generalizing c with
  | nil =>
      cases h
      exact Or.inl ⟨rfl, rfl⟩
  | cons v rest ih =>
      rcases Option.bind_eq_some_iff.mp h with ⟨mid, hmid, hrest⟩
      cases hv : leaves v with
      | true =>
          rw [List.filter_cons, if_neg (by rw [hv]; decide), ← hkeep v c mid hv hmid]
          exact ih hrest
      | false =>
          rw [List.filter_cons, if_pos (by rw [hv]; rfl)]
          rcases ih hrest with ⟨hnone, heq⟩ | ⟨w, hw, hfw⟩
          · rw [List.getLast?_eq_none_iff.mp hnone, heq]
            exact Or.inr ⟨v, rfl, hread v c mid hv hmid⟩
          · refine Or.inr ⟨w, ?_, hfw⟩
            rw [List.getLast?_cons, hw]
            rfl

theorem overwrite_leaves {leaves : Json text -> Bool} {f : Json text -> Option component}
    {v : Json text} {c c' : component} (hv : leaves v = true)
    (h : overwrite leaves f v c = some c') : c' = c := by
  unfold overwrite at h
  rw [if_pos hv] at h
  exact (Option.some.inj h).symm

theorem overwrite_reads {leaves : Json text -> Bool} {f : Json text -> Option component}
    {v : Json text} {c c' : component} (hv : leaves v = false)
    (h : overwrite leaves f v c = some c') : f v = some c' := by
  unfold overwrite at h
  rw [if_neg (ne_true_of_eq_false hv)] at h
  exact h

end

/-!
## Lists and maps
-/

section

variable {text item : Type}

/-- Read items over those that a list held before, with {lit}`zero` in new places; the
rest of the old ones stays behind. -/
def readItems (read : Json text -> item -> Option item) (zero : item) :
    List (Json text) -> List item -> Option (List item × List item)
  | [], old => some ([], old)
  | v :: rest, old =>
      (read v (old.headD zero)).bind (fun a =>
        (readItems read zero rest old.tail).map (fun r => (a :: r.1, r.2)))

theorem readItems_nil {read : Json text -> item -> Option item} {zero : item}
    {vs : List (Json text)} {out left : List item}
    (h : readItems read zero vs [] = some (out, left)) :
    left = [] ∧ List.Forall₂ (fun v a => read v zero = some a) vs out := by
  induction vs generalizing out with
  | nil =>
      cases h
      exact ⟨rfl, .nil⟩
  | cons v rest ih =>
      rcases Option.bind_eq_some_iff.mp h with ⟨a, ha, hrest⟩
      rcases Option.map_eq_some_iff.mp hrest with ⟨r, hr, heq⟩
      cases heq
      rcases ih hr with ⟨hleft, hall⟩
      exact ⟨hleft, .cons ha hall⟩

end

end Foundation
end LodelineManager
