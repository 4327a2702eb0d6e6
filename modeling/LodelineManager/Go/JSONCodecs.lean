import LodelineManager.Go.JSONPaths

/-!
# Types that are read and written again

What a document says that was written from the values that a variable was read from, one
over another.  A codec carries its proof of that, and structs, pointers, slices and maps
are put together from the codecs of their parts.
-/

namespace LodelineManager
namespace Go
namespace JSON

open Foundation Utf16

/-- How a type is read and written, which of its values can be written, and what is said then
of the values that were read. -/
structure Codec (type : Type) where
  zero : type
  read : Document -> type -> Option type
  write : type -> Option Document
  Writable : type -> Prop
  Says : List Value -> Value -> Prop
  written : forall a, (write a).isSome <-> Writable a
  law : forall vs a d, readAll read vs zero = some a -> write a = some d ->
    Says (vs.map value) (value d)

namespace Codec

/-!
## Scalars
-/

/-- A type that every value but {lit}`null` overwrites; {lit}`Kept` is what reading
makes sure of. -/
def scalar {type : Type} (zero : type) (f : Document -> Option type) (as : Value -> Option type)
    (write : type -> Option Document) (Kept : type -> Prop) (Shown : type -> Value -> Prop)
    (Writable : type -> Prop) (hwritten : forall a, (write a).isSome <-> Writable a)
    (hzero : Kept zero) (hread : forall v a, f v = some a -> as (value v) = some a ∧ Kept a)
    (hwrite : forall a d, Kept a -> write a = some d -> Shown a (value d)) : Codec type where
  zero := zero
  read := overwrite Json.isNull f
  write := write
  Writable := Writable
  written := hwritten
  Says := fun vs x => Shown (((lastOf Json.isNull vs).bind as).getD zero) x
  law := by
    intro vs a d h hd
    rw [lastOf_value]
    rcases lastOf_of_readAll (fun _ _ _ => overwrite_leaves) (fun _ _ _ => overwrite_reads) h with
      ⟨hnone, hsame⟩ | ⟨v, hv, hfv⟩
    · rw [hnone, ← hsame]
      rw [← hsame] at hzero
      exact hwrite a d hzero hd
    · rcases hread v a hfv with ⟨has, hkept⟩
      rw [hv]
      show Shown ((as (value v)).getD zero) _
      rw [has]
      exact hwrite a d hkept hd

/-- {lit}`string`. -/
def text : Codec String :=
  scalar "" stringOf asText (fun s => some (encodeString s)) (fun _ => True)
    (fun s x => x = ofText s) (fun _ => True) (fun _ => iff_of_true rfl trivial) trivial
    (by
      intro v a h
      rw [asText_value]
      exact ⟨h, trivial⟩)
    (by
      intro a d _ h
      cases h
      exact value_encodeString a)

def InRange (n : Int) : Prop := -2 ^ 63 <= n ∧ n < 2 ^ 63

/-- {lit}`int` of 64 bits. -/
def int : Codec Int :=
  scalar 0
    (fun v =>
      match v with
      | .number literal => atoi (bytesOf literal)
      | _ => none)
    asInt (fun n => some (encodeInt n)) InRange (fun n x => asInt x = some n)
    (fun _ => True) (fun _ => iff_of_true rfl trivial) (by unfold InRange; decide)
    (by
      intro v a h
      cases v with
      | number literal => exact ⟨h, atoi_inRange h⟩
      | _ => cases h)
    (by
      intro a d hrange h
      cases h
      exact asInt_encodeInt hrange)

def asBool : Value -> Option Bool
  | .bool b => some b
  | _ => none

def bool : Codec Bool :=
  scalar false
    (fun v =>
      match v with
      | .bool b => some b
      | _ => none)
    asBool (fun b => some (.bool b)) (fun _ => True) (fun b x => x = .bool b)
    (fun _ => True) (fun _ => iff_of_true rfl trivial) trivial
    (by
      intro v a h
      cases v with
      | bool b => exact ⟨h, trivial⟩
      | _ => cases h)
    (by
      intro a d _ h
      cases h
      rfl)

/-- {lit}`float64`: the number that is written is the shortest one of the float. -/
def float {float : Type} (F : Floats float) : Codec float :=
  scalar F.zero
    (fun v =>
      match v with
      | .number literal => F.parse literal
      | _ => none)
    (fun x =>
      match x with
      | .number literal => F.parse literal
      | _ => none)
    (fun a => some (encodeFloat F a)) (fun _ => True) (fun a x => x = .number (F.format a))
    (fun _ => True) (fun _ => iff_of_true rfl trivial) trivial
    (by
      intro v a h
      cases v with
      | number literal => exact ⟨h, trivial⟩
      | _ => cases h)
    (by
      intro a d _ h
      cases h
      rfl)

theorem time_written (t : ZonedTime) : (encodeTime t).isSome <-> t.Writable := by
  unfold encodeTime
  split
  · rename_i h
    exact iff_of_true rfl h
  · rename_i h
    exact iff_of_false Bool.false_ne_true h

/-- {lit}`time.Time`: the instant is said, not its zone. -/
def time : Codec ZonedTime :=
  scalar ZonedTime.zero timeOf asZoned encodeTime (fun t => t.offset % minute = 0)
    (fun t x => asInstant x = some t.instant) ZonedTime.Writable time_written rfl
    (fun _ _ h => ⟨asZoned_of_timeOf h, (timeOf_eq_some h).right⟩)
    (fun _ _ hwhole h => encodeTime_eq_some h hwhole)

/-- {lit}`json.RawMessage`: the last value as it is. -/
def raw : Codec RawMessage where
  zero := none
  read := decodeRaw
  write := fun m => some (encodeRaw m)
  Writable := fun _ => True
  written := fun _ => iff_of_true rfl trivial
  Says := fun vs x => x = vs.getLast?.getD .null
  law := by
    intro vs a d h hd
    cases hd
    rw [value_encodeRaw, List.getLast?_map]
    have hkeep : forall (v : Document) (c c' : RawMessage), never v = true ->
        decodeRaw v c = some c' -> c' = c := by
      intro v c c' hv
      cases hv
    rcases lastOf_of_readAll hkeep (fun _ _ _ => overwrite_reads) h with
      ⟨hnone, hsame⟩ | ⟨v, hv, hread⟩
    · rw [lastOf_never] at hnone
      rw [hnone, hsame]
      rfl
    · rw [lastOf_never] at hv
      rw [hv, ← Option.some.inj hread]
      rfl

/-!
## Pointers
-/

/-- A pointer: nil behind a last {lit}`null`, and otherwise what the values since then say. -/
def ptr {type : Type} (c : Codec type) : Codec (Option type) where
  zero := none
  read := decodePtr c.zero c.read
  write := encodePtr c.write
  Writable := fun p => forall a, p = some a -> c.Writable a
  written := by
    intro p
    cases p with
    | none => exact iff_of_true rfl (fun _ h => nomatch h)
    | some a =>
        constructor
        · intro h b hb
          rw [← Option.some.inj hb]
          exact (c.written a).mp h
        · intro h
          exact (c.written a).mpr (h a rfl)
  Says := fun vs x => (pointed vs = [] ∧ x = .null) ∨ (pointed vs ≠ [] ∧ c.Says (pointed vs) x)
  law := by
    intro vs p d h hd
    rw [pointed_value]
    rcases readAll_decodePtr h with ⟨hnil, hp⟩ | ⟨a, hne, hp, hread⟩
    · rw [hp] at hd
      cases hd
      rw [hnil]
      exact Or.inl ⟨rfl, rfl⟩
    · rw [hp] at hd
      exact Or.inr ⟨fun hmap => hne (List.map_eq_nil_iff.mp hmap), c.law _ a d hread hd⟩

end Codec

/-!
## Slices
-/

section

variable {text item : Type}

def readSlots : List (Json text) -> List (List (Json text)) ->
    List (List (Json text)) × List (List (Json text))
  | [], old => ([], old)
  | v :: rest, old =>
      ((old.headD [] ++ [v]) :: (readSlots rest old.tail).1, (readSlots rest old.tail).2)

/-- The places of a slice after a value was read into it: an empty array and {lit}`null`
give up the array behind it. -/
def overSlots (s : Slice (List (Json text))) : Json text -> Slice (List (Json text))
  | .array [] => { items := some [], spare := [] }
  | .array vs =>
      { items := some (readSlots vs (s.toList ++ s.spare)).1
        spare := (readSlots vs (s.toList ++ s.spare)).2 }
  | _ => Slice.nil

def slotsOf (vs : List (Json text)) : Option (List (List (Json text))) :=
  (vs.foldl overSlots Slice.nil).items

/-- The items of a slice were read from what stands in its places, and so were those behind
them. -/
structure Filled (R : List (Json text) -> item -> Prop) (s : Slice (List (Json text)))
    (t : Slice item) : Prop where
  nil : s.items = none <-> t.items = none
  items : List.Forall₂ R s.toList t.toList
  spare : List.Forall₂ R s.spare t.spare

end

section

variable {item : Type} {read : Document -> item -> Option item} {zero : item}

def Place (read : Document -> item -> Option item) (zero : item) (ds : List Document) (a : item) :
    Prop := readAll read ds zero = some a

theorem Place.head {slots : List (List Document)} {old : List item}
    (h : List.Forall₂ (Place read zero) slots old) {v : Document} {a : item}
    (hread : read v (old.headD zero) = some a) : Place read zero (slots.headD [] ++ [v]) a := by
  unfold Place
  rw [readAll_append]
  cases h with
  | nil => exact (Option.bind_some _ _).trans ((Option.bind_fun_some _).trans hread)
  | cons hfirst _ =>
      unfold Place at hfirst
      rw [List.headD_cons, hfirst]
      exact (Option.bind_some _ _).trans ((Option.bind_fun_some _).trans hread)

theorem places_readItems {vs : List Document} {slots : List (List Document)}
    {old out left : List item} (h : readItems read zero vs old = some (out, left))
    (hold : List.Forall₂ (Place read zero) slots old) :
    List.Forall₂ (Place read zero) (readSlots vs slots).1 out ∧
      List.Forall₂ (Place read zero) (readSlots vs slots).2 left := by
  induction vs generalizing slots old out left with
  | nil =>
      cases h
      exact ⟨.nil, hold⟩
  | cons v rest ih =>
      rcases Option.bind_eq_some_iff.mp h with ⟨a, ha, hrest⟩
      rcases Option.map_eq_some_iff.mp hrest with ⟨pair, hpair, heq⟩
      cases heq
      have htail : List.Forall₂ (Place read zero) slots.tail old.tail := by
        cases hold with
        | nil => exact .nil
        | cons _ hmore => exact hmore
      rcases ih hpair htail with ⟨hout, hleft⟩
      exact ⟨.cons (Place.head hold ha) hout, hleft⟩

theorem Filled.step {s : Slice (List Document)} {t t' : Slice item}
    (h : Filled (Place read zero) s t) {v : Document}
    (hread : decodeSlice zero read v t = some t') :
    Filled (Place read zero) (overSlots s v) t' := by
  have hempty : Filled (Place read zero) (Slice.nil : Slice (List Document)) (Slice.nil) :=
    ⟨iff_of_true rfl rfl, .nil, .nil⟩
  cases v with
  | null =>
      cases hread
      exact hempty
  | array vs =>
      match vs with
      | [] =>
          cases hread
          exact ⟨iff_of_false (Option.some_ne_none _) (Option.some_ne_none _), .nil, .nil⟩
      | v :: rest =>
          rcases Option.map_eq_some_iff.mp hread with ⟨pair, hpair, heq⟩
          rcases places_readItems hpair (List.rel_append h.items h.spare) with ⟨hout, hleft⟩
          rw [← heq]
          exact ⟨iff_of_false (Option.some_ne_none _) (Option.some_ne_none _), hout, hleft⟩
  | _ => cases hread

theorem Filled.run {vs : List Document} {s : Slice (List Document)} {t t' : Slice item}
    (h : Filled (Place read zero) s t) (hread : readAll (decodeSlice zero read) vs t = some t') :
    Filled (Place read zero) (vs.foldl overSlots s) t' := by
  induction vs generalizing s t with
  | nil =>
      cases hread
      exact h
  | cons v rest ih =>
      rcases Option.bind_eq_some_iff.mp hread with ⟨mid, hmid, hrest⟩
      exact ih (h.step hmid) hrest

end

def valueSlots (s : Slice (List Document)) : Slice (List Value) :=
  { items := s.items.map (List.map (List.map value)), spare := s.spare.map (List.map value) }

theorem readSlots_value (vs : List Document) (slots : List (List Document)) :
    readSlots (vs.map value) (slots.map (List.map value)) =
      ((readSlots vs slots).1.map (List.map value),
        (readSlots vs slots).2.map (List.map value)) := by
  induction vs generalizing slots with
  | nil => rfl
  | cons v rest ih =>
      have htail : (slots.map (List.map value)).tail = slots.tail.map (List.map value) :=
        List.map_tail.symm
      have hhead : (slots.map (List.map value)).headD [] ++ [value v] =
          (slots.headD [] ++ [v]).map value := by
        cases slots with
        | nil => rfl
        | cons ds more =>
            show ds.map value ++ [value v] = (ds ++ [v]).map value
            rw [List.map_append]
            rfl
      show (_ :: _, _) = (_ :: _, _)
      rw [htail, ih, hhead]
      rfl

theorem overSlots_value (s : Slice (List Document)) (v : Document) :
    overSlots (valueSlots s) (value v) = valueSlots (overSlots s v) := by
  cases v with
  | array vs =>
      match vs with
      | [] => rfl
      | v :: rest =>
          have hvalue : value (.array (v :: rest)) = .array (value v :: rest.map value) :=
            congrArg Json.array (Json.mapItems_eq units (v :: rest))
          have hplaces : (valueSlots s).toList ++ (valueSlots s).spare =
              (s.toList ++ s.spare).map (List.map value) := by
            rw [List.map_append]
            unfold valueSlots Slice.toList
            cases s.items <;> rfl
          have hslots := readSlots_value (v :: rest) (s.toList ++ s.spare)
          rw [List.map_cons] at hslots
          rw [hvalue]
          show Slice.mk (some (readSlots (value v :: rest.map value) _).1) _ = _
          rw [hplaces, hslots]
          rfl
  | _ => rfl

theorem slotsOf_value (vs : List Document) :
    slotsOf (vs.map value) = (slotsOf vs).map (List.map (List.map value)) := by
  have hfold : forall s : Slice (List Document),
      (vs.map value).foldl overSlots (valueSlots s) = valueSlots (vs.foldl overSlots s) := by
    induction vs with
    | nil => exact fun _ => rfl
    | cons v rest ih =>
        intro s
        rw [List.map_cons, List.foldl_cons, List.foldl_cons, overSlots_value, ih]
  exact congrArg Slice.items (hfold Slice.nil)

theorem Codec.says_of_places {item : Type} (c : Codec item) {slots : List (List Document)}
    {items : List item} {ds : List Document}
    (hplaces : List.Forall₂ (Place c.read c.zero) slots items)
    (hwritten : List.Forall₂ (fun a d => c.write a = some d) items ds) :
    List.Forall₂ c.Says (slots.map (List.map value)) (ds.map value) := by
  induction hplaces generalizing ds with
  | nil =>
      cases hwritten
      exact .nil
  | cons hplace _ ih =>
      cases hwritten with
      | cons hwrite hrest => exact .cons (c.law _ _ _ hplace hwrite) (ih hrest)

/-- A slice: what is said of its items is what was read into their places. -/
def Codec.slice {item : Type} (c : Codec item) : Codec (Slice item) where
  zero := Slice.nil
  read := decodeSlice c.zero c.read
  write := encodeSlice c.write
  Writable := fun s => forall a, a ∈ s.toList -> c.Writable a
  written := by
    intro s
    unfold encodeSlice Slice.toList
    cases s.items with
    | none => exact iff_of_true rfl (fun _ h => absurd h List.not_mem_nil)
    | some items =>
        show ((encodeAll c.write items).map Json.array).isSome <-> _
        rw [Option.isSome_map, encodeAll_isSome, List.all_eq_true]
        exact forall₂_congr (fun a _ => c.written a)
  Says := fun vs x =>
    match slotsOf vs with
    | none => x = .null
    | some slots => exists ws, x = .array ws ∧ List.Forall₂ c.Says slots ws
  law := by
    intro vs s d h hd
    have hfilled : Filled (Place c.read c.zero) (vs.foldl overSlots Slice.nil) s :=
      Filled.run ⟨iff_of_true rfl rfl, .nil, .nil⟩ h
    rw [slotsOf_value]
    unfold slotsOf encodeSlice at *
    cases hslots : (vs.foldl overSlots Slice.nil).items with
    | none =>
        rw [hfilled.nil.mp hslots] at hd
        cases hd
        rfl
    | some slots =>
        rcases Option.ne_none_iff_exists'.mp
          (fun hnone => Option.some_ne_none slots (hslots.symm.trans (hfilled.nil.mpr hnone)))
          with ⟨items, hitems⟩
        rw [hitems] at hd
        rcases Option.map_eq_some_iff.mp hd with ⟨ds, hds, heq⟩
        refine ⟨ds.map value, ?_, ?_⟩
        · rw [← heq]
          exact congrArg Json.array (Json.mapItems_eq units ds)
        · have hplaces := hfilled.items
          unfold Slice.toList at hplaces
          rw [hslots, hitems] at hplaces
          exact c.says_of_places hplaces (encodeAll_eq_some hds)

/-!
## Maps
-/

def lastEntry (key : String) (vs : List Value) : Option Value :=
  (vs.filterMap (entryIn key)).getLast?

def entryAt (key : String) (j : Document) : Option Document :=
  (j.named (fun t => decide (unquote t = key.toList))).getLast?

def lastNamed (key : String) (js : List Document) : Option Document :=
  (js.filterMap (entryAt key)).getLast?

theorem lastEntry_value (key : String) (js : List Document) :
    lastEntry key (js.map value) = (lastNamed key js).map value := by
  unfold lastEntry lastNamed
  rw [List.filterMap_map, ← List.getLast?_map, List.map_filterMap]
  congr 2
  funext j
  exact entryIn_value key j

theorem pointed_snoc {text : Type} (vs : List (Json text)) (v : Json text) :
    pointed (vs ++ [v]) = if v.isNull then [] else pointed vs ++ [v] := by
  unfold pointed
  cases hnull : v.isNull with
  | true => exact List.rtakeWhile_concat_neg _ _ _ (by rw [hnull]; decide)
  | false => exact List.rtakeWhile_concat_pos _ _ _ (by rw [hnull]; rfl)

theorem lastNamed_snoc (key : String) (js : List Document) (j : Document) :
    lastNamed key (js ++ [j]) = (entryAt key j).or (lastNamed key js) := by
  unfold lastNamed
  rw [List.filterMap_append]
  cases hlast : entryAt key j with
  | none =>
      rw [List.filterMap_cons_none hlast, List.filterMap_nil, List.append_nil]
      rfl
  | some d =>
      rw [List.filterMap_cons_some hlast, List.filterMap_nil, List.getLast?_concat]
      rfl

/-- A map that was nil: it is nil again behind a last {lit}`null`, and otherwise every key has
the last entry since then, read on its own. -/
theorem readAll_decodeMap {item : Type} {zero : item} {read : Document -> item -> Option item}
    {vs : List Document} {m : Map item} (h : readAll (decodeMap zero read) vs none = some m) :
    (pointed vs = [] ∧ m = none) ∨
      exists entries, pointed vs ≠ [] ∧ m = some entries ∧ forall key,
        (lastNamed key (pointed vs) = none ∧ entries.lookup key = none) ∨
          exists d a, lastNamed key (pointed vs) = some d ∧ read d zero = some a ∧
            entries.lookup key = some a := by
  induction vs using List.reverseRecOn generalizing m with
  | nil =>
      cases h
      exact Or.inl ⟨rfl, rfl⟩
  | append_singleton vs v ih =>
      rw [readAll_append] at h
      rcases Option.bind_eq_some_iff.mp h with ⟨mid, hmid, hlast⟩
      rcases Option.bind_eq_some_iff.mp hlast with ⟨m', hm', hsame⟩
      cases hsame
      rw [pointed_snoc]
      cases v with
      | null =>
          cases hm'
          exact Or.inl ⟨rfl, rfl⟩
      | object members =>
          rcases Option.map_eq_some_iff.mp hm' with ⟨entries, hentries, heq⟩
          refine Or.inr ⟨entries, List.append_ne_nil_of_right_ne_nil _ (List.cons_ne_nil _ _),
            heq.symm, ?_⟩
          intro key
          show (lastNamed key (pointed vs ++ [.object members]) = none ∧ _) ∨
            exists d a, lastNamed key (pointed vs ++ [.object members]) = some d ∧ _
          have hbefore : (lastNamed key (pointed vs) = none ∧ (mid.getD ∅).lookup key = none) ∨
              exists d a, lastNamed key (pointed vs) = some d ∧ read d zero = some a ∧
                (mid.getD ∅).lookup key = some a := by
            rcases ih hmid with ⟨hnil, hnone⟩ | ⟨old, _, hold, hkeys⟩
            · rw [hnil, hnone]
              exact Or.inl ⟨rfl, rfl⟩
            · rw [hold]
              exact hkeys key
          rw [lastNamed_snoc]
          unfold entryAt
          rcases lookup_decodeEntries key hentries with ⟨hnone, hsame⟩ | ⟨d, a, hd, ha, hlookup⟩
          · rw [hnone, hsame, Option.none_or]
            exact hbefore
          · rw [hd]
            exact Or.inr ⟨d, a, rfl, ha, hlookup⟩
      | _ => cases hm'

theorem Codec.relayed {type : Type} (c : Codec type) {j d : Document} {a : type}
    (hread : c.read j c.zero = some a) (hwrite : c.write a = some d) :
    c.Says [value j] (value d) := by
  have hall : readAll c.read [j] c.zero = some a := by
    show (c.read j c.zero).bind some = some a
    rw [hread]
    rfl
  exact c.law [j] a d hall hwrite

/-- A map that is not nil: every key has what was read into it last, and there are no others. -/
def Codec.map {item : Type} (c : Codec item) : Codec (Map item) where
  zero := none
  read := decodeMap c.zero c.read
  write := encodeMap c.write
  Writable := fun m => forall entries key a, m = some entries -> entries.lookup key = some a ->
    c.Writable a
  written := by
    intro m
    cases m with
    | none => exact iff_of_true rfl (fun _ _ _ h => nomatch h)
    | some entries =>
        unfold encodeMap
        rw [Option.isSome_map, encodeObject_isSome, List.all_map, List.all_eq_true]
        constructor
        · intro h entries' key a heq hlookup
          rw [← Option.some.inj heq] at hlookup
          exact (c.written a).mp (h (key, a) (mem_sortedEntries.mpr hlookup))
        · intro h e he
          exact (c.written e.2).mpr (h entries e.1 e.2 rfl (mem_sortedEntries.mp he))
  Says := fun vs x =>
    (pointed vs = [] ∧ x = .null) ∨
      (pointed vs ≠ [] ∧ (exists members, x = .object members) ∧ forall key,
        match lastEntry key (pointed vs) with
        | none => get? key x = none
        | some u => exists y, get? key x = some y ∧ c.Says [u] y)
  law := by
    intro vs m d h hd
    rw [pointed_value]
    rcases readAll_decodeMap h with ⟨hnil, hm⟩ | ⟨entries, hne, hm, hkeys⟩
    · rw [hm] at hd
      cases hd
      rw [hnil]
      exact Or.inl ⟨rfl, rfl⟩
    · rw [hm] at hd
      have hobject : exists members, value d = .object members := by
        rcases Option.map_eq_some_iff.mp hd with ⟨members, _, hd⟩
        rw [← hd]
        exact ⟨_, rfl⟩
      refine Or.inr ⟨fun hmap => hne (List.map_eq_nil_iff.mp hmap), hobject, ?_⟩
      intro key
      rw [lastEntry_value]
      rcases hkeys key with ⟨hnone, hlookup⟩ | ⟨v, a, hv, ha, hlookup⟩
      · rw [hnone]
        show get? key (value d) = none
        rw [get?_encodeMap hd, hlookup]
        rfl
      · rcases exists_of_encodeMap hd hlookup with ⟨w, hw⟩
        rw [hv]
        refine ⟨value w, ?_, ?_⟩
        · rw [get?_encodeMap hd, hlookup]
          show (c.write a).map value = some (value w)
          rw [hw]
          rfl
        · exact c.relayed ha hw

/-!
## Structs
-/

/-- A field of a struct under its name; one whose value {lit}`omits` is left out. -/
structure Entry (record : Type) where
  component : Type
  name : String
  get : record -> component
  set : record -> component -> record
  codec : Codec component
  omits : component -> Bool
  get_set : forall r c, get (set r c) = c
  null : forall a, omits a = true -> codec.write a = some .null

namespace Entry

variable {record : Type}

/-- A field without options. -/
def plain {component : Type} (name : String) (get : record -> component)
    (set : record -> component -> record) (codec : Codec component)
    (get_set : forall r c, get (set r c) = c) : Entry record where
  component := component
  name := name
  get := get
  set := set
  codec := codec
  omits := fun _ => false
  get_set := get_set
  null := fun _ h => nomatch h

/-- A pointer with {lit}`omitempty`. -/
def omitEmpty {component : Type} (name : String) (get : record -> Option component)
    (set : record -> Option component -> record) (codec : Codec component)
    (get_set : forall r c, get (set r c) = c) : Entry record where
  component := Option component
  name := name
  get := get
  set := set
  codec := codec.ptr
  omits := Option.isNone
  get_set := get_set
  null := by
    intro a h
    rw [Option.isNone_iff_eq_none.mp h]
    rfl

def field (e : Entry record) : Field Text record := JSON.field e.name e.get e.set e.codec.read

def member (r : record) (e : Entry record) : Option (String × Option Document) :=
  if e.omits (e.get r) then none else some (e.name, e.codec.write (e.get r))

/-- A member that is missing says what {lit}`null` would. -/
def Shown (e : Entry record) (vs : List Value) (x : Option Value) : Prop :=
  match x with
  | none => (exists a, e.omits a = true) ∧ e.codec.Says vs .null
  | some y => e.codec.Says vs y

/-- Neither field is touched when the other one is set. -/
def Apart (e e' : Entry record) : Prop :=
  (forall r c, e.get (e'.set r c) = e.get r) ∧ forall r c, e'.get (e.set r c) = e'.get r

instance : Std.Symm (Entry.Apart : Entry record -> Entry record -> Prop) where
  symm _ _ h := ⟨h.right, h.left⟩

end Entry

/-- No two names differ in case only. -/
def Distinct (names : List String) : Prop := (names.map (fun name => foldName name.toList)).Nodup

instance (names : List String) : Decidable (Distinct names) :=
  inferInstanceAs (Decidable (List.Nodup _))

/-- The fields of a struct, each with a place of its own. -/
structure Schema (record : Type) where
  entries : List (Entry record)
  zero : record
  names : Distinct (entries.map Entry.name)
  apart : entries.Pairwise Entry.Apart
  start : forall e, e ∈ entries -> e.get zero = e.codec.zero

namespace Schema

variable {record : Type} (s : Schema record)

def fields : List (Field Text record) := s.entries.map Entry.field

def members (r : record) : List (String × Option Document) := s.entries.filterMap (Entry.member r)

theorem reads {e : Entry record} (he : e ∈ s.entries) :
    Reads s.fields e.name e.get e.codec.read := by
  have hmem : e.field ∈ s.fields := List.mem_map_of_mem he
  refine Reads.of_field ?_ hmem e.get_set ?_
  · have hnames := s.names
    unfold Distinct at hnames
    rw [List.map_map] at hnames
    show ((s.entries.map Entry.field).map _).Nodup
    rw [List.map_map]
    exact hnames
  · intro f hf
    rcases List.mem_map.mp hf with ⟨e', he', heq⟩
    rw [← heq]
    by_cases hsame : e = e'
    · rw [hsame]
      exact Or.inl rfl
    · have hapart := s.apart.forall he he' hsame
      exact Or.inr (field_other hapart.left)

theorem members_names (r : record) :
    ((s.members r).map Prod.fst).Sublist (s.entries.map Entry.name) := by
  unfold members
  generalize s.entries = entries
  induction entries with
  | nil => exact .slnil
  | cons e rest ih =>
      cases homits : e.omits (e.get r) with
      | true =>
          have hnone : e.member r = none := if_pos homits
          rw [List.filterMap_cons_none hnone]
          exact ih.trans (List.sublist_cons_self _ _)
      | false =>
          have hsome : e.member r = some (e.name, e.codec.write (e.get r)) :=
            if_neg (ne_true_of_eq_false homits)
          rw [List.filterMap_cons_some hsome, List.map_cons, List.map_cons]
          exact ih.cons_cons _

theorem entries_names : (s.entries.map Entry.name).Nodup := s.names.of_map _

theorem member_eq {r : record} {e e' : Entry record} {m : String × Option Document}
    (he : e ∈ s.entries) (he' : e' ∈ s.entries) (hm : e'.member r = some m)
    (hname : m.1 = e.name) : e' = e := by
  unfold Entry.member at hm
  split at hm
  · cases hm
  · cases hm
    exact List.inj_on_of_nodup_map s.entries_names he' he hname

/-- A struct says what its fields say, and nothing else. -/
def codec : Codec record where
  zero := s.zero
  read := decodeStruct s.fields
  write := fun r => (encodeObject (s.members r)).map Json.object
  Writable := fun r => forall e, e ∈ s.entries -> e.codec.Writable (e.get r)
  written := by
    intro r
    rw [Option.isSome_map, encodeObject_isSome, List.all_eq_true]
    constructor
    · intro h e he
      apply (e.codec.written _).mp
      cases homits : e.omits (e.get r) with
      | true =>
          rw [e.null _ homits]
          rfl
      | false =>
          exact h _ (List.mem_filterMap.mpr ⟨e, he, if_neg (ne_true_of_eq_false homits)⟩)
    · intro h m hm
      rcases List.mem_filterMap.mp hm with ⟨e, he, hmember⟩
      unfold Entry.member at hmember
      split at hmember
      · cases hmember
      · cases hmember
        exact (e.codec.written _).mpr (h e he)
  Says := fun vs x => (forall e, e ∈ s.entries -> e.Shown (membersOf e.name vs) (get? e.name x)) ∧
    forall name, name ∉ s.entries.map Entry.name -> get? name x = none
  law := by
    intro js r d hread hwrite
    rcases Option.map_eq_some_iff.mp hwrite with ⟨out, hout, heq⟩
    rw [← heq]
    have hnodup : ((s.members r).map Prod.fst).Nodup :=
      s.entries_names.sublist (s.members_names r)
    constructor
    · intro e he
      have hover := (s.reads he).over hread
      rw [s.start e he] at hover
      rw [membersOf_value]
      unfold Entry.Shown
      cases homits : e.omits (e.get r) with
      | true =>
          have hmissing : e.name ∉ (s.members r).map Prod.fst := by
            intro hmem
            rcases List.mem_map.mp hmem with ⟨m, hm, hname⟩
            rcases List.mem_filterMap.mp hm with ⟨e', he', hm'⟩
            rw [s.member_eq he he' hm' hname] at hm'
            have hnone : e.member r = none := if_pos homits
            rw [hnone] at hm'
            cases hm'
          rw [get?_of_not_mem hout hmissing]
          exact ⟨⟨_, homits⟩, e.codec.law _ _ _ hover (e.null _ homits)⟩
      | false =>
          have hmem : (e.name, e.codec.write (e.get r)) ∈ s.members r :=
            List.mem_filterMap.mpr ⟨e, he, if_neg (ne_true_of_eq_false homits)⟩
          rcases exists_of_mem_members hout hmem with ⟨w, hw⟩
          rw [get?_of_mem hout hnodup hmem, hw]
          exact e.codec.law _ _ w hover hw
    · intro name hname
      exact get?_of_not_mem hout (fun hmem => hname ((s.members_names r).subset hmem))

theorem get?_written {e : Entry record} (he : e ∈ s.entries) {r : record} {d : Document}
    (hwrite : s.codec.write r = some d) (homits : e.omits (e.get r) = false) :
    get? e.name (value d) = (e.codec.write (e.get r)).map value := by
  rcases Option.map_eq_some_iff.mp hwrite with ⟨out, hout, heq⟩
  rw [← heq]
  exact get?_of_mem hout (s.entries_names.sublist (s.members_names r))
    (List.mem_filterMap.mpr ⟨e, he, if_neg (ne_true_of_eq_false homits)⟩)

theorem says_plain {component : Type} {name : String} {get : record -> component}
    {set : record -> component -> record} {c : Codec component}
    {get_set : forall r x, get (set r x) = x} (he : Entry.plain name get set c get_set ∈ s.entries)
    {vs : List Value} {w : Value} (h : s.codec.Says vs w) :
    exists y, get? name w = some y ∧ c.Says (membersOf name vs) y := by
  have hshown : (Entry.plain name get set c get_set).Shown (membersOf name vs) (get? name w) :=
    h.left _ he
  cases hget : get? name w with
  | none =>
      rw [hget] at hshown
      rcases hshown.left with ⟨_, hfalse⟩
      cases hfalse
  | some y =>
      rw [hget] at hshown
      exact ⟨y, rfl, hshown⟩

end Schema

/-!
## What can be written
-/

section

variable {item record : Type} {component : Type}

@[simp] theorem Codec.text_writable (a : String) : Codec.text.Writable a <-> True := Iff.rfl

@[simp] theorem Codec.int_writable (a : Int) : Codec.int.Writable a <-> True := Iff.rfl

@[simp] theorem Codec.bool_writable (a : Bool) : Codec.bool.Writable a <-> True := Iff.rfl

@[simp] theorem Codec.float_writable (F : Floats item) (a : item) :
    (Codec.float F).Writable a <-> True := Iff.rfl

@[simp] theorem Codec.time_writable (t : ZonedTime) : Codec.time.Writable t <-> t.Writable :=
  Iff.rfl

@[simp] theorem Codec.ptr_writable (c : Codec item) (p : Option item) :
    c.ptr.Writable p <-> forall a, p = some a -> c.Writable a := Iff.rfl

@[simp] theorem Codec.slice_writable (c : Codec item) (s : Slice item) :
    c.slice.Writable s <-> forall a, a ∈ s.toList -> c.Writable a := Iff.rfl

@[simp] theorem Codec.map_writable (c : Codec item) (m : Map item) :
    c.map.Writable m <-> forall entries key a, m = some entries -> entries.lookup key = some a ->
      c.Writable a := Iff.rfl

@[simp] theorem Schema.codec_writable (s : Schema record) (r : record) :
    s.codec.Writable r <-> forall e, e ∈ s.entries -> e.codec.Writable (e.get r) := Iff.rfl

@[simp] theorem Entry.plain_writable (name : String) (get : record -> component)
    (set : record -> component -> record) (c : Codec component)
    (get_set : forall r x, get (set r x) = x) (r : record) :
    (Entry.plain name get set c get_set).codec.Writable
      ((Entry.plain name get set c get_set).get r) <-> c.Writable (get r) := Iff.rfl

end

theorem membersOf_singleton (name : String) (v : Value) :
    membersOf name [v] = fieldValues name v := List.flatMap_singleton _ _

theorem Codec.slice_says_items {item : Type} (c : Codec item) {vs : List Value} {x : Value}
    (h : c.slice.Says vs x) : List.Forall₂ c.Says ((slotsOf vs).getD []) x.items := by
  change (match slotsOf vs with
    | none => x = .null
    | some slots => exists ws, x = .array ws ∧ List.Forall₂ c.Says slots ws) at h
  cases hslots : slotsOf vs with
  | none =>
      rw [hslots] at h
      rw [h]
      exact .nil
  | some slots =>
      rw [hslots] at h
      rcases h with ⟨ws, hx, hall⟩
      rw [hx]
      exact hall

end JSON
end Go
end LodelineManager
