import LodelineManager.Go.JSON

/-!
# Go types in JSON

How {lit}`encoding/json` reads a document into a value of a Go type and writes one.
Reading starts from the value that is there: {lit}`null` leaves a string or a number as
it is, an array is read over the items of the slice, an object adds to the map.
-/

namespace LodelineManager
namespace Go
namespace JSON

open Foundation Utf16

/-!
## Reading
-/

def never {text : Type} (_ : Json text) : Bool := false

def stringOf : Document -> Option String
  | .string t => some (String.ofList (unquote t))
  | _ => none

def decodeString : Document -> String -> Option String := overwrite Json.isNull stringOf

def decodeInt : Document -> Int -> Option Int :=
  overwrite Json.isNull (fun v =>
    match v with
    | .number literal => atoi (bytesOf literal)
    | _ => none)

def decodeBool : Document -> Bool -> Option Bool :=
  overwrite Json.isNull (fun v =>
    match v with
    | .bool b => some b
    | _ => none)

/-- What {lit}`strconv` makes of 64-bit floats; a literal out of their range has none. -/
structure Floats (float : Type) where
  zero : float
  parse : String -> Option float
  format : float -> String

def decodeFloat {float : Type} (F : Floats float) : Document -> float -> Option float :=
  overwrite Json.isNull (fun v =>
    match v with
    | .number literal => F.parse literal
    | _ => none)

/-- {lit}`json.RawMessage`, nil before anything is read. -/
abbrev RawMessage := Option Document

/-- Even {lit}`null` is kept as it is. -/
def decodeRaw : Document -> RawMessage -> Option RawMessage := overwrite never (fun v => some (some v))

/-- A pointer: {lit}`null` makes it nil, anything else is read into what it points to. -/
def decodePtr {type : Type} (zero : type) (read : Document -> type -> Option type)
    (v : Document) (p : Option type) : Option (Option type) :=
  if v.isNull then some none else (read v (p.getD zero)).map some

/-- A slice, which may be nil; {lit}`spare` lies between its length and its capacity. -/
structure Slice (item : Type) where
  items : Option (List item)
  spare : List item
  deriving DecidableEq

def Slice.nil {item : Type} : Slice item := { items := none, spare := [] }

def Slice.toList {item : Type} (s : Slice item) : List item := s.items.getD []

def decodeSlice {item : Type} (zero : item) (read : Document -> item -> Option item) :
    Document -> Slice item -> Option (Slice item)
  | .null, _ => some Slice.nil
  | .array [], _ => some { items := some [], spare := [] }
  | .array vs, s =>
      (readItems read zero vs (s.toList ++ s.spare)).map
        (fun r => { items := some r.1, spare := r.2 })
  | _, _ => none

abbrev Map (item : Type) := Option (AList (fun _ : String => item))

def decodeEntries {item : Type} (zero : item) (read : Document -> item -> Option item) :
    List (Text × Document) -> AList (fun _ : String => item) ->
      Option (AList (fun _ : String => item))
  | [], m => some m
  | (key, v) :: rest, m =>
      (read v zero).bind (fun a =>
        decodeEntries zero read rest (m.insert (String.ofList (unquote key)) a))

def decodeMap {item : Type} (zero : item) (read : Document -> item -> Option item) :
    Document -> Map item -> Option (Map item)
  | .null, _ => some none
  | .object members, m => (decodeEntries zero read members (m.getD ∅)).map some
  | _, _ => none

/-!
## Writing
-/

def encodeString (s : String) : Document := .string (quote s.toList)

def encodeInt (n : Int) : Document := .number (String.ofList (appendInt n 1))

def encodeFloat {float : Type} (F : Floats float) (x : float) : Document := .number (F.format x)

def encodeRaw : RawMessage -> Document
  | none => .null
  | some v => compact v

def encodePtr {type : Type} (write : type -> Option Document) : Option type -> Option Document
  | none => some .null
  | some a => write a

def encodeAll {item : Type} (write : item -> Option Document) :
    List item -> Option (List Document)
  | [] => some []
  | a :: rest => (write a).bind (fun v => (encodeAll write rest).map (v :: ·))

def encodeSlice {item : Type} (write : item -> Option Document) (s : Slice item) :
    Option Document :=
  match s.items with
  | none => some .null
  | some items => (encodeAll write items).map .array

def encodeObject : List (String × Option Document) -> Option (List (Text × Document))
  | [] => some []
  | (name, v) :: rest =>
      v.bind (fun v => (encodeObject rest).map ((quote name.toList, v) :: ·))

def sortedEntries {item : Type} (m : AList (fun _ : String => item)) : List (String × item) :=
  (m.entries.map (fun e => (e.1, e.2))).insertionSort (fun a b => a.1 <= b.1)

def encodeMap {item : Type} (write : item -> Option Document) : Map item -> Option Document
  | none => some .null
  | some m =>
      (encodeObject ((sortedEntries m).map (fun e => (e.1, write e.2)))).map .object

/-!
## What a value says of a field
-/

/-- The last member for the field, and {lit}`null` when there is none. -/
def rawIn (name : String) (v : Value) : Value := ((fieldValues name v).getLast?).getD .null

def asText : Value -> Option String
  | .string u => some (String.ofList (decode u))
  | _ => none

def textIn (name : String) (v : Value) : String :=
  ((lastOf Json.isNull (fieldValues name v)).bind asText).getD ""

def optionalTextIn (name : String) (v : Value) : Option String := asText (rawIn name v)

def get? (name : String) (v : Value) : Option Value :=
  (v.named (fun u => decide (u = codes name.toList))).getLast?

def ofText (s : String) : Value := .string (codes s.toList)

def ofOptionalText : Option String -> Value
  | none => .null
  | some s => ofText s

theorem asText_ofText (s : String) : asText (ofText s) = some s := by
  show some (String.ofList (decode (codes s.toList))) = some s
  rw [decode_codes, String.ofList_toList]

theorem asText_ofOptionalText (o : Option String) : asText (ofOptionalText o) = o := by
  cases o with
  | none => rfl
  | some s => exact asText_ofText s

theorem value_encodeString (s : String) : value (encodeString s) = ofText s :=
  congrArg Json.string (units_quote s.toList)

theorem asText_value (v : Document) : asText (value v) = stringOf v := by
  cases v <;> rfl

theorem fieldValues_value (name : String) (j : Document) :
    fieldValues name (value j) = (j.named (fun t => takesName name (units t))).map value :=
  Json.named_map (fun _ => rfl) j

theorem lastOf_value (vs : List Document) :
    lastOf Json.isNull (vs.map value) = (lastOf Json.isNull vs).map value :=
  lastOf_map (fun v => Json.isNull_map units v) vs

section

variable {record : Type} {fields : List (Field Text record)} {name : String}
  {j : Document} {r r' : record}

theorem Reads.text {get : record -> String} (h : Reads fields name get decodeString)
    (hdecode : JSON.decodeStruct fields j r = some r') (hzero : get r = "") :
    get r' = textIn name (value j) := by
  unfold textIn
  rw [fieldValues_value, lastOf_value]
  rcases lastOf_of_readAll (fun _ _ _ => overwrite_leaves) (fun _ _ _ => overwrite_reads)
      (h.decodeStruct hdecode) with ⟨hnone, hsame⟩ | ⟨v, hv, hread⟩
  · rw [hnone, hsame, hzero]
    rfl
  · rw [hv]
    show get r' = (asText (value v)).getD ""
    rw [asText_value, hread]
    rfl

theorem lastOf_never {text : Type} (vs : List (Json text)) : lastOf never vs = vs.getLast? := by
  unfold lastOf
  congr 1
  exact List.filter_eq_self.mpr (fun _ _ => rfl)

end

theorem value_encodeRaw (m : RawMessage) : value (encodeRaw m) = m.elim .null value := by
  cases m with
  | none => rfl
  | some v => exact value_compact v

/-!
## Pointers, slices and maps that were read
-/

/-- A slice that an array was read into item by item, or nil for {lit}`null`. -/
inductive SliceRead {item : Type} (R : Document -> item -> Prop) :
    Document -> Slice item -> Prop where
  | nil : SliceRead R .null Slice.nil
  | items {vs : List Document} {out spare : List item} : List.Forall₂ R vs out ->
      SliceRead R (.array vs) { items := some out, spare := spare }

theorem decodeSlice_nil {item : Type} {zero : item} {read : Document -> item -> Option item}
    {v : Document} {s : Slice item} (h : decodeSlice zero read v Slice.nil = some s) :
    SliceRead (fun v a => read v zero = some a) v s := by
  cases v with
  | null =>
      cases h
      exact SliceRead.nil
  | array vs =>
      match vs with
      | [] =>
          cases h
          exact SliceRead.items .nil
      | v :: rest =>
          rcases Option.map_eq_some_iff.mp h with ⟨r, hr, heq⟩
          cases heq
          exact SliceRead.items (readItems_nil hr).right
  | _ => cases h

theorem readItems_raw {vs : List Document} {old out left : List RawMessage}
    (h : readItems decodeRaw none vs old = some (out, left)) : out = vs.map some := by
  induction vs generalizing old out with
  | nil =>
      cases h
      rfl
  | cons v rest ih =>
      rcases Option.bind_eq_some_iff.mp h with ⟨a, ha, hrest⟩
      rcases Option.map_eq_some_iff.mp hrest with ⟨r, hr, heq⟩
      cases heq
      have hv : some v = a := Option.some.inj ha
      rw [List.map_cons, hv, ih hr]

theorem decodeSlice_raw {v : Document} {s s' : Slice RawMessage}
    (h : decodeSlice none decodeRaw v s = some s') :
    SliceRead (fun v a => a = some v) v s' := by
  have hall : forall vs : List Document,
      List.Forall₂ (fun v a => a = some v) vs (vs.map some) := by
    intro vs
    induction vs with
    | nil => exact .nil
    | cons v rest ih => exact .cons rfl ih
  cases v with
  | null =>
      cases h
      exact SliceRead.nil
  | array vs =>
      match vs with
      | [] =>
          cases h
          exact SliceRead.items .nil
      | v :: rest =>
          rcases Option.map_eq_some_iff.mp h with ⟨r, hr, heq⟩
          cases heq
          have hout : r.1 = (v :: rest).map some := readItems_raw hr
          rw [hout]
          exact SliceRead.items (hall (v :: rest))
  | _ => cases h

theorem decodePtr_string {v : Document} {p p' : Option String}
    (h : decodePtr "" decodeString v p = some p') : p' = asText (value v) := by
  unfold decodePtr at h
  split at h
  · rename_i hnull
    cases v with
    | null =>
        cases h
        rfl
    | _ => cases hnull
  · rename_i hnull
    rcases Option.map_eq_some_iff.mp h with ⟨s, hs, heq⟩
    rw [← heq, asText_value]
    exact (overwrite_reads (Bool.eq_false_of_not_eq_true hnull) hs).symm

/-- No object has two members for the field. -/
def Single (name : String) (v : Value) : Prop := (fieldValues name v).length <= 1

section

variable {record : Type} {fields : List (Field Text record)} {name : String}
  {j : Document} {r r' : record}

theorem Reads.last {component : Type} {get : record -> component}
    {step : Document -> component -> Option component} {P : Document -> component -> Prop}
    (h : Reads fields name get step) (hstep : forall v c c', step v c = some c' -> P v c')
    (hdecode : JSON.decodeStruct fields j r = some r') :
    (rawIn name (value j) = .null ∧ get r' = get r) ∨
      exists v, rawIn name (value j) = value v ∧ P v (get r') := by
  unfold rawIn
  rw [fieldValues_value, List.getLast?_map]
  have hkeep : forall (v : Document) (c c' : component), never v = true -> step v c = some c' ->
      c' = c := fun _ _ _ hv => by cases hv
  rcases lastOf_of_readAll hkeep (fun v c c' _ => hstep v c c') (h.decodeStruct hdecode) with
    ⟨hnone, hsame⟩ | ⟨v, hv, hread⟩
  · rw [lastOf_never] at hnone
    rw [hnone]
    exact Or.inl ⟨rfl, hsame⟩
  · rw [lastOf_never] at hv
    rw [hv]
    exact Or.inr ⟨v, rfl, hread⟩

theorem Reads.raw {get : record -> RawMessage} (h : Reads fields name get decodeRaw)
    (hdecode : JSON.decodeStruct fields j r = some r') (hzero : get r = none) :
    (get r').elim .null value = rawIn name (value j) := by
  rcases h.last (fun _ _ _ hread => overwrite_reads rfl hread) hdecode with
    ⟨hraw, hsame⟩ | ⟨v, hraw, hread⟩
  · rw [hraw, hsame, hzero]
    rfl
  · rw [hraw, ← Option.some.inj hread]
    rfl

theorem Reads.optionalText {get : record -> Option String}
    (h : Reads fields name get (decodePtr "" decodeString))
    (hdecode : JSON.decodeStruct fields j r = some r') (hzero : get r = none) :
    get r' = optionalTextIn name (value j) := by
  unfold optionalTextIn
  rcases h.last (fun _ _ _ => decodePtr_string) hdecode with ⟨hraw, hsame⟩ | ⟨v, hraw, hread⟩
  · rw [hraw, hsame, hzero]
    rfl
  · rw [hraw, hread]

theorem Reads.single {component : Type} {get : record -> component}
    {step : Document -> component -> Option component} (h : Reads fields name get step)
    (hone : Single name (value j)) (hdecode : JSON.decodeStruct fields j r = some r') :
    (rawIn name (value j) = .null ∧ get r' = get r) ∨
      exists v, rawIn name (value j) = value v ∧ step v (get r) = some (get r') := by
  unfold Single at hone
  unfold rawIn
  rw [fieldValues_value] at hone ⊢
  rw [List.length_map] at hone
  rcases readAll_of_single hone (h.decodeStruct hdecode) with ⟨hnil, hsame⟩ | ⟨v, hv, hread⟩
  · rw [hnil]
    exact Or.inl ⟨rfl, hsame⟩
  · rw [hv]
    exact Or.inr ⟨v, rfl, hread⟩

end

def entryIn (key : String) (v : Value) : Option Value :=
  (v.named (fun u => decide (decode u = key.toList))).getLast?

theorem entryIn_value (key : String) (j : Document) :
    entryIn key (value j) =
      (j.named (fun t => decide (unquote t = key.toList))).getLast?.map value := by
  unfold entryIn value
  rw [Json.named_map (fun _ => rfl) j, List.getLast?_map]
  rfl

theorem lookup_decodeEntries {item : Type} {zero : item} {read : Document -> item -> Option item}
    (key : String) {members : List (Text × Document)} {m m' : AList (fun _ : String => item)}
    (h : decodeEntries zero read members m = some m') :
    (((Json.object members).named (fun t => decide (unquote t = key.toList))).getLast? = none ∧
        m'.lookup key = m.lookup key) ∨
      exists v a, ((Json.object members).named
          (fun t => decide (unquote t = key.toList))).getLast? = some v ∧
        read v zero = some a ∧ m'.lookup key = some a := by
  unfold Json.named
  show (((members.filter (fun e => decide (unquote e.1 = key.toList))).map Prod.snd).getLast? = none
      ∧ _) ∨ exists v a,
    ((members.filter (fun e => decide (unquote e.1 = key.toList))).map Prod.snd).getLast? = some v ∧ _
  induction members generalizing m with
  | nil =>
      cases h
      exact Or.inl ⟨rfl, rfl⟩
  | cons e rest ih =>
      rcases e with ⟨t, v⟩
      rcases Option.bind_eq_some_iff.mp h with ⟨a, ha, hrest⟩
      by_cases hkey : unquote t = key.toList
      · have hname : String.ofList (unquote t) = key := by rw [hkey, String.ofList_toList]
        rw [List.filter_cons, if_pos (decide_eq_true hkey), List.map_cons, List.getLast?_cons]
        rcases ih hrest with ⟨hnone, hsame⟩ | ⟨w, b, hw, hb, hlookup⟩
        · rw [hnone, hsame, hname, AList.lookup_insert]
          exact Or.inr ⟨v, a, rfl, ha, rfl⟩
        · rw [hw]
          exact Or.inr ⟨w, b, rfl, hb, hlookup⟩
      · have hname : key ≠ String.ofList (unquote t) := by
          intro heq
          rw [heq, String.toList_ofList] at hkey
          exact hkey rfl
        rw [List.filter_cons, if_neg (by rw [decide_eq_true_eq]; exact hkey)]
        rcases ih hrest with ⟨hnone, hsame⟩ | hread
        · rw [hsame, AList.lookup_insert_ne hname]
          exact Or.inl ⟨hnone, rfl⟩
        · exact Or.inr hread

/-!
## What was written
-/

theorem encodeAll_eq_some {item : Type} {write : item -> Option Document} {items : List item}
    {out : List Document} (h : encodeAll write items = some out) :
    List.Forall₂ (fun a v => write a = some v) items out := by
  induction items generalizing out with
  | nil =>
      cases h
      exact .nil
  | cons a rest ih =>
      rcases Option.bind_eq_some_iff.mp h with ⟨v, hv, hrest⟩
      rcases Option.map_eq_some_iff.mp hrest with ⟨vs, hvs, heq⟩
      cases heq
      exact .cons hv (ih hvs)

theorem encodeAll_isSome {item : Type} (write : item -> Option Document) (items : List item) :
    (encodeAll write items).isSome = items.all (fun a => (write a).isSome) := by
  induction items with
  | nil => rfl
  | cons a rest ih =>
      rw [List.all_cons, ← ih]
      show ((write a).bind _).isSome = _
      cases write a with
      | none => rfl
      | some v =>
          show (((encodeAll write rest).map _).isSome) = _
          rw [Option.isSome_map, Option.isSome_some, Bool.true_and]

theorem encodeObject_isSome (members : List (String × Option Document)) :
    (encodeObject members).isSome = members.all (fun m => m.2.isSome) := by
  induction members with
  | nil => rfl
  | cons m rest ih =>
      rcases m with ⟨name, v⟩
      rw [List.all_cons, ← ih]
      show (v.bind _).isSome = _
      cases v with
      | none => rfl
      | some v =>
          show (((encodeObject rest).map _).isSome) = _
          rw [Option.isSome_map, Option.isSome_some, Bool.true_and]

theorem codes_injective {s t : List Char} (h : codes s = codes t) : s = t := by
  rw [← decode_codes s, h, decode_codes]

theorem getLast?_of_map_some {α β : Type} {f : α -> Option β} {xs : List α} {ys : List β}
    (h : ys.map some = xs.map f) : ys.getLast? = xs.getLast?.bind f := by
  have hlast := congrArg List.getLast? h
  rw [List.getLast?_map, List.getLast?_map] at hlast
  cases hx : xs.getLast? with
  | none =>
      rw [hx] at hlast
      exact Option.map_eq_none_iff.mp hlast
  | some x =>
      rw [hx] at hlast
      rcases Option.map_eq_some_iff.mp hlast with ⟨y, hy, heq⟩
      exact hy.trans heq

theorem get?_encodeObject {members : List (String × Option Document)}
    {out : List (Text × Document)} (h : encodeObject members = some out) (name : String) :
    get? name (value (.object out)) =
      ((members.filter (fun m => decide (m.1 = name))).getLast?).bind (fun m => m.2.map value) := by
  have hall : (((Json.object out : Document).named
        (fun t => decide (units t = codes name.toList))).map value).map some =
      (members.filter (fun m => decide (m.1 = name))).map (fun m => m.2.map value) := by
    unfold Json.named
    show ((((out.filter (fun m => decide (units m.1 = codes name.toList))).map Prod.snd).map
      value).map some) = _
    induction members generalizing out with
    | nil =>
        cases h
        rfl
    | cons m rest ih =>
        rcases m with ⟨key, v⟩
        rcases Option.bind_eq_some_iff.mp h with ⟨d, hd, hrest⟩
        rcases Option.map_eq_some_iff.mp hrest with ⟨ds, hds, heq⟩
        cases heq
        have hkey : units (quote key.toList) = codes name.toList <-> key = name := by
          rw [units_quote]
          constructor
          · intro hcodes
            exact String.toList_injective (codes_injective hcodes)
          · intro hname
            rw [hname]
        rw [List.filter_cons, List.filter_cons]
        simp only [hkey]
        split
        · simp only [List.map_cons, ih hds, hd, Option.map_some]
        · exact ih hds
  unfold get? value
  rw [Json.named_map (fun _ => rfl) (Json.object out : Document)]
  exact getLast?_of_map_some hall

theorem exists_of_mem_members {members : List (String × Option Document)}
    {out : List (Text × Document)} (h : encodeObject members = some out) {name : String}
    {v : Option Document} (hmem : (name, v) ∈ members) : exists d, v = some d := by
  have hall := encodeObject_isSome members
  rw [h, Option.isSome_some] at hall
  exact Option.isSome_iff_exists.mp (List.all_eq_true.mp hall.symm (name, v) hmem)

theorem get?_of_mem {members : List (String × Option Document)} {out : List (Text × Document)}
    (h : encodeObject members = some out) (hnames : (members.map Prod.fst).Nodup) {name : String}
    {v : Option Document} (hmem : (name, v) ∈ members) :
    get? name (value (.object out)) = v.map value := by
  have hone : members.filter (fun m => decide (m.1 = name)) = [(name, v)] := by
    clear h
    induction members with
    | nil => cases hmem
    | cons m rest ih =>
        rcases List.nodup_cons.mp hnames with ⟨hfresh, hrest⟩
        rcases List.mem_cons.mp hmem with rfl | hin
        · have hnone : rest.filter (fun m => decide (m.1 = name)) = [] := by
            apply List.filter_eq_nil_iff.mpr
            intro m hm hname
            exact hfresh (List.mem_map.mpr ⟨m, hm, of_decide_eq_true hname⟩)
          rw [List.filter_cons, if_pos (decide_eq_true rfl), hnone]
        · have hne : ¬ m.1 = name := fun heq =>
            hfresh (heq ▸ List.mem_map.mpr ⟨(name, v), hin, rfl⟩)
          rw [List.filter_cons, if_neg (by rw [decide_eq_true_eq]; exact hne), ih hrest hin]
  rw [get?_encodeObject h, hone]
  rfl

theorem get?_of_not_mem {members : List (String × Option Document)} {out : List (Text × Document)}
    (h : encodeObject members = some out) {name : String} (hname : name ∉ members.map Prod.fst) :
    get? name (value (.object out)) = none := by
  have hnone : members.filter (fun m => decide (m.1 = name)) = [] := by
    apply List.filter_eq_nil_iff.mpr
    intro m hm heq
    exact hname (List.mem_map.mpr ⟨m, hm, of_decide_eq_true heq⟩)
  rw [get?_encodeObject h, hnone]
  rfl

theorem mem_sortedEntries {item : Type} {m : AList (fun _ : String => item)} {key : String}
    {a : item} : (key, a) ∈ sortedEntries m <-> m.lookup key = some a := by
  unfold sortedEntries
  rw [List.mem_insertionSort, List.mem_map, ← Option.mem_def, AList.mem_lookup_iff]
  constructor
  · rintro ⟨e, he, heq⟩
    rcases e with ⟨key', a'⟩
    cases heq
    exact he
  · intro he
    exact ⟨⟨key, a⟩, he, rfl⟩

theorem sortedEntries_nodup {item : Type} (m : AList (fun _ : String => item)) :
    ((sortedEntries m).map Prod.fst).Nodup := by
  have hperm : ((sortedEntries m).map Prod.fst).Perm m.keys := by
    unfold sortedEntries
    refine ((List.perm_insertionSort _ _).map Prod.fst).trans ?_
    rw [List.map_map]
    exact List.Perm.refl _
  exact hperm.nodup_iff.mpr m.keys_nodup

theorem get?_encodeMap {item : Type} {write : item -> Option Document}
    {m : AList (fun _ : String => item)} {out : Document} (h : encodeMap write (some m) = some out)
    (key : String) : get? key (value out) = (m.lookup key).bind (fun a => (write a).map value) := by
  rcases Option.map_eq_some_iff.mp h with ⟨members, hmembers, heq⟩
  have hnames : ((sortedEntries m).map (fun e => (e.1, write e.2))).map Prod.fst =
      (sortedEntries m).map Prod.fst := by
    rw [List.map_map]
    rfl
  rw [← heq]
  cases hlookup : m.lookup key with
  | none =>
      apply get?_of_not_mem hmembers
      rw [hnames]
      intro hmem
      rcases List.mem_map.mp hmem with ⟨⟨key', a⟩, he, hkey⟩
      cases hkey
      rw [mem_sortedEntries.mp he] at hlookup
      cases hlookup
  | some a =>
      apply get?_of_mem hmembers
      · rw [hnames]
        exact sortedEntries_nodup m
      · exact List.mem_map.mpr ⟨(key, a), mem_sortedEntries.mpr hlookup, rfl⟩

theorem exists_of_encodeMap {item : Type} {write : item -> Option Document}
    {m : AList (fun _ : String => item)} {out : Document} (h : encodeMap write (some m) = some out)
    {key : String} {a : item} (ha : m.lookup key = some a) : exists d, write a = some d := by
  rcases Option.map_eq_some_iff.mp h with ⟨members, hmembers, _⟩
  exact exists_of_mem_members hmembers
    (List.mem_map.mpr ⟨(key, a), mem_sortedEntries.mpr ha, rfl⟩)

end JSON
end Go
end LodelineManager
