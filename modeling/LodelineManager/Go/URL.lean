import LodelineManager.Foundation.PercentCoding
import Mathlib.Data.List.AList
import Mathlib.Data.List.Sort

/-!
# Escaping and query strings

{lit}`net/url` on byte strings: escaping of path segments and query components,
{lit}`url.Values` with {lit}`Encode`, and {lit}`ParseQuery`.  Both escapings can be undone, and
parsing an encoded query gives the same values back.
-/

namespace LodelineManager
namespace Go

open Foundation PercentCoding

abbrev ByteString := List UInt8

def ByteString.text (s : ByteString) : String :=
  String.ofList (s.map (fun b => Char.ofNat b.toNat))

def bytesOf (s : String) : ByteString := s.toList.map (fun c => UInt8.ofNat c.toNat)

def utf8 (s : String) : ByteString := s.toByteArray.data.toList

def textOf (b : ByteString) : Option String := String.fromUTF8? ⟨b.toArray⟩

inductive Encoding where
  | path
  | pathSegment
  | queryComponent
  deriving DecidableEq

def isAlphanumeric (c : UInt8) : Bool :=
  (97 <= c && c <= 122) || (65 <= c && c <= 90) || (48 <= c && c <= 57)

def shouldEscape (mode : Encoding) (c : UInt8) : Bool :=
  if isAlphanumeric c || decide (c ∈ bytesOf "-_.~") then false
  else if c ∈ bytesOf "$&+,/:;=?@" then
    match mode with
    | .path => decide (c ∈ bytesOf "?")
    | .pathSegment => decide (c ∈ bytesOf "/;,?")
    | .queryComponent => true
  else true

def keeps (mode : Encoding) (c : UInt8) : Bool := !shouldEscape mode c

def pathEscape (s : ByteString) : ByteString := encode (keeps .pathSegment) s

def pathUnescape (s : ByteString) : Option ByteString := decode s

def queryEscape (s : ByteString) : ByteString :=
  s.flatMap (fun c => if c = 32 then [43] else encodeByte (keeps .queryComponent) c)

def queryUnescape (s : ByteString) : Option ByteString :=
  decode (s.map (fun c => if c = 43 then 32 else c))

/-!
## Values
-/

/-- {lit}`url.Values`: each key with its values in order. -/
abbrev Values := AList (fun _ : ByteString => List ByteString)

namespace Values

/-- {lit}`v[key]`, which is empty for a missing key. -/
def values (v : Values) (key : ByteString) : List ByteString := (v.lookup key).getD []

/-- {lit}`Get`: the first value, or the empty string. -/
def get (v : Values) (key : ByteString) : ByteString := (v.values key).headD []

def set (v : Values) (key value : ByteString) : Values := v.insert key [value]

def add (v : Values) (key value : ByteString) : Values :=
  v.insert key (v.values key ++ [value])

def pairs (v : Values) : List (ByteString × ByteString) :=
  (v.entries.insertionSort (fun a b => a.1 <= b.1)).flatMap (fun e => e.2.map (fun x => (e.1, x)))

def encodePair (p : ByteString × ByteString) : ByteString :=
  queryEscape p.1 ++ 61 :: queryEscape p.2

def encode (v : Values) : ByteString := List.intercalate [38] (v.pairs.map encodePair)

end Values

/-- {lit}`strings.Cut`, with nothing after a separator that is missing. -/
def cut (sep : UInt8) (s : ByteString) : ByteString × ByteString :=
  (s.takeWhile (fun c => c ≠ sep), (s.dropWhile (fun c => c ≠ sep)).drop 1)

def parsePair (part : ByteString) : Option (ByteString × ByteString) :=
  if (59 : UInt8) ∈ part ∨ part = [] then none
  else
    match queryUnescape (cut 61 part).1, queryUnescape (cut 61 part).2 with
    | some key, some value => some (key, value)
    | _, _ => none

def addPair (v : Values) (part : ByteString) : Values :=
  match parsePair part with
  | some (key, value) => v.add key value
  | none => v

/-- {lit}`r.URL.Query()`. -/
def parseQuery (query : ByteString) : Values := (query.splitOn 38).foldl addPair ∅

example : (Values.set ∅ (bytesOf "host_id") (bytesOf "a,b c")).encode =
    bytesOf "host_id=a%2Cb+c" := by decide

/-!
## Texts of bytes
-/

theorem bytesOf_text (s : ByteString) : bytesOf s.text = s := by
  have hbyte : forall b : UInt8, UInt8.ofNat (Char.ofNat b.toNat).toNat = b := by
    intro b
    have hlt : b.toNat < 256 := b.toNat_lt
    have hvalid : b.toNat.isValidChar := Or.inl (by omega)
    have hchar : (Char.ofNat b.toNat).toNat = b.toNat := by
      unfold Char.ofNat
      rw [dif_pos hvalid]
      rfl
    rw [hchar]
    exact UInt8.ofNat_toNat
  unfold bytesOf ByteString.text
  rw [String.toList_ofList, List.map_map]
  conv_rhs => rw [← List.map_id s]
  exact List.map_congr_left (fun b _ => hbyte b)

theorem bytesOf_append (s t : String) : bytesOf (s ++ t) = bytesOf s ++ bytesOf t := by
  unfold bytesOf
  rw [String.toList_append, List.map_append]

theorem text_bytesOf {s : String} (h : forall c, c ∈ s.toList -> c.toNat < 256) :
    (bytesOf s).text = s := by
  unfold ByteString.text bytesOf
  rw [List.map_map]
  apply String.toList_injective
  rw [String.toList_ofList]
  conv_rhs => rw [← List.map_id s.toList]
  apply List.map_congr_left
  intro c hc
  show Char.ofNat (UInt8.ofNat c.toNat).toNat = c
  rw [UInt8.toNat_ofNat_of_lt' (h c hc), Char.ofNat_toNat]

theorem text_injective {s t : ByteString} (h : s.text = t.text) : s = t := by
  rw [← bytesOf_text s, h, bytesOf_text]

theorem textOf_eq_some_iff {b : ByteString} {s : String} : textOf b = some s <-> b = utf8 s := by
  constructor
  · intro h
    unfold textOf String.fromUTF8? at h
    split at h
    · cases h
      rfl
    · cases h
  · intro h
    rw [h]
    show String.fromUTF8? s.toByteArray = some s
    unfold String.fromUTF8?
    rw [dif_pos s.isValidUTF8]
    rfl

theorem utf8_injective {s t : String} (h : utf8 s = utf8 t) : s = t := by
  have hs : textOf (utf8 s) = some s := textOf_eq_some_iff.mpr rfl
  rw [h, textOf_eq_some_iff.mpr rfl] at hs
  exact (Option.some.inj hs).symm

/-!
## Escaping is undone
-/

theorem keeps_percent (mode : Encoding) : keeps mode percent = false := by
  cases mode <;> decide

theorem pathUnescape_pathEscape (s : ByteString) : pathUnescape (pathEscape s) = some s :=
  decode_encode (keeps_percent .pathSegment) s

theorem pathEscape_injective {s t : ByteString} (h : pathEscape s = pathEscape t) : s = t :=
  encode_injective (keeps_percent .pathSegment) h

/-!
## Encoded queries parse back
-/

theorem cut_append {sep : UInt8} {front : ByteString} (h : sep ∉ front) (back : ByteString) :
    cut sep (front ++ sep :: back) = (front, back) := by
  have hall : forall c, c ∈ front -> decide (c ≠ sep) = true := by
    intro c hc
    exact decide_eq_true (fun heq => h (heq ▸ hc))
  have hstop : decide (sep ≠ sep) = false := decide_eq_false (fun hne => hne rfl)
  unfold cut
  rw [List.takeWhile_append_of_pos hall, List.dropWhile_append_of_pos hall,
    List.takeWhile_cons_of_neg (by rw [hstop]; exact Bool.false_ne_true),
    List.dropWhile_cons_of_neg (by rw [hstop]; exact Bool.false_ne_true), List.append_nil]
  rfl

/-- An alphabet that keeps none of the bytes that mean something in a query. -/
structure QueryAlphabet (keep : UInt8 -> Bool) : Prop where
  percent : keep percent = false
  plus : keep 43 = false
  ampersand : keep 38 = false
  semicolon : keep 59 = false
  equals : keep 61 = false

def pairText (keep : UInt8 -> Bool) (p : ByteString × ByteString) : ByteString :=
  encodePlus keep p.1 ++ 61 :: encodePlus keep p.2

theorem queryAlphabet_keeps : QueryAlphabet (keeps .queryComponent) := by
  constructor <;> decide

section

variable {keep : UInt8 -> Bool}

theorem not_mem_pairText {c : UInt8} (hkeep : keep c = false) (hplus : c ≠ 43) (hequals : c ≠ 61)
    (hpercent : c ≠ percent) (hhex : forall n : Fin 16, c ≠ hexDigit n.val)
    (p : ByteString × ByteString) : c ∉ pairText keep p := by
  intro hmem
  rcases List.mem_append.mp hmem with hkey | hrest
  · exact not_mem_encodePlus hkeep hplus hpercent hhex p.1 hkey
  · rcases List.mem_cons.mp hrest with heq | hvalue
    · exact hequals heq
    · exact not_mem_encodePlus hkeep hplus hpercent hhex p.2 hvalue

theorem parsePair_pairText (h : QueryAlphabet keep) (p : ByteString × ByteString) :
    parsePair (pairText keep p) = some p := by
  have hsemicolon : (59 : UInt8) ∉ pairText keep p :=
    not_mem_pairText h.semicolon (by decide) (by decide) (by decide) (by decide) p
  have hne : pairText keep p ≠ [] := by
    intro hnil
    have hmem : (61 : UInt8) ∈ pairText keep p := List.mem_append_right _ List.mem_cons_self
    rw [hnil] at hmem
    cases hmem
  have hcut : cut 61 (pairText keep p) = (encodePlus keep p.1, encodePlus keep p.2) :=
    cut_append (not_mem_encodePlus h.equals (by decide) (by decide) (by decide) p.1)
      (encodePlus keep p.2)
  have hundo : forall s, queryUnescape (encodePlus keep s) = some s :=
    decodePlus_encodePlus h.percent h.plus
  unfold parsePair
  rw [if_neg (not_or.mpr ⟨hsemicolon, hne⟩), hcut]
  simp only [hundo]

end

namespace Values

theorem values_empty (key : ByteString) : values ∅ key = [] := by
  unfold values
  rw [AList.lookup_empty]
  rfl

theorem values_set (v : Values) (key value key' : ByteString) :
    (v.set key value).values key' = if key' = key then [value] else v.values key' := by
  unfold set values
  by_cases hkey : key' = key
  · rw [if_pos hkey, hkey, AList.lookup_insert]
    rfl
  · rw [if_neg hkey, AList.lookup_insert_ne hkey]

theorem values_add (v : Values) (key value key' : ByteString) :
    (v.add key value).values key' =
      v.values key' ++ (if key = key' then [value] else []) := by
  by_cases hkey : key = key'
  · rw [if_pos hkey, ← hkey]
    show ((AList.insert key _ v).lookup key).getD [] = _
    rw [AList.lookup_insert]
    rfl
  · rw [if_neg hkey, List.append_nil]
    show ((AList.insert key _ v).lookup key').getD [] = _
    rw [AList.lookup_insert_ne (fun h => hkey h.symm)]
    rfl

theorem pairs_of_key (v : Values) (key : ByteString) :
    (v.pairs.filter (fun p => decide (p.1 = key))).map Prod.snd = v.values key := by
  have hperm := List.perm_insertionSort
    (fun a b : Sigma (fun _ : ByteString => List ByteString) => a.1 <= b.1) v.entries
  have hnodup := (List.perm_nodupKeys hperm).mpr v.nodupKeys
  have hlookup : v.lookup key = List.dlookup key (v.entries.insertionSort
      (fun a b => a.1 <= b.1)) := (List.perm_dlookup key hnodup hperm).symm
  unfold values pairs
  rw [hlookup]
  generalize v.entries.insertionSort (fun a b => a.1 <= b.1) = entries at hnodup
  induction entries with
  | nil => rfl
  | cons e rest ih =>
      rw [List.nodupKeys_cons] at hnodup
      rw [List.flatMap_cons, List.filter_append, List.map_append, ih hnodup.right]
      by_cases hkey : e.1 = key
      · have hrest : List.dlookup key rest = none := by
          rw [List.dlookup_eq_none, ← hkey]
          exact hnodup.left
        have hall : (e.2.map (fun x => (e.1, x))).filter (fun p => decide (p.1 = key)) =
            e.2.map (fun x => (e.1, x)) := by
          apply List.filter_eq_self.mpr
          intro p hp
          rcases List.mem_map.mp hp with ⟨x, _, hx⟩
          rw [← hx]
          exact decide_eq_true hkey
        rw [hall, hrest, ← hkey, List.map_map, List.dlookup_cons_eq]
        show e.2.map id ++ [] = e.2
        rw [List.map_id, List.append_nil]
      · have hnone : (e.2.map (fun x => (e.1, x))).filter (fun p => decide (p.1 = key)) = [] := by
          apply List.filter_eq_nil_iff.mpr
          intro p hp
          rcases List.mem_map.mp hp with ⟨x, _, hx⟩
          rw [← hx]
          exact fun h => hkey (of_decide_eq_true h)
        rw [hnone, List.dlookup_cons_ne _ _ (fun h => hkey h.symm)]
        rfl

section

variable {keep : UInt8 -> Bool}

theorem values_foldl (h : QueryAlphabet keep) (ps : List (ByteString × ByteString)) (v : Values)
    (key : ByteString) :
    ((ps.map (pairText keep)).foldl addPair v).values key =
      v.values key ++ (ps.filter (fun p => decide (p.1 = key))).map Prod.snd := by
  induction ps generalizing v with
  | nil => exact (List.append_nil _).symm
  | cons p rest ih =>
      rw [List.map_cons, List.foldl_cons, ih]
      have hadd : addPair v (pairText keep p) = v.add p.1 p.2 := by
        unfold addPair
        rw [parsePair_pairText h]
      rw [hadd, values_add, List.append_assoc]
      by_cases hkey : p.1 = key
      · have hp : decide (p.1 = key) = true := decide_eq_true hkey
        rw [if_pos hkey, List.filter_cons, if_pos hp]
        rfl
      · have hp : ¬ decide (p.1 = key) = true := fun h => hkey (of_decide_eq_true h)
        rw [if_neg hkey, List.filter_cons, if_neg hp]
        rfl

theorem values_parseQuery (h : QueryAlphabet keep) (ps : List (ByteString × ByteString))
    (key : ByteString) :
    (parseQuery (List.intercalate [38] (ps.map (pairText keep)))).values key =
      (ps.filter (fun p => decide (p.1 = key))).map Prod.snd := by
  unfold parseQuery
  cases ps with
  | nil => exact values_empty key
  | cons p rest =>
      rw [List.splitOn_intercalate]
      · rw [values_foldl h, values_empty, List.nil_append]
      · intro part hpart
        rcases List.mem_map.mp hpart with ⟨q, _, hq⟩
        rw [← hq]
        exact not_mem_pairText h.ampersand (by decide) (by decide) (by decide) (by decide) q
      · exact fun h => List.cons_ne_nil _ _ h

end

theorem parseQuery_encode (v : Values) (key : ByteString) :
    (parseQuery v.encode).values key = v.values key := by
  rw [← pairs_of_key v]
  exact values_parseQuery queryAlphabet_keeps v.pairs key

end Values

end Go
end LodelineManager
