import LodelineManager.Api.EventsQuery
import LodelineManager.Foundation.ShortestDigits
import LodelineManager.Go.Numbers
import LodelineManager.Web.SearchParams

/-!
# The query of the console and its reader

{lit}`buildQuery` of the console writes what {lit}`parseEventsParams` reads: hosts as repeated
values, the other lists joined with commas, and a limit as JavaScript prints a number.
-/

namespace LodelineManager
namespace Web
namespace BuildQuery

open Foundation Go Api
open ShortestDigits (IsDouble printed)

/-!
## Parameters
-/

/-- A whole number in the range of {lit}`int`, held as a double. -/
structure IntNumber where
  val : Int
  double : IsDouble val.natAbs
  inRange : -2 ^ 63 <= val ∧ val < 2 ^ 63

inductive GuardBucket where
  | low
  | medium
  | high
  | critical

def GuardBucket.text : GuardBucket -> String
  | .low => "low"
  | .medium => "medium"
  | .high => "high"
  | .critical => "critical"

structure EventsParams where
  cursor : Option String := none
  limit : Option IntNumber := none
  hostID : Option (List String) := none
  since : Option String := none
  until_ : Option String := none
  evidenceKind : Option (List String) := none
  severity : Option (List String) := none
  source : Option (List String) := none
  minAiGuardBucket : Option GuardBucket := none

def IntNumber.shown (n : IntNumber) : Int :=
  if n.val < 0 then -(printed n.val.natAbs : Int) else (printed n.val.natAbs : Int)

/-- {lit}`String(n)`. -/
def IntNumber.text (n : IntNumber) : String := String.ofList (appendInt n.shown 1)

/-- {lit}`list.join(',')`. -/
def join (list : List String) : String := ",".intercalate list

/-!
## The query
-/

/-- {lit}`if (value) params.set(name, value)`: the empty text counts as missing. -/
def setText (params : SearchParams) (name : String) (value : Option String) : SearchParams :=
  if value.getD "" = "" then params else params.set name (value.getD "")

/-- {lit}`if (typeof limit === 'number') params.set('limit', String(limit))`. -/
def setLimit (params : SearchParams) (limit : Option IntNumber) : SearchParams :=
  match limit with
  | none => params
  | some n => params.set "limit" n.text

/-- {lit}`if (list?.length) params.set(name, list.join(','))`. -/
def setList (params : SearchParams) (name : String) (list : Option (List String)) :
    SearchParams :=
  if (list.getD []).length = 0 then params else params.set name (join (list.getD []))

/-- {lit}`for (const h of list) params.append(name, h)`. -/
def appendAll (params : SearchParams) (name : String) (list : Option (List String)) :
    SearchParams :=
  if (list.getD []).length = 0 then params
  else (list.getD []).foldl (fun params h => params.append name h) params

def searchParams (p : EventsParams) : SearchParams :=
  let params := setText [] "cursor" p.cursor
  let params := setLimit params p.limit
  let params := setText params "since" p.since
  let params := setText params "until" p.until_
  let params := setList params "evidence_kind" p.evidenceKind
  let params := setList params "severity" p.severity
  let params := setList params "source" p.source
  let params := setText params "min_ai_guard_bucket" (p.minAiGuardBucket.map GuardBucket.text)
  appendAll params "host_id" p.hostID

def buildQuery (p : EventsParams) : ByteString := (searchParams p).toQuery

/-!
## What the console asks for
-/

def entries (list : Option (List String)) : List ByteString := (list.getD []).map utf8

def asked (p : EventsParams) (since until_ : Int) : Fleet.EventsParams :=
  { cursor := utf8 (p.cursor.getD "")
    limit := (p.limit.map IntNumber.val).getD 0
    hostIDs := entries p.hostID
    since := since
    until_ := until_
    evidenceKinds := entries p.evidenceKind
    severity := entries p.severity
    source := entries p.source
    minAiGuardBucket := utf8 ((p.minAiGuardBucket.map GuardBucket.text).getD "") }

/-- The instant of a bound; the zero time stands for a missing one. -/
def Instant (text : Option String) (t : Int) : Prop := parseBound (utf8 (text.getD "")) = some t

/-- Every entry of the lists is nonempty and free of commas and of spaces at its ends. -/
structure Entries (p : EventsParams) : Prop where
  hostID : forall h, h ∈ entries p.hostID -> IsEntry h
  evidenceKind : forall k, k ∈ entries p.evidenceKind -> IsEntry k
  severity : forall s, s ∈ entries p.severity -> IsEntry s
  source : forall s, s ∈ entries p.source -> IsEntry s

/-!
## Limits
-/

theorem parseLimit_text_iff (n : IntNumber) :
    parseLimit (utf8 n.text) = some n.val <-> n.shown = n.val := by
  have hascii : Ascii n.text := by
    intro c hc
    unfold IntNumber.text at hc
    rw [String.toList_ofList] at hc
    exact ascii_of_mem_appendInt hc
  have hne : utf8 n.text ≠ [] := by
    rw [utf8_ascii hascii]
    unfold IntNumber.text
    rw [bytesOf_ofList]
    exact fun h => appendInt_ne_nil n.shown (List.map_eq_nil_iff.mp h)
  have hparse : parseLimit (utf8 n.text) =
      if -2 ^ 63 <= n.shown ∧ n.shown < 2 ^ 63 then some n.shown else none := by
    unfold parseLimit
    rw [if_neg hne, utf8_ascii hascii]
    exact atoi_appendInt n.shown
  rw [hparse]
  constructor
  · intro h
    split at h
    · exact Option.some.inj h
    · cases h
  · intro h
    rw [h, if_pos n.inRange]

theorem shown_of_safe {n : IntNumber} (h : n.val.natAbs < 2 ^ 53) : n.shown = n.val := by
  unfold IntNumber.shown
  rw [ShortestDigits.printed_of_lt h]
  split
  · omega
  · omega

/-!
## Values of the query
-/

section

variable {params : SearchParams} {name name' : String}

open SearchParams

theorem getAll_setText (value : Option String) :
    getAll (setText params name value) name =
      if value.getD "" = "" then getAll params name else [value.getD ""] := by
  unfold setText
  split
  · rfl
  · exact getAll_set params name _

theorem getAll_setText_ne (value : Option String) (h : name' ≠ name) :
    getAll (setText params name value) name' = getAll params name' := by
  unfold setText
  split
  · rfl
  · exact getAll_set_ne params _ h

theorem getAll_setLimit (limit : Option IntNumber) :
    getAll (setLimit params limit) "limit" =
      match limit with
      | none => getAll params "limit"
      | some n => [n.text] := by
  cases limit with
  | none => rfl
  | some n => exact getAll_set params "limit" n.text

theorem getAll_setLimit_ne (limit : Option IntNumber) (h : name' ≠ "limit") :
    getAll (setLimit params limit) name' = getAll params name' := by
  cases limit with
  | none => rfl
  | some n => exact getAll_set_ne params n.text h

theorem getAll_setList (list : Option (List String)) :
    getAll (setList params name list) name =
      if (list.getD []).length = 0 then getAll params name else [join (list.getD [])] := by
  unfold setList
  split
  · rfl
  · exact getAll_set params name _

theorem getAll_setList_ne (list : Option (List String)) (h : name' ≠ name) :
    getAll (setList params name list) name' = getAll params name' := by
  unfold setList
  split
  · rfl
  · exact getAll_set_ne params _ h

theorem getAll_foldl (list : List String) (params : SearchParams) :
    getAll (list.foldl (fun params h => params.append name h) params) name' =
      getAll params name' ++ if name = name' then list else [] := by
  induction list generalizing params with
  | nil =>
      rw [ite_self, List.append_nil]
      rfl
  | cons h rest ih =>
      rw [List.foldl_cons, ih, getAll_append, List.append_assoc]
      split
      · rfl
      · rfl

theorem getAll_appendAll (list : Option (List String)) :
    getAll (appendAll params name list) name = getAll params name ++ list.getD [] := by
  unfold appendAll
  split
  · rename_i hempty
    rw [List.length_eq_zero_iff.mp hempty, List.append_nil]
  · rw [getAll_foldl, if_pos rfl]

theorem getAll_appendAll_ne (list : Option (List String)) (h : name' ≠ name) :
    getAll (appendAll params name list) name' = getAll params name' := by
  unfold appendAll
  split
  · rfl
  · rw [getAll_foldl, if_neg (fun heq => h heq.symm), List.append_nil]

end

theorem headD_text (text : String) : (if text = "" then [] else [text]).headD "" = text := by
  split
  · rename_i h
    exact h.symm
  · rfl

theorem headD_join (list : List String) :
    (if list.length = 0 then [] else [join list]).headD "" = join list := by
  split
  · rename_i h
    rw [List.length_eq_zero_iff.mp h]
    rfl
  · rfl

/-- The first value of each name, and all of the hosts. -/
structure Carries (p : EventsParams) (params : SearchParams) : Prop where
  cursor : (params.getAll "cursor").headD "" = p.cursor.getD ""
  limit : (params.getAll "limit").headD "" = (p.limit.map IntNumber.text).getD ""
  since : (params.getAll "since").headD "" = p.since.getD ""
  until_ : (params.getAll "until").headD "" = p.until_.getD ""
  evidenceKind : (params.getAll "evidence_kind").headD "" = join (p.evidenceKind.getD [])
  severity : (params.getAll "severity").headD "" = join (p.severity.getD [])
  source : (params.getAll "source").headD "" = join (p.source.getD [])
  minAiGuardBucket : (params.getAll "min_ai_guard_bucket").headD "" =
    (p.minAiGuardBucket.map GuardBucket.text).getD ""
  hostID : params.getAll "host_id" = p.hostID.getD []

theorem carries_searchParams (p : EventsParams) : Carries p (searchParams p) := by
  have hnil : forall name, SearchParams.getAll [] name = [] := fun _ => rfl
  have hlimit : (match p.limit with
      | none => []
      | some n => [n.text]).headD "" = (p.limit.map IntNumber.text).getD "" := by
    cases p.limit <;> rfl
  unfold searchParams
  constructor
  all_goals
    simp (disch := decide) only [getAll_appendAll, getAll_appendAll_ne, getAll_setText_ne,
      getAll_setLimit_ne, getAll_setList_ne, getAll_setText, getAll_setList, getAll_setLimit,
      hnil, headD_text, headD_join, hlimit, List.nil_append]

/-!
## What the handler reads
-/

section

variable (p : EventsParams)

theorem get_buildQuery {key : String} (hkey : Ascii key) {text : String}
    (h : ((searchParams p).getAll key).headD "" = text) :
    (parseQuery (buildQuery p)).get (bytesOf key) = utf8 text := by
  have hvalues := SearchParams.values_toQuery (searchParams p) key
  rw [utf8_ascii hkey] at hvalues
  unfold Values.get buildQuery
  rw [hvalues, ← h]
  cases (searchParams p).getAll key <;> rfl

theorem values_hostID :
    (parseQuery (buildQuery p)).values (bytesOf "host_id") = entries p.hostID := by
  have hkey : Ascii "host_id" := ascii_of_all (by decide +kernel)
  have hvalues := SearchParams.values_toQuery (searchParams p) "host_id"
  rw [utf8_ascii hkey, (carries_searchParams p).hostID] at hvalues
  exact hvalues

theorem flatMap_intercalate {item byte : Type} (f : item -> List byte) (sep : List item)
    (parts : List (List item)) :
    (sep.intercalate parts).flatMap f =
      (sep.flatMap f).intercalate (parts.map (fun part => part.flatMap f)) := by
  induction parts with
  | nil => rfl
  | cons part rest ih =>
      cases rest with
      | nil =>
          rw [List.map_singleton, List.intercalate_singleton, List.intercalate_singleton]
      | cons next rest =>
          rw [List.map_cons, List.map_cons, List.intercalate_cons_cons,
            List.intercalate_cons_cons, List.flatMap_append, List.flatMap_append, ih]
          rfl

theorem utf8_join (list : List String) : utf8 (join list) = Fleet.joinComma (list.map utf8) := by
  unfold join Fleet.joinComma
  rw [utf8_eq_flatMap, String.toList_intercalate, flatMap_intercalate, List.map_map]
  congr 1
  apply List.map_congr_left
  intro text _
  exact (utf8_eq_flatMap text).symm

theorem splitComma_join {list : Option (List String)} (h : forall x, x ∈ entries list -> IsEntry x) :
    splitComma (utf8 (join (list.getD []))) = entries list := by
  rw [utf8_join]
  exact splitComma_joinComma h

theorem hostIDs_buildQuery (h : forall x, x ∈ entries p.hostID -> IsEntry x) :
    hostIDs (parseQuery (buildQuery p)) = entries p.hostID := by
  have hsingle : forall x, x ∈ entries p.hostID -> splitComma x = [x] := by
    intro x hx
    have hone : forall y, y ∈ [x] -> IsEntry y := by
      intro y hy
      rw [List.mem_singleton.mp hy]
      exact h x hx
    have hjoin : Fleet.joinComma [x] = x := List.intercalate_singleton
    exact (congrArg splitComma hjoin).symm.trans (splitComma_joinComma hone)
  rw [hostIDs_eq, values_hostID, List.flatMap_congr hsingle, List.flatMap_singleton']

theorem parse_buildQuery (hentries : Entries p) {since until_ : Int} (hsince : Instant p.since since)
    (huntil : Instant p.until_ until_) :
    parseEventsParams (buildQuery p) =
      match parseLimit (utf8 ((p.limit.map IntNumber.text).getD "")) with
      | none => .error "limit must be an integer"
      | some limit => .ok { asked p since until_ with limit := limit } := by
  have hread := carries_searchParams p
  have hascii : Ascii "cursor" ∧ Ascii "limit" ∧ Ascii "since" ∧ Ascii "until" ∧
      Ascii "evidence_kind" ∧ Ascii "severity" ∧ Ascii "source" ∧ Ascii "min_ai_guard_bucket" := by
    refine ⟨?_, ?_, ?_, ?_, ?_, ?_, ?_, ?_⟩
    all_goals exact ascii_of_all (by decide +kernel)
  rcases hascii with ⟨hc, hl, hs, hu, hk, hv, ho, hb⟩
  unfold parseEventsParams
  simp only [get_buildQuery p hc hread.cursor, get_buildQuery p hl hread.limit,
    get_buildQuery p hs hread.since, get_buildQuery p hu hread.until_,
    get_buildQuery p hk hread.evidenceKind, get_buildQuery p hv hread.severity,
    get_buildQuery p ho hread.source, get_buildQuery p hb hread.minAiGuardBucket]
  rw [hsince, huntil, hostIDs_buildQuery p hentries.hostID, splitComma_join hentries.evidenceKind,
    splitComma_join hentries.severity, splitComma_join hentries.source]
  rfl

theorem with_limit_iff {limit : Option Int} {e : String} (r : Fleet.EventsParams) :
    (match limit with
      | none => Except.error e
      | some limit => Except.ok { r with limit := limit }) = Except.ok r <->
      limit = some r.limit := by
  cases limit with
  | none => exact iff_of_false (fun h => nomatch h) (fun h => nomatch h)
  | some limit =>
      constructor
      · intro h
        exact congrArg some (congrArg Fleet.EventsParams.limit (Except.ok.inj h))
      · intro h
        rw [Option.some.inj h]

/-- The handler reads what the console asks for exactly when JavaScript prints the limit with
its own digits, as it does below {lit}`2 ^ 53`. -/
theorem query_read_iff (hentries : Entries p) {since until_ : Int} (hsince : Instant p.since since)
    (huntil : Instant p.until_ until_) :
    (parseEventsParams (buildQuery p) = .ok (asked p since until_) <->
      forall n, p.limit = some n -> n.shown = n.val) ∧
    forall n, p.limit = some n -> n.val.natAbs < 2 ^ 53 -> n.shown = n.val := by
  refine ⟨?_, fun n _ hsafe => shown_of_safe hsafe⟩
  have hasked : (asked p since until_).limit = (p.limit.map IntNumber.val).getD 0 := rfl
  rw [parse_buildQuery p hentries hsince huntil, with_limit_iff, hasked]
  cases p.limit with
  | none => exact iff_of_true rfl (fun n hn => nomatch hn)
  | some limit =>
      show parseLimit (utf8 limit.text) = some limit.val <-> _
      rw [parseLimit_text_iff]
      constructor
      · intro h n hn
        rw [← Option.some.inj hn]
        exact h
      · intro h
        exact h limit rfl

end

def pageOfTwo : EventsParams :=
  { limit := some ⟨50, by decide, by decide⟩, hostID := some ["a b", "é"]
    since := some "2026-01-01T00:00:00Z", severity := some ["warn", "crit"]
    minAiGuardBucket := some .high }

theorem pageOfTwo_entries : Entries pageOfTwo := by
  have hall : forall x, x ∈ entries pageOfTwo.hostID ++ entries pageOfTwo.severity ->
      Trimmed x ∧ x ≠ [] ∧ comma ∉ x := by
    unfold Trimmed
    decide +kernel
  constructor
  · intro x hx
    rcases hall x (List.mem_append_left _ hx) with ⟨htrimmed, hne, hcomma⟩
    exact ⟨htrimmed, hne, hcomma⟩
  · intro x hx
    cases hx
  · intro x hx
    rcases hall x (List.mem_append_right _ hx) with ⟨htrimmed, hne, hcomma⟩
    exact ⟨htrimmed, hne, hcomma⟩
  · intro x hx
    cases hx

theorem query_read_pageOfTwo :
    parseEventsParams (buildQuery pageOfTwo) =
      .ok (asked pageOfTwo 1767225600000000000 zeroTime) := by
  have hsince : Instant pageOfTwo.since 1767225600000000000 := by
    unfold Instant
    decide +kernel
  rcases query_read_iff pageOfTwo pageOfTwo_entries hsince rfl with ⟨hread, hsafe⟩
  apply hread.mpr
  intro n hn
  apply hsafe n hn
  rw [← Option.some.inj hn]
  decide

def largeLimit : EventsParams := { limit := some ⟨2 ^ 62, by decide +kernel, by decide⟩ }

/-- The handler reads another limit than the console has. -/
theorem not_query_read :
    ¬ forall (p : EventsParams) (since until_ : Int), Entries p -> Instant p.since since ->
      Instant p.until_ until_ -> parseEventsParams (buildQuery p) = .ok (asked p since until_) := by
  intro h
  have hentries : Entries largeLimit := by
    constructor
    all_goals
      intro x hx
      cases hx
  have hread := h largeLimit zeroTime zeroTime hentries rfl rfl
  rw [parse_buildQuery largeLimit hentries rfl rfl, with_limit_iff] at hread
  exact absurd hread (by decide +kernel)

end BuildQuery
end Web
end LodelineManager
