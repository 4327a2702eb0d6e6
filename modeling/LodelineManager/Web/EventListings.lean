import LodelineManager.Api.EventsRelay
import LodelineManager.Web.Alerts
import LodelineManager.Web.FleetListings

/-!
# The listings of events

The queue of alerts and the timelines list the same events, page by page.  A page of the
server gets the triage of its events on the way, the browser drops what it has already
loaded, and the rest of the filter is applied to what is left.
-/

namespace LodelineManager
namespace Web

open Foundation SingleConnection Go JSON Triage Fleet Wire Api BuildQuery

/-!
## What the handler reads
-/

section

variable {p : BuildQuery.EventsParams} {n : Int}

def sentEntries (list : List String) : List ByteString :=
  list.flatMap (fun text => splitComma (utf8 text))

/-- The parameters of the console for a limit that is read, whatever its lists hold. -/
theorem parse_sent (hn : parseLimit (limitText p.limit) = some n) :
    parseEventsParams (buildQuery p) =
      match parseBound (utf8 (p.since.getD "")) with
      | none => .error "since must be RFC3339"
      | some since =>
          match parseBound (utf8 (p.until_.getD "")) with
          | none => .error "until must be RFC3339"
          | some until_ =>
              .ok
                { cursor := utf8 (p.cursor.getD ""), limit := n
                  hostIDs := sentEntries (p.hostID.getD []), since := since, until_ := until_
                  evidenceKinds := sentEntries (p.evidenceKind.getD [])
                  severity := sentEntries (p.severity.getD [])
                  source := sentEntries (p.source.getD [])
                  minAiGuardBucket :=
                    utf8 ((p.minAiGuardBucket.map GuardBucket.text).getD "") } := by
  have hread := carries_searchParams p
  have hascii : Ascii "cursor" ∧ Ascii "limit" ∧ Ascii "since" ∧ Ascii "until" ∧
      Ascii "evidence_kind" ∧ Ascii "severity" ∧ Ascii "source" ∧ Ascii "min_ai_guard_bucket" := by
    refine ⟨?_, ?_, ?_, ?_, ?_, ?_, ?_, ?_⟩
    all_goals exact ascii_of_all (by decide +kernel)
  rcases hascii with ⟨hc, hl, hs, hu, hk, hv, ho, hb⟩
  have hhosts : hostIDs (parseQuery (buildQuery p)) = sentEntries (p.hostID.getD []) := by
    rw [hostIDs_eq, values_hostID]
    exact List.flatMap_map _ _ _
  unfold parseEventsParams
  simp only [get_buildQuery p hc hread.cursor, get_buildQuery p hl hread.limit,
    get_buildQuery p hs hread.since, get_buildQuery p hu hread.until_,
    get_buildQuery p hk hread.evidenceKind, get_buildQuery p hv hread.severity,
    get_buildQuery p ho hread.source, get_buildQuery p hb hread.minAiGuardBucket,
    hhosts, splitComma_list]
  rw [show parseLimit (utf8 ((p.limit.map IntNumber.text).getD "")) = some n from hn]
  rfl

end

/-!
## The views
-/

/-- {lit}`alerts_definition_default` of the metadata. -/
structure AlertsDefinition where
  evidenceKinds : Option (List String)
  additionalKinds : Option (List String)

def evidenceKindsOf : Option AlertsDefinition -> List String
  | none => ["ai_guard_risk_assessed"]
  | some m => keepFirst id [] (m.evidenceKinds.getD [] ++ m.additionalKinds.getD [])

structure FleetEventsFilter where
  evidenceKinds : List String
  hostIDs : List String
  since : Option String
  until_ : Option String
  tool : Option String

/-- The queue of alerts with what its requests depend on, and a timeline. -/
inductive EventsView where
  | alerts (definition : Option AlertsDefinition) (minBucket : GuardBucket)
      (since : Option String) (filter : AlertFilter)
  | timeline (filter : FleetEventsFilter)

def unlessEmpty (list : List String) : Option (List String) :=
  if list.length = 0 then none else some list

namespace EventsView

def params : EventsView -> BuildQuery.EventsParams
  | .alerts definition minBucket since _ =>
      { limit := some hundred, evidenceKind := some (evidenceKindsOf definition)
        minAiGuardBucket := some minBucket, since := since }
  | .timeline filter =>
      { limit := some hundred, evidenceKind := unlessEmpty filter.evidenceKinds
        hostID := unlessEmpty filter.hostIDs, since := filter.since, until_ := filter.until_ }

/-- The query of {lit}`fetchPage`. -/
def request (view : EventsView) (cursor : Option String) : ByteString :=
  buildQuery { view.params with cursor := cursor }

def hosts : EventsView -> List String
  | .alerts _ _ _ _ => []
  | .timeline filter => filter.hostIDs

def kinds : EventsView -> List String
  | .alerts definition _ _ _ => evidenceKindsOf definition
  | .timeline filter => filter.evidenceKinds

def bucket : EventsView -> ByteString
  | .alerts _ minBucket _ _ => utf8 minBucket.text
  | .timeline _ => []

/-- The call of the fleet client for a view, with these hosts and kinds, or the error for a
bound that is no time. -/
def asked (view : EventsView) (hosts kinds : List ByteString) (cursor : ByteString) :
    Except String Fleet.EventsParams :=
  match parseBound (utf8 (view.params.since.getD "")) with
  | none => .error "since must be RFC3339"
  | some since =>
      match parseBound (utf8 (view.params.until_.getD "")) with
      | none => .error "until must be RFC3339"
      | some until_ =>
          .ok
            { cursor := cursor, limit := 100, hostIDs := hosts, since := since, until_ := until_
              evidenceKinds := kinds, severity := [], source := []
              minAiGuardBucket := view.bucket }

theorem unlessEmpty_getD (list : List String) : (unlessEmpty list).getD [] = list := by
  unfold unlessEmpty
  split
  · rename_i hempty
    exact (List.length_eq_zero_iff.mp hempty).symm
  · rfl

theorem read_request (view : EventsView) (cursor : Option String) :
    exists hosts kinds, parseEventsParams (view.request cursor) =
        view.asked hosts kinds (utf8 (cursor.getD "")) ∧
      (hosts = view.hosts.map utf8 <-> forall host, host ∈ view.hosts -> IsEntry (utf8 host)) ∧
      (kinds = view.kinds.map utf8 <->
        forall kind, kind ∈ view.kinds -> IsEntry (utf8 kind)) := by
  refine ⟨sentEntries view.hosts, sentEntries view.kinds, ?_, splitComma_texts_iff _,
    splitComma_texts_iff _⟩
  cases view with
  | alerts definition minBucket since filter =>
      exact parse_sent (p := { EventsView.params (.alerts definition minBucket since filter)
        with cursor := cursor }) Tab.parseLimit_hundred
  | timeline filter =>
      refine (parse_sent (p := { EventsView.params (.timeline filter) with cursor := cursor })
        Tab.parseLimit_hundred).trans ?_
      simp only [asked, params, hosts, kinds, unlessEmpty_getD]
      rfl

end EventsView

/-!
## Rows of the browser
-/

/-- What the language makes of texts and values; the listings work for any such functions. -/
structure Script where
  toLowerCase : String -> String
  /-- {lit}`JSON.stringify`. -/
  stringify : Value -> Triage.RawMessage
  /-- {lit}`String(x)`, which throws on an object whose {lit}`toString` is no function. -/
  toText : Value -> Option String

section

variable (script : Script)

def textAt (name : String) (v : Value) : Option String := (get? name v).bind asText

def evidenceOf (v : Value) : Evidence :=
  { kind := textAt "kind" v, bucket := textAt "bucket" v, json := some (script.stringify v) }

def rowOf (w : Value) : EventWithTriage :=
  { eventID := (textAt "event_id" w).getD "", ts := (textAt "ts" w).getD ""
    hostID := (textAt "host_id" w).getD "", severity := (textAt "severity" w).getD ""
    evidence := evidenceOf script ((get? "evidence" w).getD .null)
    triage := (get? "triage" w).bind (fun t => (textAt "status" t).map Status.mk) }

/-- {lit}`page.events`, as far as it is a list. -/
def listedValues (page : Value) : Option (List Value) :=
  match get? "events" page with
  | some (.array ws) => some ws
  | _ => none

def pageOf (page : Value) : EventsPage :=
  { events := (listedValues page).map (fun ws => ws.map (rowOf script))
    nextCursor := textAt "next_cursor" page }

/-- {lit}`row.evidence.tool ?? row.evidence.agent ?? ''`. -/
def toolOf (evidence : Value) : Value :=
  match get? "tool" evidence with
  | some .null | none =>
      match get? "agent" evidence with
      | some .null | none => ofText ""
      | some agent => agent
  | some tool => tool

/-- {lit}`row.evidence`. -/
def evidenceIn (w : Value) : Value := (get? "evidence" w).getD .null

/-- The tool that a row is filtered by.  There is none when the lookup throws on
{lit}`null`, or the text cannot be made. -/
def lowerToolOf (evidence : Value) : Option String :=
  if evidence.isNull then none else (script.toText (toolOf evidence)).map script.toLowerCase

/-- {lit}`rowID`. -/
def valueIdentity (w : Value) : String :=
  (textAt "host_id" w).getD "" ++ ":" ++ (textAt "event_id" w).getD ""

/-- {lit}`filter.tool?.toLowerCase()`; the empty text counts as missing. -/
def FleetEventsFilter.lowerTool (filter : FleetEventsFilter) : String :=
  (filter.tool.map script.toLowerCase).getD ""

def statusAdmits (filter : AlertFilter) (status : Option Status) : Bool :=
  decide (filter.triageStatuses = []) || decide (status.getD statusOpen ∈ filter.triageStatuses)

/-- The search throws on a row whose ids do not settle it, for {lit}`toLowerCase` of a kind
that is neither missing nor a text. -/
def searchThrows (filter : AlertFilter) (ids : List String) (evidence : Value) : Bool :=
  let query := script.toLowerCase (trim filter.query)
  if query = "" || ids.any (fun text => includes (script.toLowerCase text) query) then false
  else
    match get? "kind" evidence with
    | none | some .null | some (.string _) => false
    | some _ => true

/-- The rows of the listing, unless its filter throws. -/
def EventsView.rows (view : EventsView) (pages : List Value) : Option (List EventWithTriage) :=
  let loaded := keepFirst valueIdentity [] (pages.flatMap (fun p => (listedValues p).getD []))
  match view with
  | .alerts _ _ _ filter =>
      if loaded.any (fun w => statusAdmits filter (rowOf script w).triage &&
          searchThrows script filter [(rowOf script w).eventID, (rowOf script w).hostID]
            (evidenceIn w)) then none
      else
        some (applyClientFilter script.toLowerCase (pagedRows (pages.map (pageOf script))) filter)
  | .timeline filter =>
      if filter.lowerTool script = "" then some (loaded.map (rowOf script))
      else if loaded.any (fun w => (lowerToolOf script (evidenceIn w)).isNone) then none
      else
        some ((loaded.filter (fun w => decide
          (lowerToolOf script (evidenceIn w) = some (filter.lowerTool script)))).map
            (rowOf script))

/-!
## What the rows should be
-/

def eventIdentityIn (x : Value × Option TriageView) : String :=
  textIn "host_id" x.1 ++ ":" ++ textIn "event_id" x.1

def firstEvents (answers : List (Document × Lookups)) : List (Value × Option TriageView) :=
  keepFirst eventIdentityIn [] (answers.flatMap (fun a => a.2.joined (eventsIn (value a.1))))

def searched (x : Value × Option TriageView) : List String :=
  [textIn "event_id" x.1, textIn "host_id" x.1] ++ (textAt "kind" (rawIn "evidence" x.1)).toList

def EventsView.admits (view : EventsView) (x : Value × Option TriageView) : Bool :=
  match view with
  | .alerts _ _ _ filter =>
      let query := script.toLowerCase (trim filter.query)
      statusAdmits filter (x.2.map TriageView.status) &&
      (decide (query = "") ||
        (searched x).any (fun text => includes (script.toLowerCase text) query))
  | .timeline filter =>
      decide (filter.lowerTool script = "") ||
        decide (lowerToolOf script (rawIn "evidence" x.1) = some (filter.lowerTool script))

/-- An event that the filter of a view throws on. -/
def EventsView.Breaks (view : EventsView) (x : Value × Option TriageView) : Prop :=
  match view with
  | .alerts _ _ _ filter =>
      statusAdmits filter (x.2.map TriageView.status) = true ∧
        searchThrows script filter [textIn "event_id" x.1, textIn "host_id" x.1]
          (rawIn "evidence" x.1) = true
  | .timeline filter =>
      filter.lowerTool script ≠ "" ∧ lowerToolOf script (rawIn "evidence" x.1) = none

/-- The row has the ids, the evidence and the time of the event, and the status that was
stored for it. -/
structure RowShows (x : Value × Option TriageView) (row : EventWithTriage) : Prop where
  eventID : row.eventID = textIn "event_id" x.1
  hostID : row.hostID = textIn "host_id" x.1
  severity : row.severity = textIn "severity" x.1
  ts : asInstant (ofText row.ts) = some (instantIn "ts" x.1)
  evidence : row.evidence = evidenceOf script (rawIn "evidence" x.1)
  triage : row.triage = x.2.map TriageView.status

end

/-!
## Rows of an answer
-/

section

variable {script : Script}

/-- What is said of an answered event. -/
def EventShows (x : Value × Option TriageView) (w : Value) : Prop :=
  EventKept x.1 w ∧ TriageShown x.2 w

theorem EventShows.texts {x : Value × Option TriageView} {w : Value} (h : EventShows x w) :
    textAt "event_id" w = some (textIn "event_id" x.1) ∧
      textAt "host_id" w = some (textIn "host_id" x.1) ∧
      textAt "severity" w = some (textIn "severity" x.1) := by
  unfold textAt
  rw [h.left.eventID, h.left.hostID, h.left.severity]
  exact ⟨asText_ofText _, asText_ofText _, asText_ofText _⟩

theorem EventShows.evidence {x : Value × Option TriageView} {w : Value} (h : EventShows x w) :
    evidenceIn w = rawIn "evidence" x.1 := by
  unfold evidenceIn
  rw [h.left.evidence]
  rfl

theorem EventShows.row {x : Value × Option TriageView} {w : Value} (h : EventShows x w) :
    RowShows script x (rowOf script w) := by
  rcases h.texts with ⟨heventID, hhostID, hseverity⟩
  constructor
  · exact congrArg (fun o => o.getD "") heventID
  · exact congrArg (fun o => o.getD "") hhostID
  · exact congrArg (fun o => o.getD "") hseverity
  · rcases h.left.instant with ⟨ts, hts, hinstant⟩
    have htext : (rowOf script w).ts = (asText ts).getD "" := by
      show (textAt "ts" w).getD "" = _
      unfold textAt
      rw [hts]
      rfl
    rw [htext, ← hinstant]
    cases ts with
    | string u =>
        show parseTime (Utf16.decode (Utf16.codes (String.ofList (Utf16.decode u)).toList)) = _
        rw [Utf16.decode_codes, String.toList_ofList]
        rfl
    | _ => cases hinstant
  · exact congrArg (evidenceOf script) h.evidence
  · have htriage := h.right
    unfold TriageShown at htriage
    show (get? "triage" w).bind _ = _
    cases hview : x.2 with
    | none =>
        rw [hview] at htriage
        rw [htriage]
        rfl
    | some view =>
        rw [hview] at htriage
        rcases htriage with ⟨t, ht, hshown⟩
        rw [ht, Option.bind_some]
        unfold textAt
        rw [hshown.status, Option.bind_some, asText_ofText]
        rfl

theorem firstRows_show {xs : List (Value × Option TriageView)} {ws : List Value}
    (h : List.Forall₂ EventShows xs ws) :
    List.Forall₂ EventShows (keepFirst eventIdentityIn [] xs) (keepFirst valueIdentity [] ws) := by
  refine forall₂_keepFirst ?_ h []
  intro x w hshows
  rcases hshows.texts with ⟨heventID, hhostID, _⟩
  unfold eventIdentityIn valueIdentity
  rw [heventID, hhostID]
  rfl

theorem keepFirst_rowOf (ws : List Value) (seen : List String) :
    keepFirst eventIdentity seen (ws.map (rowOf script)) =
      (keepFirst valueIdentity seen ws).map (rowOf script) := by
  induction ws generalizing seen with
  | nil => rfl
  | cons w rest ih =>
      have hsame : eventIdentity (rowOf script w) = valueIdentity w := rfl
      rw [List.map_cons]
      unfold keepFirst
      rw [hsame]
      split
      · exact ih seen
      · rw [List.map_cons, ih]

def loadedValues (pages : List Value) : List Value :=
  pages.flatMap (fun p => (listedValues p).getD [])

theorem pagedRows_pageOf (pages : List Value) :
    pagedRows (pages.map (pageOf script)) =
      (keepFirst valueIdentity [] (loadedValues pages)).map (rowOf script) := by
  have hloaded : (pages.map (pageOf script)).flatMap selectEvents =
      (loadedValues pages).map (rowOf script) := by
    unfold loadedValues
    rw [List.flatMap_map, List.map_flatMap]
    apply List.flatMap_congr
    intro p _
    show ((listedValues p).map _).getD [] = _
    cases listedValues p <;> rfl
  unfold pagedRows
  rw [hloaded, keepFirst_rowOf]

theorem applyClientFilter_eq (toLowerCase : String -> String) (rows : List EventWithTriage)
    (f : AlertFilter) :
    applyClientFilter toLowerCase rows f = rows.filter (fun ev =>
      statusAdmits f ev.triage &&
      (decide (toLowerCase (trim f.query) = "") ||
        matchesQuery toLowerCase (toLowerCase (trim f.query)) ev)) := by
  unfold applyClientFilter
  generalize toLowerCase (trim f.query) = query
  have hstatus : (if f.triageStatuses.length > 0 then rows.filter (matchesStatus f) else rows) =
      rows.filter (fun ev => statusAdmits f ev.triage) := by
    unfold statusAdmits matchesStatus
    cases f.triageStatuses with
    | nil => exact (List.filter_eq_self.mpr (fun _ _ => rfl)).symm
    | cons s rest => rfl
  simp only
  rw [hstatus]
  by_cases hquery : query = ""
  · rw [hquery]
    simp
  · have hlong : query.length > 0 := by
      rw [gt_iff_lt, Nat.pos_iff_ne_zero, ne_eq, String.length_eq_zero_iff]
      exact hquery
    rw [if_pos hlong, List.filter_filter]
    simp only [hquery, decide_false, Bool.false_or, Bool.and_comm]

theorem matchesQuery_eq (toLowerCase : String -> String) (query : String)
    {x : Value × Option TriageView} {row : EventWithTriage} (h : RowShows script x row) :
    matchesQuery toLowerCase query row =
      (searched x).any (fun text => includes (toLowerCase text) query) := by
  have hkind : row.evidence.kind = textAt "kind" (rawIn "evidence" x.1) := by
    rw [h.evidence]
    rfl
  unfold matchesQuery searched
  rw [h.eventID, h.hostID, hkind]
  cases textAt "kind" (rawIn "evidence" x.1) with
  | none => simp [Bool.if_true_left]
  | some kind => simp [Bool.if_true_left]

theorem any_iff_of_forall₂ {α β : Type} {R : α -> β -> Prop} {p : α -> Bool} {q : β -> Bool}
    (hsame : forall x y, R x y -> p x = q y) {xs : List α} {ys : List β}
    (h : List.Forall₂ R xs ys) : ys.any q = true <-> exists x, x ∈ xs ∧ p x = true := by
  have hany : xs.any p = ys.any q := by
    induction h with
    | nil => rfl
    | cons hxy _ ih => rw [List.any_cons, List.any_cons, hsame _ _ hxy, ih]
  rw [← hany]
  exact List.any_eq_true

section

variable {xs : List (Value × Option TriageView)} {pages : List Value}

theorem guarded_show {α β : Type} {R : α -> β -> Prop} {xs : List α} {out : List β} {b : Bool}
    (h : List.Forall₂ R xs out) :
    ((if b then none else some out) = none <-> b = true) ∧
      forall rows, (if b then none else some out) = some rows -> List.Forall₂ R xs rows := by
  cases b with
  | true =>
      constructor
      · exact iff_of_true rfl rfl
      · intro rows hsome
        cases hsome
  | false =>
      constructor
      · exact iff_of_false (Option.some_ne_none _) Bool.false_ne_true
      · intro rows hsome
        rw [← Option.some.inj hsome]
        exact h

/-- The queue fails where a search throws, and otherwise shows what its filter admits. -/
theorem alerts_show (definition : Option AlertsDefinition) (minBucket : GuardBucket)
    (since : Option String) (filter : AlertFilter)
    (h : List.Forall₂ EventShows xs (keepFirst valueIdentity [] (loadedValues pages))) :
    ((EventsView.alerts definition minBucket since filter).rows script pages = none <->
      exists x, x ∈ xs ∧
        (EventsView.alerts definition minBucket since filter).Breaks script x) ∧
    forall rows, (EventsView.alerts definition minBucket since filter).rows script pages =
        some rows ->
      List.Forall₂ (RowShows script)
        (xs.filter ((EventsView.alerts definition minBucket since filter).admits script)) rows := by
  have hthrows : (keepFirst valueIdentity [] (loadedValues pages)).any (fun w =>
        statusAdmits filter (rowOf script w).triage &&
          searchThrows script filter [(rowOf script w).eventID, (rowOf script w).hostID]
            (evidenceIn w)) = true <->
      exists x, x ∈ xs ∧
        (EventsView.alerts definition minBucket since filter).Breaks script x := by
    refine (any_iff_of_forall₂ (p := fun x => statusAdmits filter (x.2.map TriageView.status) &&
      searchThrows script filter [textIn "event_id" x.1, textIn "host_id" x.1]
        (rawIn "evidence" x.1)) ?_ h).trans ?_
    · intro x w hxw
      have hrow : RowShows script x (rowOf script w) := hxw.row
      simp only [hrow.triage, hrow.eventID, hrow.hostID, hxw.evidence]
    · simp only [Bool.and_eq_true]
      exact Iff.rfl
  have hrows : List.Forall₂ (RowShows script)
      (xs.filter ((EventsView.alerts definition minBucket since filter).admits script))
      (applyClientFilter script.toLowerCase (pagedRows (pages.map (pageOf script))) filter) := by
    have hshown : List.Forall₂ (RowShows script) xs
        ((keepFirst valueIdentity [] (loadedValues pages)).map (rowOf script)) :=
      List.forall₂_map_right_iff.mpr (h.imp (fun _ _ => EventShows.row))
    rw [pagedRows_pageOf, applyClientFilter_eq]
    refine List.rel_filter ?_ hshown
    intro x row hrow
    simp only [EventsView.admits, matchesQuery_eq _ _ hrow, hrow.triage]
  rw [← hthrows]
  exact guarded_show hrows

theorem timeline_show (filter : FleetEventsFilter)
    (h : List.Forall₂ EventShows xs (keepFirst valueIdentity [] (loadedValues pages))) :
    ((EventsView.timeline filter).rows script pages = none <->
      exists x, x ∈ xs ∧ (EventsView.timeline filter).Breaks script x) ∧
    forall rows, (EventsView.timeline filter).rows script pages = some rows ->
      List.Forall₂ (RowShows script)
        (xs.filter ((EventsView.timeline filter).admits script)) rows := by
  by_cases htool : filter.lowerTool script = ""
  · have hrows : (EventsView.timeline filter).rows script pages =
        some ((keepFirst valueIdentity [] (loadedValues pages)).map (rowOf script)) :=
      if_pos htool
    have hall : xs.filter ((EventsView.timeline filter).admits script) = xs := by
      apply List.filter_eq_self.mpr
      intro x _
      simp only [EventsView.admits, htool, decide_true, Bool.true_or]
    rw [hrows, hall]
    constructor
    · constructor
      · intro hnone
        cases hnone
      · rintro ⟨_, _, hne, _⟩
        exact absurd htool hne
    · intro rows hsome
      rw [← Option.some.inj hsome]
      exact List.forall₂_map_right_iff.mpr (h.imp (fun _ _ => EventShows.row))
  · have hthrows : (keepFirst valueIdentity [] (loadedValues pages)).any (fun w =>
          (lowerToolOf script (evidenceIn w)).isNone) = true <->
        exists x, x ∈ xs ∧ (EventsView.timeline filter).Breaks script x := by
      refine (any_iff_of_forall₂ (p := fun x =>
        (lowerToolOf script (rawIn "evidence" x.1)).isNone) ?_ h).trans ?_
      · intro x w hxw
        rw [hxw.evidence]
      · simp only [Option.isNone_iff_eq_none, EventsView.Breaks, ne_eq, htool,
          not_false_eq_true, true_and]
    have hrows : List.Forall₂ (RowShows script)
        (xs.filter ((EventsView.timeline filter).admits script))
        (((keepFirst valueIdentity [] (loadedValues pages)).filter (fun w => decide
          (lowerToolOf script (evidenceIn w) = some (filter.lowerTool script)))).map
            (rowOf script)) := by
      refine List.forall₂_map_right_iff.mpr ((List.rel_filter ?_ h).imp
        (fun _ _ => EventShows.row))
      intro x w hxw
      simp only [EventsView.admits, htool, decide_false, Bool.false_or, hxw.evidence]
    have hguarded : (EventsView.timeline filter).rows script pages =
        if (keepFirst valueIdentity [] (loadedValues pages)).any (fun w =>
          (lowerToolOf script (evidenceIn w)).isNone) then none
        else some _ := if_neg htool
    rw [hguarded, ← hthrows]
    exact guarded_show hrows

theorem EventsView.rows_show (view : EventsView)
    (h : List.Forall₂ EventShows xs (loadedValues pages)) :
    (view.rows script pages = none <->
      exists x, x ∈ keepFirst eventIdentityIn [] xs ∧ view.Breaks script x) ∧
    forall rows, view.rows script pages = some rows ->
      List.Forall₂ (RowShows script)
        ((keepFirst eventIdentityIn [] xs).filter (view.admits script)) rows := by
  cases view with
  | alerts definition minBucket since filter =>
      exact alerts_show definition minBucket since filter (firstRows_show h)
  | timeline filter => exact timeline_show filter (firstRows_show h)

end

end

/-!
## Runs of a view
-/

/-- Polls and clicks, an answer of the handler, and a request that fails. -/
inductive EventsLabel {ident : Type} [DecidableEq ident] (fk : Bool)
    (calls : ident -> WriteCall) where
  | poll
  | loadMore
  | answer (run : EventsRun fk calls)
  | fail

section

variable {ident : Type} [DecidableEq ident] {fk : Bool} {calls : ident -> WriteCall}

def EventsLabel.base : EventsLabel fk calls -> Option (QueryLabel Value)
  | .poll => some .poll
  | .loadMore => some .loadMore
  | .answer run => run.out.map (fun d => .respond (value d))
  | .fail => some .fail

def EventsView.step (q : PagedFleet Value) (l : EventsLabel fk calls) : Option (PagedFleet Value) :=
  l.base.bind (q.step Tab.nextCursor)

abbrev SeenAnswer (fk : Bool) (calls : ident -> WriteCall) := EventsRun fk calls × Lookups

/-- The answer of a run, whose lookups saw the store along the writes. -/
structure CameFrom (labels : List (EventsLabel fk calls)) (a : SeenAnswer fk calls) : Prop where
  answered : EventsLabel.answer a.1 ∈ labels
  sawAlong : a.1.SawAlong a.2

/-- A page of the browser is an answer that came. -/
structure AnsweredBy (labels : List (EventsLabel fk calls)) (a : SeenAnswer fk calls)
    (page : Value) : Prop where
  came : CameFrom labels a
  shows : PageShows a.2 (value a.1.body) page

def answerCursor (a : SeenAnswer fk calls) : Option ByteString := Tab.bodyCursor a.1.body

def bodiesOf (answers : List (SeenAnswer fk calls)) : List (Document × Lookups) :=
  answers.map (fun a => (a.1.body, a.2))

variable {labels : List (EventsLabel fk calls)} {a : SeenAnswer fk calls} {page : Value}

theorem AnsweredBy.next (h : AnsweredBy labels a page) : Tab.nextCursor page = answerCursor a := by
  unfold Tab.nextCursor
  rw [h.shows.nextCursor, Option.bind_some, asText_ofOptionalText]
  rfl

theorem EventsLabel.answeredBy (hsingle : forall r, EventsLabel.answer r ∈ labels ->
    Single "events" (value r.body)) {l : EventsLabel fk calls} (hl : l ∈ labels)
    (hbase : l.base = some (.respond page)) : exists a, AnsweredBy labels a page := by
  cases l with
  | answer r =>
      rcases Option.map_eq_some_iff.mp hbase with ⟨d, hd, heq⟩
      cases heq
      rcases r.relayed with ⟨l, hout, hsaw⟩
      exact ⟨(r, l), ⟨hl, hsaw⟩, relayEvents_shows (hout.symm.trans hd) (hsingle r hl)⟩
  | poll => cases hbase
  | loadMore => cases hbase
  | fail => cases hbase

theorem loadedValues_show {answers : List (SeenAnswer fk calls)} {pages : List Value}
    (h : List.Forall₂ (AnsweredBy labels) answers pages) :
    List.Forall₂ EventShows
      ((bodiesOf answers).flatMap (fun a => a.2.joined (eventsIn (value a.1))))
      (loadedValues pages) := by
  unfold bodiesOf loadedValues
  rw [List.flatMap_map]
  refine List.rel_flatMap h ?_
  intro a page hpage
  rcases hpage.shows.events with ⟨ws, hws, hrows⟩
  have hlisted : (listedValues page).getD [] = ws := by
    unfold listedValues
    rw [hws]
    rfl
  show List.Forall₂ EventShows _ ((listedValues page).getD [])
  rw [hlisted]
  exact hrows

end

/-- A queue or timeline of events, polled and paged while analysts write: every request is
read by the handler as what the view asks for, without a cursor or from the one of an answer
that came; and unless the filter throws, the rows are the events of the answers in order, the
first of each text of host and event id, as far as the filter admits them, each with the
status that its lookup saw in the store. -/
theorem events_shown_as_stored {ident : Type} [DecidableEq ident] {fk : Bool}
    {calls : ident -> WriteCall} (script : Script) (view : EventsView)
    (labels : List (EventsLabel fk calls)) (q : PagedFleet Value)
    (hsingle : forall r, EventsLabel.answer r ∈ labels -> Single "events" (value r.body))
    (hrun : runSteps EventsView.step PagedFleet.mounted labels = some q) :
    (forall f, q.fetching = some f -> exists cursor : Option String,
      f.cursor = cursor.map utf8 ∧
      (exists hosts kinds, parseEventsParams (view.request cursor) =
          view.asked hosts kinds (utf8 (cursor.getD "")) ∧
        (hosts = view.hosts.map utf8 <-> forall host, host ∈ view.hosts -> IsEntry (utf8 host)) ∧
        (kinds = view.kinds.map utf8 <->
          forall kind, kind ∈ view.kinds -> IsEntry (utf8 kind))) ∧
      forall c, cursor = some c -> c ≠ "" ∧
        exists r, EventsLabel.answer r ∈ labels ∧ Tab.cursorOf r.body = some c) ∧
    forall d, q.data = some d -> exists answers, answers ≠ [] ∧
      (forall a, a ∈ answers -> CameFrom labels a) ∧
      d.pageParams = cursorsFrom answerCursor none answers ∧
      (view.rows script d.pages = none <->
        exists x, x ∈ firstEvents (bodiesOf answers) ∧ view.Breaks script x) ∧
      forall rows, view.rows script d.pages = some rows ->
        List.Forall₂ (RowShows script)
          ((firstEvents (bodiesOf answers)).filter (view.admits script)) rows := by
  have hok : RelayedOk answerCursor (AnsweredBy labels) q :=
    relayedOk_run (fun _ _ => AnsweredBy.next) (fun _ _ => EventsLabel.answeredBy hsingle) hrun
  constructor
  · intro f hf
    rcases hok.exists_cursor hf with ⟨cursor, hcursor, hgiven⟩
    refine ⟨cursor, hcursor, view.read_request cursor, ?_⟩
    intro c hc
    rcases hgiven c hc with ⟨hne, a, page, hpage, hbody⟩
    exact ⟨hne, a.1, hpage.came.answered, hbody⟩
  · intro d hd
    rcases hok.data d hd with ⟨answers, hne, hpages⟩
    have hcame : forall a, a ∈ answers -> CameFrom labels a :=
      ((List.forall₂_and_left answers _).mp (hpages.pages.imp (fun _ _ h => ⟨h.came, h⟩))).left
    exact ⟨answers, hne, hcame, hpages.params,
      view.rows_show (loadedValues_show hpages.pages)⟩

def openBody : Document := plainPage "2026-01-01T00:00:00Z"

def openStart : System Db Stmt Stmt.Res SqlErr (Except Err Reply) Bool :=
  (runSteps (System.step (engine true))
    (System.start Db.empty (fun t => (openedAndResolved t).prog))
    (List.replicate 6 (.access true none))).get (by decide +kernel)

def openPage : Wire.EventsPage := (decodeEventsPage openBody).get (by decide +kernel)

def openStop : WithReader (System Db Stmt Stmt.Res SqlErr (Except Err Reply) Bool) Stmt Stmt.Res
    SqlErr (Option Document) :=
  (runSteps (WithReader.step (engine true) (callsAround true))
    ⟨openStart, handleFleetEvents true openPage⟩ [.read none]).get (by decide +kernel)

def openRun : EventsRun true openedAndResolved where
  initial := Db.empty
  before := List.replicate 6 (.access true none)
  start := openStart
  started := (Option.some_get _).symm
  body := openBody
  page := openPage
  decoded := (Option.some_get _).symm
  moments := [.read none]
  stop := openStop
  ran := (Option.some_get _).symm
  out :=
    match openStop.reader with
    | .ret out => out
    | _ => none
  returned := rfl

def openLabels : List (EventsLabel true openedAndResolved) := [.answer openRun]

def plainScript : Script :=
  { toLowerCase := id, stringify := fun _ => [], toText := asText }

def openAlerts : EventsView := .alerts none .high none ⟨[statusOpen], ""⟩

theorem events_shown_openAlert :
    exists q d rows, exists answers : List (SeenAnswer true openedAndResolved),
      runSteps EventsView.step PagedFleet.mounted openLabels = some q ∧
      q.data = some d ∧ openAlerts.rows plainScript d.pages = some rows ∧
      rows.map EventWithTriage.triage = [some statusOpen] ∧
      List.Forall₂ (RowShows plainScript)
        ((firstEvents (bodiesOf answers)).filter (openAlerts.admits plainScript)) rows := by
  have hall : ((runSteps EventsView.step PagedFleet.mounted openLabels).bind (fun q =>
      q.data.bind (fun d => openAlerts.rows plainScript d.pages))).map
        (List.map EventWithTriage.triage) = some [some statusOpen] := by decide +kernel
  rcases Option.map_eq_some_iff.mp hall with ⟨rows, hrows, htriage⟩
  rcases Option.bind_eq_some_iff.mp hrows with ⟨q, hq, hdata⟩
  rcases Option.bind_eq_some_iff.mp hdata with ⟨d, hd, hshown⟩
  have hsingle : forall r, EventsLabel.answer r ∈ openLabels ->
      Single "events" (value r.body) := by
    intro r hr
    cases List.mem_singleton.mp hr
    exact Nat.le_refl 1
  rcases (events_shown_as_stored plainScript openAlerts _ q hsingle hq).right d hd with
    ⟨answers, _, _, _, _, hrowsShow⟩
  exact ⟨q, d, rows, answers, hq, hd, hshown, htriage, hrowsShow rows hshown⟩

end Web
end LodelineManager
