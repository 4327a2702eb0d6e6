import LodelineManager.Fleet.CacheKeys
import LodelineManager.Fleet.WireValues
import LodelineManager.Foundation.ConnectionReader
import LodelineManager.Triage.Repo

/-!
# Bodies of the fleet API

The handlers write again what the fleet client has read, after the cache has kept it.
The list of events gets the triage row of every event beside it; a lookup that fails
is as good as a row that is not there.
-/

namespace LodelineManager
namespace Api

open Foundation SingleConnection Go JSON Triage Fleet Wire

/-!
## Events with their triage
-/

structure TriageView where
  status : Status
  assignee : Option String
  updatedAt : ZonedTime

structure EventWithTriage where
  event : Wire.Event
  triage : Option TriageView

structure EventsResponse where
  events : List EventWithTriage
  nextCursor : Option String

def encodeTriageView (t : TriageView) : Option Document :=
  encodeStruct
    [("status", some (encodeString t.status.text)),
      ("assignee", encodePtr (fun s => some (encodeString s)) t.assignee),
      ("updated_at", encodeTime t.updatedAt)]

def EventWithTriage.members (e : EventWithTriage) : List (String × Option Document) :=
  e.event.members ++ [("triage", encodePtr encodeTriageView e.triage)]

def encodeEventsResponse (r : EventsResponse) : Option Document :=
  encodeStruct
    [("events", (encodeAll (fun e => encodeStruct (EventWithTriage.members e)) r.events).map .array),
      ("next_cursor", encodePtr (fun s => some (encodeString s)) r.nextCursor)]

def triageView (row : Row) : TriageView :=
  { status := row.status, assignee := row.assignee, updatedAt := ZonedTime.utc row.updatedAt }

def lookupTriageView (hasTriage : Bool) (hostID eventID : String) :
    Prog Stmt Stmt.Res SqlErr (Option TriageView) :=
  if hasTriage then
    (getByEventKey hostID eventID).map (fun got =>
      match got with
      | .error _ => none
      | .ok row => some (triageView row))
  else .ret none

def enrich (hasTriage : Bool) : List Wire.Event -> Prog Stmt Stmt.Res SqlErr (List EventWithTriage)
  | [] => .ret []
  | ev :: rest =>
      (lookupTriageView hasTriage ev.hostID ev.eventID).bind (fun view =>
        (enrich hasTriage rest).map ({ event := ev, triage := view } :: ·))

def handleFleetEvents (hasTriage : Bool) (page : Wire.EventsPage) :
    Prog Stmt Stmt.Res SqlErr (Option Document) :=
  (enrich hasTriage page.events.toList).map (fun events =>
    encodeEventsResponse { events := events, nextCursor := page.nextCursor })

/-!
## What the lookups show
-/

def viewAt (hasTriage : Bool) (d : Db) (fault : Option SqlErr) (hostID eventID : String) :
    Option TriageView :=
  if hasTriage && fault.isNone then
    (d.triage.find? (hostID, eventID)).map (fun r => triageView (scanRow r))
  else none

/-- The events with the rows that are stored; the lookup of the {lit}`i`-th is the
{lit}`i`-th access. -/
def enriched (hasTriage : Bool) (d : Db) (faults : Nat -> Option SqlErr)
    (events : List Wire.Event) : List EventWithTriage :=
  events.mapIdx (fun i ev =>
    { event := ev, triage := viewAt hasTriage d (faults i) ev.hostID ev.eventID })

section

variable {fk : Bool} {d : Db}

theorem run_lookupTriageView {result : Type} (hostID eventID : String)
    (k : Option TriageView -> Prog Stmt Stmt.Res SqlErr result) (faults : Nat -> Option SqlErr) :
    ((lookupTriageView true hostID eventID).bind k).run (engine fk) faults ⟨d, none⟩ =
      (k (viewAt true d (faults 0) hostID eventID)).run (engine fk) (fun n => faults (n + 1))
        ⟨d, none⟩ := by
  unfold viewAt
  cases hfault : faults 0 with
  | some e =>
      simp only [lookupTriageView, getByEventKey, getRow, Prog.map, Prog.bind, Prog.run,
        Engine.answer, hfault, scanned, if_true]
      rfl
  | none =>
      cases hrow : d.triage.find? (hostID, eventID) with
      | none =>
          simp only [lookupTriageView, getByEventKey, getRow, Prog.map, Prog.bind, Prog.run,
            Engine.answer, hfault, engine, execStmt, hrow, scanned, if_true]
          rfl
      | some r =>
          simp only [lookupTriageView, getByEventKey, getRow, Prog.map, Prog.bind, Prog.run,
            Engine.answer, hfault, engine, execStmt, hrow, scanned, if_true]
          rfl

theorem run_enrich (hasTriage : Bool) (events : List Wire.Event) (faults : Nat -> Option SqlErr) :
    (enrich hasTriage events).run (engine fk) faults ⟨d, none⟩ =
      (enriched hasTriage d faults events, ⟨d, none⟩) := by
  induction events generalizing faults with
  | nil => rfl
  | cons ev rest ih =>
      unfold enriched
      rw [List.mapIdx_cons]
      cases hasTriage with
      | true =>
          unfold enrich
          rw [run_lookupTriageView, Prog.run_map, ih]
          rfl
      | false =>
          show ((enrich false rest).map _).run (engine fk) faults ⟨d, none⟩ = _
          rw [Prog.run_map, ih]
          rfl

theorem run_handleFleetEvents (hasTriage : Bool) (page : Wire.EventsPage)
    (faults : Nat -> Option SqlErr) :
    (handleFleetEvents hasTriage page).run (engine fk) faults ⟨d, none⟩ =
      (encodeEventsResponse
        { events := enriched hasTriage d faults page.events.toList,
          nextCursor := page.nextCursor }, ⟨d, none⟩) := by
  unfold handleFleetEvents
  rw [Prog.run_map, run_enrich]

end

/-!
## What a body says
-/

def EventWithTriage.times (e : EventWithTriage) : List ZonedTime :=
  e.event.ts :: (e.triage.map TriageView.updatedAt).toList

/-- The object of a row says its status, its assignee and the instant of its update. -/
structure ViewShown (view : TriageView) (t : Value) : Prop where
  status : get? "status" t = some (ofText view.status.text)
  assignee : get? "assignee" t = some (ofOptionalText view.assignee)
  updatedAt : exists ts, get? "updated_at" t = some ts ∧
    asInstant ts = some view.updatedAt.instant

def TriageShown (view : Option TriageView) (w : Value) : Prop :=
  match view with
  | none => get? "triage" w = some .null
  | some view => exists t, get? "triage" w = some t ∧ ViewShown view t

def joined (hasTriage : Bool) (d : Db) (faults : Nat -> Option SqlErr) (vs : List Value) :
    List (Value × Option TriageView) :=
  vs.mapIdx (fun i v =>
    (v, viewAt hasTriage d (faults i) (textIn "host_id" v) (textIn "event_id" v)))

structure PageKept (hasTriage : Bool) (d : Db) (faults : Nat -> Option SqlErr) (v w : Value) :
    Prop where
  nextCursor : get? "next_cursor" w = some (ofOptionalText (optionalTextIn "next_cursor" v))
  events : exists ws, get? "events" w = some (.array ws) ∧
    List.Forall₂ (fun x w => EventKept x.1 w ∧ TriageShown x.2 w)
      (joined hasTriage d faults (eventsIn v)) ws

theorem encodeTriageView_isSome (t : TriageView) :
    (encodeTriageView t).isSome <-> t.updatedAt.Writable := by
  have hassignee : (encodePtr (fun s => some (encodeString s)) t.assignee).isSome = true := by
    cases t.assignee <;> rfl
  unfold encodeTriageView
  rw [encodeStruct_isSome]
  simp only [List.all_cons, List.all_nil, Option.isSome_some, Bool.true_and, Bool.and_true,
    hassignee]
  exact encodeTime_isSome t.updatedAt

theorem encodeEventWithTriage_isSome (e : EventWithTriage) :
    (encodeStruct e.members).isSome <-> AllWritable e.times := by
  have htarget : (encodePtr (fun s => some (encodeString s)) e.event.targetID).isSome = true := by
    cases e.event.targetID <;> rfl
  have htriage : (encodePtr encodeTriageView e.triage).isSome <->
      AllWritable (e.triage.map TriageView.updatedAt).toList := by
    cases e.triage with
    | none => exact iff_of_true rfl (fun _ ht => absurd ht List.not_mem_nil)
    | some t => exact (encodeTriageView_isSome t).trans List.forall_mem_singleton.symm
  unfold EventWithTriage.members Wire.Event.members EventWithTriage.times
  rw [encodeStruct_isSome]
  simp only [List.cons_append, List.nil_append, List.all_cons, List.all_nil, Option.isSome_some,
    Bool.true_and, Bool.and_true, htarget, Bool.and_eq_true]
  rw [encodeTime_isSome, htriage]
  exact List.forall_mem_cons.symm

theorem encodeEventsResponse_isSome (r : EventsResponse) :
    (encodeEventsResponse r).isSome <-> forall e, e ∈ r.events -> AllWritable e.times := by
  have hcursor : (encodePtr (fun s => some (encodeString s)) r.nextCursor).isSome = true := by
    cases r.nextCursor <;> rfl
  unfold encodeEventsResponse
  rw [encodeStruct_isSome]
  simp only [List.all_cons, List.all_nil, Bool.and_true, hcursor, Option.isSome_map]
  rw [encodeAll_isSome, List.all_eq_true]
  exact forall₂_congr (fun e _ => encodeEventWithTriage_isSome e)

theorem viewShown_of_encode {view : TriageView} {d : Document}
    (hencode : encodeTriageView view = some d) (hoffset : view.updatedAt.offset = 0) :
    ViewShown view (value d) := by
  have hnames : (["status", "assignee", "updated_at"] : List String).Nodup := by decide
  constructor
  · rw [get?_of_encodeStruct hencode hnames (List.mem_of_getElem? (i := 0) rfl)]
    exact congrArg some (value_encodeString view.status.text)
  · rw [get?_of_encodeStruct hencode hnames (List.mem_of_getElem? (i := 1) rfl)]
    exact value_encodePtr_string view.assignee
  · rcases @exists_of_encodeStruct _ _ hencode hnames "updated_at" (encodeTime view.updatedAt)
      (List.mem_of_getElem? (i := 2) rfl) with ⟨ts, hts, hshown⟩
    exact ⟨value ts, hshown, encodeTime_eq_some hts (by rw [hoffset]; rfl)⟩

/-- The event was read from the value, and its triage is the one beside it. -/
structure RowRead (x : Value × Option TriageView) (e : EventWithTriage) : Prop where
  event : EventRead x.1 e.event
  triage : e.triage = x.2
  utc : forall view, x.2 = some view -> view.updatedAt.offset = 0

theorem RowRead.shown {x : Value × Option TriageView} {e : EventWithTriage} {d : Document}
    (h : RowRead x e) (hencode : encodeStruct e.members = some d) :
    EventKept x.1 (value d) ∧ TriageShown x.2 (value d) := by
  rcases encodeStruct_eq_some hencode with ⟨out, hout, heq⟩
  have hnames : (e.members.map Prod.fst).Nodup := by
    show (["schema_version", "event_id", "ts", "host_id", "agent_version", "severity", "source",
      "subject", "evidence", "target_id", "triage"] : List String).Nodup
    decide
  have hmem : ("triage", encodePtr encodeTriageView e.triage) ∈ e.members :=
    List.mem_append_right _ (List.mem_singleton_self _)
  have htriage := get?_of_mem hout hnames hmem
  rcases exists_of_mem_members hout hmem with ⟨t, ht⟩
  rw [heq]
  refine ⟨h.event.kept hout hnames, ?_⟩
  rw [ht] at htriage
  rw [h.triage] at ht
  cases hview : x.2 with
  | none =>
      rw [hview] at ht
      cases ht
      exact htriage
  | some view =>
      rw [hview] at ht
      exact ⟨value t, htriage, viewShown_of_encode ht (h.utc view hview)⟩

theorem viewAt_utc {hasTriage : Bool} {d : Db} {fault : Option SqlErr} {hostID eventID : String}
    {view : TriageView} (h : viewAt hasTriage d fault hostID eventID = some view) :
    view.updatedAt.offset = 0 := by
  unfold viewAt at h
  split at h
  · rcases Option.map_eq_some_iff.mp h with ⟨r, _, heq⟩
    rw [← heq]
    rfl
  · cases h

theorem rowsRead {hasTriage : Bool} {d : Db} {faults : Nat -> Option SqlErr} {vs : List Value}
    {events : List Wire.Event} (h : List.Forall₂ EventRead vs events) :
    List.Forall₂ RowRead (joined hasTriage d faults vs) (enriched hasTriage d faults events) := by
  induction h generalizing faults with
  | nil => exact .nil
  | @cons v ev vs events hread _ ih =>
      unfold joined enriched
      rw [List.mapIdx_cons, List.mapIdx_cons]
      refine .cons ⟨hread, ?_, fun view => viewAt_utc⟩ (@ih (fun n => faults (n + 1)))
      rw [hread.hostID, hread.eventID]

theorem rows_shown {xs : List (Value × Option TriageView)} {events : List EventWithTriage}
    {ds : List Document} (h : List.Forall₂ RowRead xs events)
    (hencode : List.Forall₂ (fun e d => encodeStruct (EventWithTriage.members e) = some d)
      events ds) :
    List.Forall₂ (fun x w => EventKept x.1 w ∧ TriageShown x.2 w) xs (ds.map value) := by
  induction h generalizing ds with
  | nil =>
      cases hencode
      exact .nil
  | cons hread _ ih =>
      cases hencode with
      | cons hd hrest => exact .cons (hread.shown hd) (ih hrest)

theorem pageKept_of_encode {hasTriage : Bool} {d : Db} {faults : Nat -> Option SqlErr}
    {j out : Document} {page : Wire.EventsPage} (hpage : decodeEventsPage j = some page)
    (hsingle : Single "events" (value j))
    (hencode : encodeEventsResponse
      { events := enriched hasTriage d faults page.events.toList,
        nextCursor := page.nextCursor } = some out) :
    PageKept hasTriage d faults (value j) (value out) := by
  rcases eventsPage_read hpage hsingle with ⟨hcursor, hevents⟩
  have hnames : (["events", "next_cursor"] : List String).Nodup := by decide
  constructor
  · rw [get?_of_encodeStruct hencode hnames (List.mem_of_getElem? (i := 1) rfl), ← hcursor]
    exact value_encodePtr_string page.nextCursor
  · rcases @exists_of_encodeStruct _ _ hencode hnames "events"
      ((encodeAll (fun e => encodeStruct (EventWithTriage.members e))
        (enriched hasTriage d faults page.events.toList)).map Json.array)
      (List.mem_of_getElem? (i := 0) rfl) with ⟨x, hx, hshown⟩
    rcases Option.map_eq_some_iff.mp hx with ⟨ds, hds, harray⟩
    refine ⟨ds.map value, ?_, rows_shown (rowsRead hevents) (encodeAll_eq_some hds)⟩
    rw [hshown, ← harray]
    exact congrArg (some ∘ Json.array) (Json.mapItems_eq units ds)

/-!
## Through the client, the cache and the handlers
-/

/-- A value with the body that it was decoded from. -/
structure Decoded {type : Type} (read : Document -> Option type) where
  body : Document
  val : type
  decoded : read body = some val

def bodyType {float : Type} (F : Floats float) : Method -> Type
  | .events => Decoded decodeEventsPage
  | .fleetHostByID => Decoded (decodeHostDetail F)
  | _ => Document

/-- Every tool of the host is there with its scope, its reasons and its controls, and no
other. -/
def HostKept (v w : Value) : Prop :=
  forall key, (entryIn key (toolsIn v) = none ∧ shownTool key w = none) ∨
    exists t u, entryIn key (toolsIn v) = some t ∧ shownTool key w = some u ∧ ToolKept t u

/-- A page that names its events once is written with the same events, in order, and the
rows that are stored for them; a host that names its blocks once is written with the same
tools; and the cache hands out what was decoded for the request of the call. -/
theorem bodies_kept {float : Type} (F : Floats float) (fk : Bool) :
    (forall hasTriage d faults (page : Decoded decodeEventsPage),
      Single "events" (value page.body) ->
      List.Forall₂ EventRead (eventsIn (value page.body)) page.val.events.toList ∧
      exists body, (handleFleetEvents hasTriage page.val).run (engine fk) faults ⟨d, none⟩ =
          (body, ⟨d, none⟩) ∧
        (body.isSome <-> forall e, e ∈ enriched hasTriage d faults page.val.events.toList ->
          AllWritable e.times) ∧
        forall out, body = some out ->
          PageKept hasTriage d faults (value page.body) (value out)) ∧
    (forall host : Decoded (decodeHostDetail F), SingleBlocks (value host.body) ->
      ((encodeHostDetail F host.val).isSome <-> AllWritable host.val.times) ∧
      forall out, encodeHostDetail F host.val = some out ->
        HostKept (value host.body) (value out)) ∧
    (forall cfg clock (labels : List (ClientLabel (bodyType F))) s,
      runSteps (CachingClient.step cfg) (CachingClient.init (bodyType F) clock) labels = some s ->
      forall i endpoint suffix r p,
        s.sys.threads i = some (.call endpoint suffix (.returned r)) -> r.result = .ok p ->
        exists c v, s.callOf i = some c ∧ p.val.call.request = c.request ∧
          p.val.as c.method = some v ∧
          ClientLabel.internal (.answer p.fetch (.ok p.val)) ∈ labels) := by
  refine ⟨?_, ?_, ?_⟩
  · intro hasTriage d faults page hsingle
    refine ⟨(eventsPage_read page.decoded hsingle).right, _,
      run_handleFleetEvents hasTriage page.val faults, encodeEventsResponse_isSome _, ?_⟩
    intro out hout
    exact pageKept_of_encode page.decoded hsingle hout
  · intro host hsingle
    refine ⟨encodeHostDetail_isSome F host.val, ?_⟩
    intro out hout key
    exact tool_kept host.decoded hout hsingle key
  · intro cfg clock labels s hrun i endpoint suffix r p ht hr
    exact CachingClient.answered_of_returned hrun ht hr

def objectOf (members : List (String × Document)) : Document :=
  .object (members.map (fun m => (quote m.1.toList, m.2)))

def plainPage (ts : String) : Document :=
  objectOf [("events", .array [objectOf [("event_id", encodeString "e"),
    ("host_id", encodeString "h"), ("ts", encodeString ts)]])]

def plainTool : Document := objectOf [("controls", .array []), ("scope", .null)]

def plainHost : Document :=
  objectOf [("ai_guard", objectOf [("by_tool", objectOf [("codex", plainTool)])])]

def storedRow : SqlRow :=
  { hostID := "h", eventID := "e", status := statusOpen, statusCheck := rfl, assignee := none,
    evidenceSnapshot := [123, 125], createdAt := "2026-01-01T00:00:00Z",
    updatedAt := "2026-01-01T00:00:00Z" }

def zeroFloats : Floats Unit := { zero := (), parse := fun _ => some (), format := fun _ => "0" }

theorem singleBlocks_plainHost : SingleBlocks (value plainHost) where
  aiGuard := Nat.le_refl 1
  byTool := Nat.le_refl 1
  controls := by
    intro key v hv
    rcases List.mem_map.mp (List.mem_of_getLast? hv) with ⟨m, hm, heq⟩
    have hmem : m ∈ [(units (quote "codex".toList), value plainTool)] := List.mem_of_mem_filter hm
    rw [List.mem_singleton.mp hmem] at heq
    rw [← heq]
    exact Nat.le_refl 1

theorem bodies_kept_plain :
    (exists page out, decodeEventsPage (plainPage "2026-01-01T00:00:00Z") = some page ∧
      ((handleFleetEvents true page).run (engine true) Prog.noFaults ⟨Db.empty, none⟩).1 =
        some out ∧
      PageKept true Db.empty Prog.noFaults (value (plainPage "2026-01-01T00:00:00Z"))
        (value out)) ∧
    exists host out, decodeHostDetail zeroFloats plainHost = some host ∧
      encodeHostDetail zeroFloats host = some out ∧ HostKept (value plainHost) (value out) := by
  constructor
  · have hdecoded : (decodeEventsPage (plainPage "2026-01-01T00:00:00Z")).isSome = true := by
      decide +kernel
    have hall : (decodeEventsPage (plainPage "2026-01-01T00:00:00Z")).all (fun page =>
        (enriched true Db.empty Prog.noFaults page.events.toList).all (fun e =>
          decide (AllWritable e.times))) = true := by decide +kernel
    rcases Option.isSome_iff_exists.mp hdecoded with ⟨page, hpage⟩
    rcases ((bodies_kept zeroFloats true).left true Db.empty Prog.noFaults ⟨_, page, hpage⟩
      (Nat.le_refl 1)).right with ⟨body, hrun, hwritten, hkept⟩
    rw [hpage] at hall
    have hsome := hwritten.mpr (fun e he => of_decide_eq_true (List.all_eq_true.mp hall e he))
    rcases Option.isSome_iff_exists.mp hsome with ⟨out, hout⟩
    exact ⟨page, out, hpage, (congrArg Prod.fst hrun).trans hout, hkept out hout⟩
  · have hdecoded : (decodeHostDetail zeroFloats plainHost).isSome = true := by decide +kernel
    have hall : (decodeHostDetail zeroFloats plainHost).all (fun host =>
        decide (AllWritable host.times)) = true := by decide +kernel
    rcases Option.isSome_iff_exists.mp hdecoded with ⟨host, hhost⟩
    rcases (bodies_kept zeroFloats true).right.left ⟨_, host, hhost⟩ singleBlocks_plainHost with
      ⟨hwritten, hkept⟩
    rw [hhost] at hall
    rcases Option.isSome_iff_exists.mp (hwritten.mpr (of_decide_eq_true hall)) with ⟨out, hout⟩
    exact ⟨host, out, hhost, hout, hkept out hout⟩

def firstIn (name : String) (body : Option Document) : Option Value :=
  ((body.bind (fun out => get? "events" (value out))).bind (fun es => es.items.head?)).bind
    (get? name)

/-- The row is stored, but its lookup fails; a zone of 24 hours is read and cannot be
written; a second list of events is read over the events of the first, and a second guard
block into the tools of the first. -/
theorem body_not_kept :
    (exists d, Db.empty.insertRow storedRow = .ok d ∧
      ((decodeEventsPage (plainPage "2026-01-01T00:00:00Z")).bind (fun page =>
        firstIn "triage" ((handleFleetEvents true page).run (engine true)
          (fun _ => some (.driver "database is locked")) ⟨d, none⟩).1)).map Json.isNull =
        some true) ∧
    (decodeEventsPage (plainPage "2026-01-01T00:00:00+24:00")).map (fun page =>
      ((handleFleetEvents true page).run (engine true) Prog.noFaults ⟨Db.empty, none⟩).1.isSome) =
        some false ∧
    ((decodeEventsPage (objectOf [("events", .array [objectOf [("event_id", encodeString "e")]]),
        ("events", .array [objectOf []])])).bind (fun page =>
      firstIn "event_id" ((handleFleetEvents true page).run (engine true) Prog.noFaults
        ⟨Db.empty, none⟩).1)).bind asText = some "e" ∧
    (((decodeHostDetail zeroFloats (objectOf [("ai_guard", objectOf [("by_tool",
        objectOf [("codex", objectOf [("bucket", encodeString "low")])])]),
        ("ai_guard", objectOf [])])).bind (encodeHostDetail zeroFloats)).bind (fun out =>
      (shownTool "codex" (value out)).bind (get? "bucket"))).bind asText = some "low" :=
  ⟨⟨_, rfl, by decide +kernel⟩, by decide +kernel, by decide +kernel, by decide +kernel⟩

end Api
end LodelineManager
