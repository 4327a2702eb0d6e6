import LodelineManager.Api.FleetBodies
import LodelineManager.Api.TriageGet
import LodelineManager.Triage.History

/-!
# The triage beside the events of a page

The list of events looks up one row after the other, each on its own, while analysts
write.  The rows of one page are of several states of the store; they are the states
along one serial order of the writes, later rows from later states.
-/

namespace LodelineManager
namespace Api

open Foundation SingleConnection Go Triage Fleet

/-- One lookup of a page: the event, the failure of the access, and what it showed. -/
structure Looked where
  event : Wire.Event
  fault : Option SqlErr
  view : Option TriageView

def Looked.key (l : Looked) : String × String := (l.event.hostID, l.event.eventID)

def Looked.row (l : Looked) : EventWithTriage := { event := l.event, triage := l.view }

/-- What a lookup shows of some contents. -/
def Looked.Shows (l : Looked) (d : Db) : Prop :=
  l.view = viewAt true d l.fault l.event.hostID l.event.eventID

/-- The lookups show the contents after growing parts of one order of writes. -/
inductive LookInOrder {ident : Type} (fk : Bool) (calls : ident -> WriteCall) :
    Db -> List (ident × Except Err Reply) -> List Looked -> Db -> Prop where
  | nil {d d' : Db} {order : List (ident × Except Err Reply)} :
      TookEffect fk calls d order d' -> LookInOrder fk calls d order [] d'
  | cons {d mid d' : Db} {front back : List (ident × Except Err Reply)} {l : Looked}
      {rest : List Looked} : TookEffect fk calls d front mid -> l.Shows mid ->
      LookInOrder fk calls mid back rest d' ->
      LookInOrder fk calls d (front ++ back) (l :: rest) d'

/-!
## The lookups of a page
-/

theorem onlyReads_map {result result' : Type} {fk : Bool} (f : result -> result')
    {p : Prog Stmt Stmt.Res SqlErr result} (h : OnlyReads (engine fk) p) :
    OnlyReads (engine fk) (p.map f) := by
  induction h with
  | ret a => exact OnlyReads.ret _
  | auto hro _ ih => exact OnlyReads.auto hro ih

theorem onlyReads_enrich (fk : Bool) (events : List Wire.Event) :
    OnlyReads (engine fk) (enrich true events) := by
  induction events with
  | nil => exact OnlyReads.ret _
  | cons ev rest ih =>
      have hlookup : OnlyReads (engine fk) (lookupTriageView true ev.hostID ev.eventID) :=
        onlyReads_map _ (onlyReads_getRow fk ev.hostID ev.eventID (fun _ => OnlyReads.ret _))
      exact hlookup.bind (fun view => onlyReads_map _ ih)

theorem next_lookup {result : Type} (fk : Bool) (hostID eventID : String)
    (k : Option TriageView -> Prog Stmt Stmt.Res SqlErr result) (fault : Option SqlErr) (d : Db) :
    (((lookupTriageView true hostID eventID).bind k).next (engine fk) fault ⟨d, none⟩).1 =
      k (viewAt true d fault hostID eventID) := by
  unfold viewAt
  cases fault with
  | some e => rfl
  | none =>
      cases hrow : d.triage.find? (hostID, eventID) with
      | none =>
          simp only [lookupTriageView, getByEventKey, getRow, Prog.map, Prog.bind, Prog.next,
            Engine.answer, engine, execStmt, hrow, scanned, if_true]
          rfl
      | some r =>
          simp only [lookupTriageView, getByEventKey, getRow, Prog.map, Prog.bind, Prog.next,
            Engine.answer, engine, execStmt, hrow, scanned, if_true]
          rfl

section

variable {ident : Type} [DecidableEq ident] {fk : Bool} {calls : ident -> WriteCall}
  {s s' : System Db Stmt Stmt.Res SqlErr (Except Err Reply) ident}
  {moments : List (ReaderEvent (Event SqlErr ident) SqlErr)}

omit [DecidableEq ident] in
theorem filterMap_fault_rest (labels : List (Event SqlErr ident)) :
    (labels.map ReaderEvent.rest : List (ReaderEvent _ SqlErr)).filterMap ReaderEvent.fault? =
      [] := by
  rw [List.filterMap_map]
  exact List.filterMap_eq_nil_iff.mpr (fun _ _ => rfl)

theorem reads_enrich {result : Type} (f : List EventWithTriage -> result)
    {events : List Wire.Event} {out : result} (hs : Underway fk calls s)
    (h : ReadsBy (engine fk) (callsAround fk) ((enrich true events).map f) s moments out
      s') :
    exists looked order, out = f (looked.map Looked.row) ∧
      looked.map Looked.event = events ∧
      looked.map Looked.fault = moments.filterMap ReaderEvent.fault? ∧
      LookInOrder fk calls s.committed order looked s'.committed := by
  induction events generalizing s moments f with
  | nil =>
      cases h with
      | @ret _ _ _ labels hrun =>
          rcases (hs.run hrun).right with ⟨order, horder⟩
          exact ⟨[], order, rfl, rfl, (filterMap_fault_rest labels).symm, LookInOrder.nil horder⟩
  | cons ev rest ih =>
      have hprog : (enrich true (ev :: rest)).map f =
          (lookupTriageView true ev.hostID ev.eventID).bind (fun view =>
            (enrich true rest).map (fun rows => f ({ event := ev, triage := view } :: rows))) := by
        rw [enrich, Prog.map_bind]
        simp only [Prog.map_map]
      rw [hprog] at h
      generalize hk : (fun view => (enrich true rest).map
        (fun rows => f ({ event := ev, triage := view } :: rows))) = k at h
      have hnext := next_lookup fk ev.hostID ev.eventID k
      generalize hp : (lookupTriageView true ev.hostID ev.eventID).bind k = p at h hnext
      cases h with
      | ret hrun => cases hp
      | @auto o k' _ mid _ before after _ fault hrun hrest =>
          rw [hnext, ← hk] at hrest
          rcases hs.run hrun with ⟨hmid, front, hfront⟩
          rcases ih _ hmid hrest with ⟨looked, back, hout, hevents, hfaults, hlook⟩
          let l : Looked :=
            { event := ev, fault := fault
              view := viewAt true mid.committed fault ev.hostID ev.eventID }
          refine ⟨l :: looked, front ++ back, hout, ?_, ?_, LookInOrder.cons hfront rfl hlook⟩
          · rw [List.map_cons, hevents]
          · rw [List.map_cons, hfaults, List.filterMap_append, filterMap_fault_rest]
            rfl

omit [DecidableEq ident] in
theorem LookInOrder.shown {d d' : Db} {order : List (ident × Except Err Reply)}
    {looked : List Looked} (h : LookInOrder fk calls d order looked d') {l : Looked}
    (hl : l ∈ looked) (hfault : l.fault = none)
    (hrow : exists r, d.triage.find? l.key = some r) : l.view ≠ none := by
  induction h with
  | nil _ => cases hl
  | @cons d mid d' front back first rest hfront hshows hrest ih =>
      have hmid := TookEffect.present hfront hrow
      rcases List.mem_cons.mp hl with rfl | hlater
      · rcases hmid with ⟨r, hr⟩
        have hfind : mid.triage.find? (l.event.hostID, l.event.eventID) = some r := hr
        unfold Looked.Shows viewAt at hshows
        rw [hshows, hfault, hfind]
        exact Option.some_ne_none _
      · exact ih hlater hmid

omit [DecidableEq ident] in
theorem LookInOrder.unchanged {d d' : Db} {order : List (ident × Except Err Reply)}
    {looked : List Looked} (h : LookInOrder fk calls d order looked d') {l : Looked}
    (hl : l ∈ looked) (hother : forall t a, (t, a) ∈ order -> (calls t).key ≠ l.key) :
    l.Shows d := by
  induction h with
  | nil _ => cases hl
  | @cons d mid d' front back first rest hfront hshows hrest ih =>
      have hsame : mid.triage.find? l.key = d.triage.find? l.key :=
        (hfront.sameAt (fun t a ha => hother t a (List.mem_append.mpr (Or.inl ha)))).row
      have hmid : l.Shows mid := by
        rcases List.mem_cons.mp hl with rfl | hlater
        · exact hshows
        · exact ih hlater (fun t a ha => hother t a (List.mem_append.mpr (Or.inr ha)))
      have hfind : mid.triage.find? (l.event.hostID, l.event.eventID) =
          d.triage.find? (l.event.hostID, l.event.eventID) := hsame
      unfold Looked.Shows viewAt at hmid ⊢
      rw [hmid, hfind]

/-- The list of events among any writes and failures: its rows are the states along one
serial order of the writes that took effect, as far as each lookup came in time; a row
that was there is never shown as missing unless its own lookup failed; and a row that
nobody wrote is shown as it was. -/
theorem events_joined_in_order {start : Db} {events : List (Event SqlErr ident)}
    (hstart : runSteps (System.step (engine fk)) (System.start start (fun t => (calls t).prog))
      events = some s)
    {page : Wire.EventsPage} {t : WithReader
      (System Db Stmt Stmt.Res SqlErr (Except Err Reply) ident) Stmt Stmt.Res SqlErr
      (Option JSON.Document)} {body : Option JSON.Document}
    (hrun : runSteps (WithReader.step (engine fk) (callsAround fk))
      ⟨s, handleFleetEvents true page⟩ moments = some t)
    (hret : t.reader = .ret body) :
    exists looked order,
      body = encodeEventsResponse
        { events := looked.map Looked.row, nextCursor := page.nextCursor } ∧
      looked.map Looked.event = page.events.toList ∧
      looked.map Looked.fault = moments.filterMap ReaderEvent.fault? ∧
      LookInOrder fk calls s.committed order looked t.rest.committed ∧
      (forall l, l ∈ looked -> l.fault = none ->
        (exists r, s.committed.triage.find? l.key = some r) -> l.view ≠ none) ∧
      (forall l, l ∈ looked ->
        (forall u a, (u, a) ∈ order -> (calls u).key ≠ l.key) -> l.Shows s.committed) := by
  have hs : Underway fk calls s := ((underway_start fk calls start).run hstart).left
  have hreads := WithReader.readsBy (onlyReads_map _ (onlyReads_enrich fk page.events.toList))
    hrun hret
  rcases reads_enrich _ hs hreads with ⟨looked, order, hbody, hevents, hfaults, hlook⟩
  exact ⟨looked, order, hbody, hevents, hfaults, hlook,
    fun l hl hfault hrow => hlook.shown hl hfault hrow,
    fun l hl hother => hlook.unchanged hl hother⟩

end

/-- A page that has the alert {lit}`e` of the host {lit}`h` twice. -/
def twicePage : Wire.EventsPage :=
  { events := { items := some [{ eventID := "e", hostID := "h" }, { eventID := "e", hostID := "h" }]
                spare := [] }
    nextCursor := none }

/-- The alert is open when the page begins and resolved between its two lookups; neither
shows it without triage. -/
theorem events_joined_resolvedBetween :
    exists s t body, exists looked : List Looked,
      runSteps (System.step (engine true))
        (System.start Db.empty (fun t => (openedAndResolved t).prog))
        (List.replicate 6 (.access true none)) = some s ∧
      runSteps (WithReader.step (engine true) (callsAround true))
        ⟨s, handleFleetEvents true twicePage⟩
        (.read none :: List.replicate 6 (.rest (.access false none)) ++ [.read none]) = some t ∧
      t.reader = .ret body ∧
      body = encodeEventsResponse { events := looked.map Looked.row, nextCursor := none } ∧
      forall l, l ∈ looked -> l.fault = none ->
        (exists r, s.committed.triage.find? l.key = some r) -> l.view ≠ none := by
  have hrun : exists s t body,
      runSteps (System.step (engine true))
        (System.start Db.empty (fun t => (openedAndResolved t).prog))
        (List.replicate 6 (.access true none)) = some s ∧
      runSteps (WithReader.step (engine true) (callsAround true))
        ⟨s, handleFleetEvents true twicePage⟩
        (.read none :: List.replicate 6 (.rest (.access false none)) ++ [.read none]) = some t ∧
      t.reader = .ret body := ⟨_, _, _, rfl, rfl, rfl⟩
  rcases hrun with ⟨s, t, body, hstart, hpage, hret⟩
  rcases events_joined_in_order hstart hpage hret with ⟨looked, _, hbody, _, _, _, hshown, _⟩
  exact ⟨s, t, body, looked, hstart, hpage, hret, hbody, hshown⟩

end Api
end LodelineManager
