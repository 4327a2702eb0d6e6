import LodelineManager.Api.EventsJoin

/-!
# Pages of events, joined with any states of the store

The lookups of one page see the store at one moment after the other.  What the page says is
settled by what each lookup saw, so a page is a body of the server and the states of its
lookups.
-/

namespace LodelineManager
namespace Api

open Foundation SingleConnection Go JSON Triage Fleet Wire

/-- The contents that the lookups of a page see, and their failures. -/
structure Lookups where
  dbs : Nat -> Db
  faults : Nat -> Option SqlErr

namespace Lookups

variable (l : Lookups)

def view (i : Nat) (hostID eventID : String) : Option TriageView :=
  viewAt true (l.dbs i) (l.faults i) hostID eventID

def later : Lookups := { dbs := fun i => l.dbs (i + 1), faults := fun i => l.faults (i + 1) }

def join (events : List Wire.Event) : List EventWithTriage :=
  events.mapIdx (fun i ev => { event := ev, triage := l.view i ev.hostID ev.eventID })

def joined (vs : List Value) : List (Value × Option TriageView) :=
  vs.mapIdx (fun i v => (v, l.view i (textIn "host_id" v) (textIn "event_id" v)))

end Lookups

def relayEvents (body : Document) (l : Lookups) : Option Document :=
  (decodeEventsPage body).bind (fun page =>
    encodeEventsResponse { events := l.join page.events.toList, nextCursor := page.nextCursor })

/-!
## What the page says
-/

theorem rowsRead_join {l : Lookups} {vs : List Value} {events : List Wire.Event}
    (h : List.Forall₂ EventRead vs events) :
    List.Forall₂ RowRead (l.joined vs) (l.join events) := by
  induction h generalizing l with
  | nil => exact .nil
  | @cons v ev vs events hread _ ih =>
      unfold Lookups.joined Lookups.join
      rw [List.mapIdx_cons, List.mapIdx_cons]
      refine .cons ⟨hread, ?_, fun view => viewAt_utc⟩ (@ih l.later)
      rw [hread.hostID, hread.eventID]

/-- The cursor of the server, and its events with what their lookups saw. -/
structure PageShows (l : Lookups) (v w : Value) : Prop where
  nextCursor : get? "next_cursor" w = some (ofOptionalText (optionalTextIn "next_cursor" v))
  events : exists ws, get? "events" w = some (.array ws) ∧
    List.Forall₂ (fun x w => EventKept x.1 w ∧ TriageShown x.2 w) (l.joined (eventsIn v)) ws

theorem relayEvents_shows {body out : Document} {l : Lookups} (h : relayEvents body l = some out)
    (hsingle : Single "events" (value body)) : PageShows l (value body) (value out) := by
  rcases Option.bind_eq_some_iff.mp h with ⟨page, hpage, hencode⟩
  rcases eventsPage_read hpage hsingle with ⟨hcursor, hevents⟩
  have hnames : (["events", "next_cursor"] : List String).Nodup := by decide
  constructor
  · rw [get?_of_encodeStruct hencode hnames (List.mem_of_getElem? (i := 1) rfl), ← hcursor]
    exact value_encodePtr_string page.nextCursor
  · rcases @exists_of_encodeStruct _ _ hencode hnames "events"
      ((encodeAll (fun e => encodeStruct (EventWithTriage.members e))
        (l.join page.events.toList)).map Json.array)
      (List.mem_of_getElem? (i := 0) rfl) with ⟨x, hx, hshown⟩
    rcases Option.map_eq_some_iff.mp hx with ⟨ds, hds, harray⟩
    refine ⟨ds.map value, ?_, rows_shown (rowsRead_join hevents) (encodeAll_eq_some hds)⟩
    rw [hshown, ← harray]
    exact congrArg (some ∘ Json.array) (Json.mapItems_eq units ds)

/-!
## The handler among writers
-/

/-- Every lookup sees the contents after the first ones of the writes. -/
def Lookups.Along {ident : Type} (l : Lookups) (fk : Bool) (calls : ident -> WriteCall) (d : Db)
    (order : List (ident × Except Err Reply)) : Prop :=
  forall i, exists front, front <+: order ∧ TookEffect fk calls d front (l.dbs i)

theorem LookInOrder.lookups {ident : Type} {fk : Bool} {calls : ident -> WriteCall} {d d' : Db}
    {order : List (ident × Except Err Reply)} {looked : List Looked}
    (h : LookInOrder fk calls d order looked d') :
    exists l : Lookups, looked.map Looked.row = l.join (looked.map Looked.event) ∧
      l.Along fk calls d order ∧ TookEffect fk calls d order d' := by
  induction h with
  | @nil d d' order heff =>
      refine ⟨⟨fun _ => d', fun _ => none⟩, rfl, ?_, heff⟩
      exact fun _ => ⟨order, List.prefix_rfl, heff⟩
  | @cons d mid d' front back first rest hfront hshows hrest ih =>
      rcases ih with ⟨l, hl, halong, heff⟩
      refine ⟨⟨fun i => Nat.casesOn i mid l.dbs, fun i => Nat.casesOn i first.fault l.faults⟩,
        ?_, ?_, hfront.append heff⟩
      · unfold Lookups.join
        rw [List.map_cons, List.map_cons, List.mapIdx_cons, hl]
        have hview : first.view =
            viewAt true mid first.fault first.event.hostID first.event.eventID := hshows
        have hrow : first.row = ⟨first.event, first.view⟩ := rfl
        rw [hrow, hview]
        rfl
      · intro i
        cases i with
        | zero => exact ⟨front, List.prefix_append front back, hfront⟩
        | succ i =>
            rcases halong i with ⟨more, hmore, hseen⟩
            exact ⟨front ++ more, (List.prefix_append_right_inj front).mpr hmore,
              hfront.append hseen⟩

/-- A run of the handler for a body of the server, begun at any moment among analysts who
write. -/
structure EventsRun {ident : Type} [DecidableEq ident] (fk : Bool)
    (calls : ident -> WriteCall) where
  initial : Db
  before : List (Event SqlErr ident)
  start : System Db Stmt Stmt.Res SqlErr (Except Err Reply) ident
  started : runSteps (System.step (engine fk)) (System.start initial (fun t => (calls t).prog))
    before = some start
  body : Document
  page : Wire.EventsPage
  decoded : decodeEventsPage body = some page
  moments : List (ReaderEvent (Event SqlErr ident) SqlErr)
  stop : WithReader (System Db Stmt Stmt.Res SqlErr (Except Err Reply) ident) Stmt Stmt.Res
    SqlErr (Option Document)
  ran : runSteps (WithReader.step (engine fk) (callsAround fk))
    ⟨start, handleFleetEvents true page⟩ moments = some stop
  out : Option Document
  returned : stop.reader = .ret out

section

variable {ident : Type} [DecidableEq ident] {fk : Bool} {calls : ident -> WriteCall}

/-- The lookups saw the store along the writes of the run. -/
def EventsRun.SawAlong (r : EventsRun fk calls) (l : Lookups) : Prop :=
  exists order, l.Along fk calls r.start.committed order ∧
    TookEffect fk calls r.start.committed order r.stop.rest.committed

theorem EventsRun.relayed (r : EventsRun fk calls) :
    exists l, r.out = relayEvents r.body l ∧ r.SawAlong l := by
  have hs : Underway fk calls r.start := ((underway_start fk calls r.initial).run r.started).left
  have hreads := WithReader.readsBy (onlyReads_map _ (onlyReads_enrich fk r.page.events.toList))
    r.ran r.returned
  rcases reads_enrich _ hs hreads with ⟨looked, order, hout, hevents, _, hlook⟩
  rcases hlook.lookups with ⟨l, hl, halong, heff⟩
  refine ⟨l, ?_, order, halong, heff⟩
  unfold relayEvents
  rw [r.decoded, Option.bind_some, hout, hl, hevents]

end

end Api
end LodelineManager
