import LodelineManager.Api.Triage
import LodelineManager.Triage.AuditTrail
import LodelineManager.Triage.SerialOrder
import LodelineManager.Web.SlideOver

/-!
# Notes from many browsers

Any number of browsers, each with its own cached triage details, and the server
they share.  A note form that knows no triage row asks for one first, with the
explicit status {lit}`open`; when the server comes to the request the row may be there
and may have moved on.
-/

namespace LodelineManager
namespace Web

open Foundation SingleConnection Triage Api

deriving instance DecidableEq for Triage.WriteCall

/-!
## From a payload to a store call
-/

def UpsertPayload.request (p : UpsertPayload) : UpsertRequest :=
  { hostID := p.hostID, eventID := p.eventID, status := p.status.getD noStatus,
    assignee := p.assignee, clearAssignee := p.clearAssignee.getD false,
    evidenceSnapshot := p.evidenceSnapshot.getD [] }

def NotePayload.request (p : NotePayload) : NoteRequest :=
  { hostID := p.hostID, eventID := p.eventID, body := p.body }

def Payload.handle (now : Int) (subject : String) : Payload -> Except ErrorResponse WriteCall
  | .upsert p => handleTriageUpsert now subject (some p.request)
  | .note p => handleTriageNote now subject (some p.request)

def apiError (r : ErrorResponse) : ApiError :=
  if r.status = 401 then
    if r.code = "session_expired" then .sessionExpired else .unauthorized
  else if r.status = 404 then .notFound
  else if r.status = 503 then .serviceUnavailable
  else .unknown r.status r.code

def callNow : WriteCall -> Int
  | .upsert now _ => now
  | .appendNote now _ _ _ _ => now

def DetailQuery.answered (q : DetailQuery) : Except Err Row -> DetailQuery
  | .ok row => DetailQuery.loaded row
  | .error e => q.failed (apiError (mapTriageErr e))

/-!
## Browsers and server
-/

/-- The form that a request comes from. -/
inductive Origin where
  | action
  | noteForm
  deriving DecidableEq

/-- A browser with the analyst of its session, the open event, and the notes that wait
for the upsert that creates their row. -/
structure Browser (ident : Type) where
  subject : String
  event : Option EventWithTriage
  details : String × String -> DetailQuery
  waiting : List (ident × NotePayload)

/-- Requests are numbered; {lit}`issued` tells which have been sent, and from where. -/
structure World (browser ident : Type) where
  server : System Db Stmt Stmt.Res SqlErr (Except Err Reply) ident
  browsers : browser -> Browser ident
  issued : ident -> Option Origin

inductive Act (browser ident : Type) where
  | openEvent (b : browser) (ev : Option EventWithTriage)
  | detailRead (b : browser) (hostID eventID : String)
  | detailFailed (b : browser) (key : String × String) (e : ApiError)
  | submit (b : browser) (t : ident) (a : Action)
  | noteAfterUpsert (b : browser) (t u : ident)
  | server (e : SingleConnection.Event SqlErr ident)

def callOf {ident : Type} : SingleConnection.Event SqlErr ident -> ident
  | .access t _ => t
  | .contextDone t => t

section

variable {browser ident : Type} [DecidableEq browser] [DecidableEq ident]

namespace World

def setBrowser (w : World browser ident) (b : browser) (br : Browser ident) :
    World browser ident :=
  { w with browsers := Function.update w.browsers b br }

/-- Send a payload as request {lit}`t`.  What it asks of the store is {lit}`calls t`; a request
that the handler turns down changes nothing. -/
def post (calls : ident -> WriteCall) (w : World browser ident) (b : browser) (t : ident)
    (origin : Origin) (p : Payload) (waiting : List (ident × NotePayload)) :
    Option (World browser ident) :=
  match p.handle (callNow (calls t)) (w.browsers b).subject with
  | .error _ => some w
  | .ok call =>
      if w.issued t = none ∧ calls t = call then
        let br := w.browsers b
        some { w.setBrowser b { br with waiting := waiting ++ br.waiting } with
          issued := Function.update w.issued t (some origin) }
      else none

/-- One of the forms of the slide-over. -/
def submit (calls : ident -> WriteCall) (w : World browser ident) (b : browser) (t : ident)
    (event : EventWithTriage) (a : Action) : Option (World browser ident) :=
  let triage := useTriageDetailOrNull ((w.browsers b).details event.key)
  match a with
  | .setStatus status => w.post calls b t .action (.upsert (setStatus event triage status)) []
  | .assign draft => w.post calls b t .action (.upsert (onAssign event triage draft)) []
  | .submitNote draft =>
      match onSubmitNote event triage draft with
      | .ignored => some w
      | .append note => w.post calls b t .noteForm (.note note) []
      | .createFirst row note => w.post calls b t .noteForm (.upsert row) [(t, note)]

def step (fk : Bool) (calls : ident -> WriteCall) (w : World browser ident) :
    Act browser ident -> Option (World browser ident)
  | .openEvent b ev => some (w.setBrowser b { w.browsers b with event := ev })
  | .detailRead b hostID eventID =>
      if hostID = "" || eventID = "" || w.server.holder.isSome then none
      else
        let br := w.browsers b
        let got := (getByEventKey hostID eventID).run (engine fk) Prog.noFaults
          ⟨w.server.committed, none⟩
        let q := (br.details (hostID, eventID)).answered got.1
        some (w.setBrowser b
          { br with details := Function.update br.details (hostID, eventID) q })
  | .detailFailed b key e =>
      let br := w.browsers b
      some (w.setBrowser b
        { br with details := Function.update br.details key ((br.details key).failed e) })
  | .submit b t a =>
      match (w.browsers b).event with
      | none => none
      | some event => w.submit calls b t event a
  | .noteAfterUpsert b t u =>
      let br := w.browsers b
      match br.waiting.find? (fun x => decide (x.1 = t)), w.server.progs t with
      | some x, .ret (.ok _) =>
          (w.setBrowser b
            { br with waiting := br.waiting.filter (fun x => decide (x.1 ≠ t)) }).post calls b u
              .noteForm (.note x.2) []
      | _, _ => none
  | .server e =>
      if (w.issued (callOf e)).isSome then
        (System.step (engine fk) w.server e).map (fun server => { w with server := server })
      else none

def start (calls : ident -> WriteCall) (d0 : Db) (browsers : browser -> Browser ident) :
    World browser ident :=
  { server := System.start d0 (fun t => (calls t).prog), browsers := browsers,
    issued := fun _ => none }

end World

/-!
## Calls of the note form
-/

/-- An upsert that asks for the open status, or a note. -/
def NoteCall : WriteCall -> Prop
  | .upsert _ inp => inp.status = statusOpen
  | .appendNote _ _ _ _ _ => True

theorem noteCall_of_createFirst {row : UpsertPayload} {now : Int} {subject : String}
    {call : WriteCall} (hopen : row.status = some statusOpen)
    (h : (Payload.upsert row).handle now subject = .ok call) : NoteCall call := by
  rcases handleTriageUpsert_ok h with ⟨inp, hcall, _, hstatus, _⟩
  rw [hcall]
  show inp.status = statusOpen
  rw [hstatus]
  show row.status.getD noStatus = statusOpen
  rw [hopen]
  rfl

theorem noteCall_of_note {note : NotePayload} {now : Int} {subject : String} {call : WriteCall}
    (h : (Payload.note note).handle now subject = .ok call) : NoteCall call := by
  rw [handleTriageNote_ok h]
  trivial

variable {fk : Bool} {calls : ident -> WriteCall} {d0 : Db} {w w' : World browser ident}

/-- The server is in a state that calls can bring it to, and the requests of note forms
are such calls. -/
structure Tracked (fk : Bool) (calls : ident -> WriteCall) (d0 : Db)
    (w : World browser ident) : Prop where
  serialized : exists order,
    Serialized Succeeded (engine fk) (fun t => (calls t).prog) d0 order w.server
  noteCalls : forall t, w.issued t = some .noteForm -> NoteCall (calls t)

omit [DecidableEq browser] in
theorem tracked_start (browsers : browser -> Browser ident) :
    Tracked fk calls d0 (World.start calls d0 browsers) where
  serialized := ⟨[], serialized_start d0 (fun t => callShape_prog fk (calls t))⟩
  noteCalls := by
    intro t ht
    cases ht

theorem tracked_post {b : browser} {t : ident} {origin : Origin} {p : Payload}
    {waiting : List (ident × NotePayload)} (hw : Tracked fk calls d0 w)
    (hnote : origin = .noteForm -> forall now subject call,
      p.handle now subject = .ok call -> NoteCall call)
    (h : w.post calls b t origin p waiting = some w') : Tracked fk calls d0 w' := by
  unfold World.post at h
  split at h
  · cases h
    exact hw
  · rename_i call hcall
    split at h
    · rename_i hfree
      cases h
      constructor
      · exact hw.serialized
      · intro u hu
        by_cases hut : u = t
        · subst hut
          have horigin : some origin = some Origin.noteForm :=
            (Function.update_self u (some origin) w.issued).symm.trans hu
          cases horigin
          rw [hfree.right]
          exact hnote rfl _ _ call hcall
        · apply hw.noteCalls
          exact (Function.update_of_ne hut (some origin) w.issued).symm.trans hu
    · cases h

theorem tracked_submit {b : browser} {t : ident} {event : EventWithTriage} {a : Action}
    (hw : Tracked fk calls d0 w) (h : w.submit calls b t event a = some w') :
    Tracked fk calls d0 w' := by
  cases a with
  | setStatus status => exact tracked_post hw (fun horigin => by cases horigin) h
  | assign draft => exact tracked_post hw (fun horigin => by cases horigin) h
  | submitNote draft =>
      unfold World.submit at h
      simp only at h
      split at h
      · cases h
        exact hw
      · exact tracked_post hw (fun _ _ _ _ hcall => noteCall_of_note hcall) h
      · rename_i row note hsubmit
        have hopen := (onSubmitNote_createFirst hsubmit).right.left
        exact tracked_post hw (fun _ _ _ _ hcall => noteCall_of_createFirst hopen hcall) h

omit [DecidableEq browser] in
theorem tracked_server {e : SingleConnection.Event SqlErr ident}
    {server : System Db Stmt Stmt.Res SqlErr (Except Err Reply) ident}
    (hw : Tracked fk calls d0 w) (h : System.step (engine fk) w.server e = some server) :
    Tracked fk calls d0 { w with server := server } where
  serialized := by
    rcases hw.serialized with ⟨order, hs⟩
    cases e with
    | access t fault => exact serialized_access (stable_writes fk calls) hs h
    | contextDone t => exact ⟨order, serialized_contextDone hs h⟩
  noteCalls := hw.noteCalls

theorem tracked_step {l : Act browser ident} (hw : Tracked fk calls d0 w)
    (h : w.step fk calls l = some w') : Tracked fk calls d0 w' := by
  cases l with
  | openEvent b ev =>
      cases h
      exact ⟨hw.serialized, hw.noteCalls⟩
  | detailRead b hostID eventID =>
      unfold World.step at h
      simp only at h
      split at h
      · cases h
      · cases h
        exact ⟨hw.serialized, hw.noteCalls⟩
  | detailFailed b key e =>
      cases h
      exact ⟨hw.serialized, hw.noteCalls⟩
  | submit b t a =>
      unfold World.step at h
      simp only at h
      split at h
      · cases h
      · exact tracked_submit hw h
  | noteAfterUpsert b t u =>
      unfold World.step at h
      simp only at h
      split at h
      · refine tracked_post (w := w.setBrowser b _) ⟨hw.serialized, hw.noteCalls⟩ ?_ h
        exact fun _ _ _ _ hcall => noteCall_of_note hcall
      · cases h
  | server e =>
      unfold World.step at h
      simp only at h
      split at h
      · rcases Option.map_eq_some_iff.mp h with ⟨server, hserver, heq⟩
        subst heq
        exact tracked_server hw hserver
      · cases h

/-!
## What a call does to the rows that are there
-/

/-- Every present row keeps its status, and nothing is added to its log. -/
def KeepsStatus (d d' : Db) : Prop :=
  forall key r, d.triage.find? key = some r ->
    (exists r', d'.triage.find? key = some r' ∧ r'.status = r.status) ∧
      entriesOf d' key = entriesOf d key

theorem keepsStatus_refl (d : Db) : KeepsStatus d d :=
  fun _ r hr => ⟨⟨r, hr, rfl⟩, rfl⟩

/-- The row of a note form's upsert, if there is one, is open. -/
def FindsOpen (d : Db) (call : WriteCall) : Prop :=
  forall now inp, call = .upsert now inp ->
    forall r, d.triage.find? inp.key = some r -> r.status = statusOpen

theorem statusChanges_open {r : SqlRow} {inp : UpsertInput} (hopen : inp.status = statusOpen) :
    statusChanges (scanRow r) inp = false <-> r.status = statusOpen := by
  have hno : decide (statusOpen ≠ noStatus) = true := by decide
  unfold statusChanges
  rw [hopen, hno, Bool.true_and, decide_eq_false_iff_not, Decidable.not_not]
  exact eq_comm

theorem inserted_keeps {now : Int} {inp : UpsertInput} {d : Db} {t : KeyedTable SqlRow.key}
    {actor at_ : String} {toStatus : Option Status}
    (h : (insertedRow now inp).status.isValid = true) (hnone : d.triage.find? inp.key = none)
    (hrows : t.rows = d.triage.rows ++ [storedRow (insertedRow now inp) h]) :
    KeepsStatus d (({ d with triage := t } : Db).insertLog inp.hostID inp.eventID actor none
      toStatus at_) := by
  intro key r hr
  have hne : ¬ inp.key = key := by
    intro heq
    rw [heq, hr] at hnone
    cases hnone
  constructor
  · refine ⟨r, ?_, rfl⟩
    rw [insertLog_triage, KeyedTable.find?_of_rows_append hrows]
    exact (if_neg hne).trans hr
  · rw [entriesOf_insertLog]
    exact if_neg hne

theorem updateRow_keeps {d : Db} {key : String × String} {r : SqlRow} {status : Status}
    {h : status.isValid = true} {assignee : Option String} {updatedAt : String}
    (hfind : d.triage.find? key = some r) (hsame : status = r.status) :
    KeepsStatus d (d.updateRow key status h assignee updatedAt) := by
  intro key' r' hr'
  refine ⟨?_, rfl⟩
  rw [find?_updateRow]
  split
  · rename_i hkey
    rw [hkey, hfind] at hr'
    cases hr'
    rw [hkey, hfind]
    exact ⟨_, rfl, hsame⟩
  · exact ⟨r', hr', rfl⟩

theorem upserted_keeps_iff {now : Int} {inp : UpsertInput} {d d' : Db} {row : Row}
    (hopen : inp.status = statusOpen) (h : Upserted now inp d row d') :
    KeepsStatus d d' <-> forall r, d.triage.find? inp.key = some r -> r.status = statusOpen := by
  cases h with
  | inserted hvalid hnone hrows =>
      constructor
      · intro _ r hr
        rw [hnone] at hr
        cases hr
      · intro _
        exact inserted_keeps hvalid hnone hrows
  | @kept r0 hvalid hfind hchange =>
      constructor
      · intro _ r hr
        rw [hfind] at hr
        cases hr
        exact (statusChanges_open hopen).mp hchange
      · intro _
        exact updateRow_keeps hfind (updatedRow_status_kept hchange)
  | @moved r0 hvalid hfind hchange =>
      constructor
      · intro hkeeps
        rcases (hkeeps inp.key r0 hfind).left with ⟨r', hr', hstatus⟩
        rw [insertLog_triage, find?_updateRow, if_pos rfl, hfind] at hr'
        cases hr'
        have hsame : (updatedRow now (scanRow r0) inp).status = r0.status := hstatus
        rw [updatedRow_status_moved hchange] at hsame
        exact absurd hsame.symm (status_ne_of_statusChanges hchange)
      · intro hall
        rw [(statusChanges_open hopen).mpr (hall r0 hfind)] at hchange
        cases hchange

theorem insertNote_keeps (d : Db) (hostID eventID author body at_ : String) :
    KeepsStatus d (d.insertNote hostID eventID author body at_) :=
  fun _ r hr => ⟨⟨r, hr, rfl⟩, rfl⟩

theorem effect_keeps_iff {call : WriteCall} {d d' : Db} {a : Reply} (hnote : NoteCall call)
    (h : call.Effect d a d') : KeepsStatus d d' <-> FindsOpen d call := by
  cases h with
  | upsert hup =>
      rw [upserted_keeps_iff hnote hup]
      constructor
      · intro hall now inp hcall r hr
        cases hcall
        exact hall r hr
      · intro hall r hr
        exact hall _ _ rfl r hr
  | appendNote hfind =>
      constructor
      · intro _ now inp hcall
        cases hcall
      · intro _
        exact insertNote_keeps d _ _ _ _ _

/-!
## One step
-/

/-- Steps of the server for a note form leave the status and the log of every present row
alone. -/
def NoteKeepsStatus (w : World browser ident) (l : Act browser ident)
    (w' : World browser ident) : Prop :=
  forall t fault, l = .server (.access t fault) -> w.issued t = some .noteForm ->
    KeepsStatus w.server.committed w'.server.committed

/-- An upsert of a note form that is about to commit finds its row open or missing. -/
def NoteFindsOpen (calls : ident -> WriteCall) (w : World browser ident)
    (l : Act browser ident) (_ : World browser ident) : Prop :=
  forall t fault, l = .server (.access t fault) -> w.issued t = some .noteForm ->
    w.server.commitsNow t fault = true -> FindsOpen w.server.committed (calls t)

theorem upsert_not_autoNow {order : List (ident × Except Err Reply)}
    {server : System Db Stmt Stmt.Res SqlErr (Except Err Reply) ident} {t : ident} {now : Int}
    {inp : UpsertInput}
    (h : Serialized Succeeded (engine fk) (fun t => (calls t).prog) d0 order server)
    (hcall : calls t = .upsert now inp) : server.autoNow t = false := by
  have hstage := h.stage t
  simp only [hcall] at hstage
  unfold System.autoNow
  cases hp : server.progs t with
  | auto o k =>
      rw [hp] at hstage
      cases hstage with
      | reading _ _ hread _ _ =>
          have heq := readTo_upsert hread
          rw [WriteCall.prog, upsert] at heq
          cases hcheck : upsertCheck inp with
          | some e =>
              rw [hcheck] at heq
              cases heq
          | none =>
              rw [hcheck] at heq
              cases heq
      | inTx _ hin _ =>
          cases hin with
          | doomed hd => cases hd
      | doomed _ hd => cases hd
      | finished _ _ hfin => cases hfin
  | _ => rfl

theorem access_of_step {t : ident} {fault : Option SqlErr}
    (h : w.step fk calls (.server (.access t fault)) = some w') :
    System.step (engine fk) w.server (.access t fault) = some w'.server := by
  unfold World.step at h
  simp only at h
  split at h
  · rcases Option.map_eq_some_iff.mp h with ⟨server, hserver, heq⟩
    rw [← heq]
    exact hserver
  · cases h

theorem effect_of_run {call : WriteCall} {d d' : Db} {a : Except Err Reply} (hgood : Succeeded a)
    (hrun : call.prog.run (engine fk) Prog.noFaults ⟨d, none⟩ = (a, ⟨d', none⟩)) :
    exists b, call.Effect d b d' := by
  rcases hgood with ⟨b, hb⟩
  rw [hb] at hrun
  exact ⟨b, (prog_ok hrun).left⟩

theorem noteStep_iff {l : Act browser ident} (hw : Tracked fk calls d0 w)
    (h : w.step fk calls l = some w') :
    NoteKeepsStatus w l w' <-> NoteFindsOpen calls w l w' := by
  rcases hw.serialized with ⟨order, hs⟩
  constructor
  · intro hkeeps t fault hl hissued hcommit
    subst hl
    rcases hs.commit_effect hcommit (access_of_step h) with ⟨a, hgood, hrun⟩
    rcases effect_of_run hgood hrun with ⟨b, heff⟩
    exact (effect_keeps_iff (hw.noteCalls t hissued) heff).mp (hkeeps t fault rfl hissued)
  · intro hfinds t fault hl hissued
    subst hl
    have hstep := access_of_step h
    rcases hs.access_effect hstep with hsame | ⟨a, hgood, hrun⟩
    · rw [hsame]
      exact keepsStatus_refl _
    · rcases effect_of_run hgood hrun with ⟨b, heff⟩
      cases hcommit : w.server.commitsNow t fault with
      | true =>
          exact (effect_keeps_iff (hw.noteCalls t hissued) heff).mpr
            (hfinds t fault rfl hissued hcommit)
      | false =>
          cases hcall : calls t with
          | upsert now inp =>
              -- outside its commit an upsert writes nothing
              rw [System.committed_same hcommit (upsert_not_autoNow hs hcall) hstep]
              exact keepsStatus_refl _
          | appendNote now hostID eventID author body =>
              refine (effect_keeps_iff (hw.noteCalls t hissued) heff).mpr ?_
              intro now' inp hup
              rw [hcall] at hup
              cases hup

/-- In every run of the browsers and the server: the note forms change no status of a
present row and add nothing to its log exactly when every upsert of theirs that
commits finds its row open or missing. -/
theorem notes_keep_status_iff (fk : Bool) (calls : ident -> WriteCall) (d0 : Db)
    (browsers : browser -> Browser ident) (labels : List (Act browser ident)) :
    EveryStep (World.step fk calls) NoteKeepsStatus (World.start calls d0 browsers) labels <->
      EveryStep (World.step fk calls) (NoteFindsOpen calls) (World.start calls d0 browsers)
        labels := by
  have hstart : Tracked fk calls d0 (World.start calls d0 browsers) := tracked_start browsers
  exact everyStep_congr (I := Tracked fk calls d0) (fun _ _ _ hw h => noteStep_iff hw h)
    (fun _ _ _ hw h _ => tracked_step hw h) hstart labels

end

def seenEvent : EventWithTriage :=
  { eventID := "e", ts := "", hostID := "h", severity := "warn",
    evidence := ⟨none, none, some [123, 125]⟩, triage := none }

def twoBrowsers (b : Bool) : Browser Nat :=
  { subject := if b then "ana" else "bo", event := some seenEvent,
    details := fun _ => DetailQuery.loading, waiting := [] }

def resolveThenNote : Nat -> WriteCall
  | 0 => .upsert 0 ⟨"h", "e", statusResolved, none, false, [123, 125], "ana"⟩
  | 1 => .upsert 1 ⟨"h", "e", statusOpen, none, false, [123, 125], "bo"⟩
  | _ => .appendNote 2 "h" "e" "bo" "seen"

def accesses (t n : Nat) : List (Act Bool Nat) :=
  List.replicate n (.server (.access t none))

def beforeCommit : List (Act Bool Nat) :=
  .submit true 0 (.setStatus statusResolved) :: accesses 0 6 ++
    .submit false 1 (.submitNote "seen") :: accesses 1 4

/-- The commit opens the resolved row again and logs that. -/
theorem resolveThenNote_reopens :
    exists before after,
      runSteps (World.step true resolveThenNote)
        (World.start resolveThenNote Db.empty twoBrowsers) beforeCommit = some before ∧
      before.step true resolveThenNote (.server (.access 1 none)) = some after ∧
      before.issued 1 = some .noteForm ∧
      (before.server.committed.triage.find? ("h", "e")).map SqlRow.status =
        some statusResolved ∧
      (after.server.committed.triage.find? ("h", "e")).map SqlRow.status = some statusOpen ∧
      (entriesOf before.server.committed ("h", "e")).length = 1 ∧
      (entriesOf after.server.committed ("h", "e")).map
          (fun e => (e.actor, e.fromStatus, e.toStatus)) =
        [("ana", none, some statusResolved), ("bo", some statusResolved, some statusOpen)] ∧
      ¬ EveryStep (World.step true resolveThenNote) NoteKeepsStatus
        (World.start resolveThenNote Db.empty twoBrowsers)
        (beforeCommit ++ [.server (.access 1 none)]) := by
  have hrun : exists before after,
      runSteps (World.step true resolveThenNote)
        (World.start resolveThenNote Db.empty twoBrowsers) beforeCommit = some before ∧
      before.step true resolveThenNote (.server (.access 1 none)) = some after ∧
      before.issued 1 = some .noteForm ∧
      (before.server.committed.triage.find? ("h", "e")).map SqlRow.status =
        some statusResolved ∧
      (after.server.committed.triage.find? ("h", "e")).map SqlRow.status = some statusOpen ∧
      (entriesOf before.server.committed ("h", "e")).length = 1 ∧
      (entriesOf after.server.committed ("h", "e")).map
          (fun e => (e.actor, e.fromStatus, e.toStatus)) =
        [("ana", none, some statusResolved), ("bo", some statusResolved, some statusOpen)] :=
    ⟨_, _, rfl, rfl, rfl, rfl, rfl, rfl, rfl⟩
  rcases hrun with ⟨before, after, hbefore, hafter, hissued, hold, hnew, hlen, hlog⟩
  refine ⟨before, after, hbefore, hafter, hissued, hold, hnew, hlen, hlog, ?_⟩
  intro hall
  have hkeeps := everyStep_split hall hbefore hafter 1 none rfl hissued
  rcases Option.map_eq_some_iff.mp hold with ⟨r, hr, hstatus⟩
  rcases (hkeeps ("h", "e") r hr).left with ⟨r', hr', hsame⟩
  rw [hr', Option.map_some, hsame, hstatus] at hnew
  exact absurd (Option.some.inj hnew) (by decide)

end Web
end LodelineManager
