import LodelineManager.Api.Triage
import LodelineManager.Triage.ClockedWrites

/-!
# Showing one triage row

The handler reads the row, then the notes, then the log, each on its own; notes and
log look the row up once more.  Writers may commit between any two of the five
statements, so the answer is put together from up to three states of the database.
-/

namespace LodelineManager
namespace Api

open Foundation SingleConnection Go Triage

structure RowResponse where
  hostID : String
  eventID : String
  status : String
  assignee : Option String
  evidenceSnapshot : RawMessage
  createdAt : String
  updatedAt : String
  deriving DecidableEq

structure NoteResponse where
  id : Nat
  hostID : String
  eventID : String
  author : String
  body : String
  createdAt : String
  deriving DecidableEq

structure LogResponse where
  id : Nat
  actor : String
  fromStatus : Option String
  toStatus : Option String
  at_ : String
  deriving DecidableEq

structure GetResponse where
  row : RowResponse
  notes : List NoteResponse
  log : List LogResponse
  deriving DecidableEq

def rowToResponse (row : Row) : RowResponse :=
  { hostID := row.hostID, eventID := row.eventID, status := row.status.text,
    assignee := row.assignee, evidenceSnapshot := row.evidenceSnapshot,
    createdAt := formatTS row.createdAt, updatedAt := formatTS row.updatedAt }

def noteToResponse (n : Note) : NoteResponse :=
  { id := n.id, hostID := n.hostID, eventID := n.eventID, author := n.author, body := n.body,
    createdAt := formatTS n.createdAt }

def logToResponse (e : LogEntry) : LogResponse :=
  { id := e.id, actor := e.actor, fromStatus := e.fromStatus.map Status.text,
    toStatus := e.toStatus.map Status.text, at_ := formatTS e.at_ }

def getResponse (row : Row) (notes : List Note) (logEntries : List LogEntry) : GetResponse :=
  { row := rowToResponse row, notes := notes.map noteToResponse,
    log := logEntries.map logToResponse }

abbrev GetCall := Prog Stmt Stmt.Res SqlErr (Except ErrorResponse GetResponse)

def orMapTriageErr {result : Type} (k : result -> GetCall) : Except Err result -> GetCall
  | .error e => .ret (.error (mapTriageErr e))
  | .ok v => k v

def handleTriageGet (hostID eventID : String) : GetCall :=
  if hostID = "" || eventID = "" then
    .ret (.error (invalidQuery "host_id and event_id required"))
  else
    (getByEventKey hostID eventID).bind (orMapTriageErr (fun row =>
      (listNotes hostID eventID).bind (orMapTriageErr (fun notes =>
        (listLog hostID eventID).bind (orMapTriageErr (fun logEntries =>
          .ret (.ok (getResponse row notes logEntries))))))))

/-!
## The handler only reads
-/

theorem readOnly_selectNotes (fk : Bool) (hostID eventID : String) :
    ReadOnly (engine fk) (.selectNotes hostID eventID) := by
  intro d r d' h
  cases h
  rfl

theorem readOnly_selectLog (fk : Bool) (hostID eventID : String) :
    ReadOnly (engine fk) (.selectLog hostID eventID) := by
  intro d r d' h
  cases h
  rfl

theorem onlyReads_getRow {result : Type} (fk : Bool) (hostID eventID : String)
    {k : Except Err Row -> Call result} (hk : forall r, OnlyReads (engine fk) (k r)) :
    OnlyReads (engine fk) (getRow hostID eventID k) :=
  OnlyReads.auto (readOnly_selectRow fk hostID eventID) (fun _ => hk _)

theorem onlyReads_listNotes (fk : Bool) (hostID eventID : String) :
    OnlyReads (engine fk) (listNotes hostID eventID) := by
  apply onlyReads_getRow
  intro existing
  cases existing with
  | error e => exact OnlyReads.ret _
  | ok row =>
      apply OnlyReads.auto (readOnly_selectNotes fk hostID eventID)
      intro got
      cases got with
      | error e => exact OnlyReads.ret _
      | ok rows => exact OnlyReads.ret _

theorem onlyReads_listLog (fk : Bool) (hostID eventID : String) :
    OnlyReads (engine fk) (listLog hostID eventID) := by
  apply onlyReads_getRow
  intro existing
  cases existing with
  | error e => exact OnlyReads.ret _
  | ok row =>
      apply OnlyReads.auto (readOnly_selectLog fk hostID eventID)
      intro got
      cases got with
      | error e => exact OnlyReads.ret _
      | ok rows => exact OnlyReads.ret _

theorem onlyReads_orMapTriageErr {result : Type} {fk : Bool} {k : result -> GetCall}
    (hk : forall v, OnlyReads (engine fk) (k v)) (got : Except Err result) :
    OnlyReads (engine fk) (orMapTriageErr k got) := by
  cases got with
  | error e => exact OnlyReads.ret _
  | ok v => exact hk v

theorem onlyReads_handleTriageGet (fk : Bool) (hostID eventID : String) :
    OnlyReads (engine fk) (handleTriageGet hostID eventID) := by
  unfold handleTriageGet
  split
  · exact OnlyReads.ret _
  · apply (onlyReads_getRow fk hostID eventID (fun _ => OnlyReads.ret _)).bind
    apply onlyReads_orMapTriageErr
    intro row
    apply (onlyReads_listNotes fk hostID eventID).bind
    apply onlyReads_orMapTriageErr
    intro notes
    apply (onlyReads_listLog fk hostID eventID).bind
    apply onlyReads_orMapTriageErr
    intro logEntries
    exact OnlyReads.ret _

/-!
## What each read saw
-/

/-- The notes of a key as {lit}`ListNotes` gives them. -/
def notesShown (d : Db) (key : String × String) : List Note :=
  ((notesOf d key).insertionSort noteOrder).map scanNote

/-- The log of a key as {lit}`ListLog` gives it. -/
def logShown (d : Db) (key : String × String) : List LogEntry :=
  ((entriesOf d key).insertionSort logOrder).map scanLog

section

variable {state label result : Type} {R : Surroundings state label Db} {fk : Bool}
  {hostID eventID : String} {s s' : state} {labels : List label}
  {body : GetResponse}

/-- A call of the store ends in a state of the run, with what it read there. -/
def ReadsUpTo (R : Surroundings state label Db) (fk : Bool) (k : result -> GetCall) (s : state)
    (labels : List label) (body : GetResponse) (s' : state) (P : Db -> result -> Prop) : Prop :=
  exists before after mid v, labels = before ++ after ∧ runSteps R.step s before = some mid ∧
    P (R.contents mid) v ∧ ReadsAlong (engine fk) R (k v) mid after (.ok body) s'

theorem not_reads_error {e : ErrorResponse} :
    ¬ ReadsAlong (engine fk) R (Prog.ret (Except.error e)) s labels (Except.ok body) s' := by
  intro h
  cases h

theorem reads_getByEventKey {k : Row -> GetCall}
    (h : ReadsAlong (engine fk) R ((getByEventKey hostID eventID).bind (orMapTriageErr k)) s
      labels (.ok body) s') :
    ReadsUpTo R fk k s labels body s' (fun d row =>
      exists r, d.triage.find? (hostID, eventID) = some r ∧ row = scanRow r) := by
  rcases h.auto_cases with ⟨before, after, mid, answer, hlabels, hrun, hrest, hok⟩
  cases answer with
  | error e => exact absurd hrest not_reads_error
  | ok found =>
      cases found with
      | none => exact absurd hrest not_reads_error
      | some r =>
          rcases hok (some r) rfl with ⟨d, happly⟩
          have hfind : (R.contents mid).triage.find? (hostID, eventID) = some r :=
            congrArg Prod.fst (Except.ok.inj happly)
          exact ⟨before, after, mid, scanRow r, hlabels, hrun, ⟨r, hfind, rfl⟩, hrest⟩

theorem reads_listing {o : Stmt} {context : String} {scan : o.Res -> result}
    {k : result -> GetCall}
    (h : ReadsAlong (engine fk) R
      ((listing hostID eventID o context scan).bind (orMapTriageErr k)) s labels (.ok body) s') :
    ReadsUpTo R fk k s labels body s' (fun d v =>
      exists rows d', execStmt fk o d = .ok (rows, d') ∧ v = scan rows) := by
  rcases h.auto_cases with ⟨before, after, mid, answer, hlabels, hrun, hrest, _⟩
  cases answer with
  | error e => exact absurd hrest not_reads_error
  | ok found =>
      cases found with
      | none => exact absurd hrest not_reads_error
      | some r =>
          rcases hrest.auto_cases with
            ⟨before', after', mid', answer', hlabels', hrun', hrest', hok'⟩
          cases answer' with
          | error e => exact absurd hrest' not_reads_error
          | ok rows =>
              rcases hok' rows rfl with ⟨d', happly⟩
              have hthere : runSteps R.step s (before ++ before') = some mid' := by
                rw [runSteps_append, hrun]
                exact hrun'
              refine ⟨before ++ before', after', mid', scan rows, ?_, hthere,
                ⟨rows, d', happly, rfl⟩, hrest'⟩
              rw [hlabels, hlabels', List.append_assoc]

theorem reads_listNotes {k : List Note -> GetCall}
    (h : ReadsAlong (engine fk) R ((listNotes hostID eventID).bind (orMapTriageErr k)) s
      labels (.ok body) s') :
    ReadsUpTo R fk k s labels body s' (fun d notes => notes = notesShown d (hostID, eventID)) := by
  rw [listNotes_eq] at h
  rcases reads_listing h with ⟨before, after, mid, v, hlabels, hrun, ⟨rows, d', happly, hv⟩, hrest⟩
  cases happly
  exact ⟨before, after, mid, v, hlabels, hrun, hv, hrest⟩

theorem reads_listLog {k : List LogEntry -> GetCall}
    (h : ReadsAlong (engine fk) R ((listLog hostID eventID).bind (orMapTriageErr k)) s
      labels (.ok body) s') :
    ReadsUpTo R fk k s labels body s' (fun d log => log = logShown d (hostID, eventID)) := by
  rw [listLog_eq] at h
  rcases reads_listing h with ⟨before, after, mid, v, hlabels, hrun, ⟨rows, d', happly, hv⟩, hrest⟩
  cases happly
  exact ⟨before, after, mid, v, hlabels, hrun, hv, hrest⟩

/-- A get that answers with a body has read the row, then the notes, then the log. -/
theorem reads_handleTriageGet
    (h : ReadsAlong (engine fk) R (handleTriageGet hostID eventID) s labels (.ok body) s') :
    exists l1 l2 l3 l4 s1 s2 s3 r,
      labels = l1 ++ l2 ++ l3 ++ l4 ∧
      runSteps R.step s l1 = some s1 ∧ runSteps R.step s1 l2 = some s2 ∧
      runSteps R.step s2 l3 = some s3 ∧
      (R.contents s1).triage.find? (hostID, eventID) = some r ∧
      body = getResponse (scanRow r) (notesShown (R.contents s2) (hostID, eventID))
        (logShown (R.contents s3) (hostID, eventID)) ∧
      ¬ (hostID = "" || eventID = "") = true := by
  unfold handleTriageGet at h
  split at h
  · cases h
  · rename_i hids
    rcases reads_getByEventKey h with ⟨l1, rest1, s1, row, hl1, hrun1, ⟨r, hr, hrow⟩, h1⟩
    rcases reads_listNotes h1 with ⟨l2, rest2, s2, notes, hl2, hrun2, hnotes, h2⟩
    rcases reads_listLog h2 with ⟨l3, l4, s3, log, hl3, hrun3, hlog, h3⟩
    refine ⟨l1, l2, l3, l4, s1, s2, s3, r, ?_, hrun1, hrun2, hrun3, hr, ?_, hids⟩
    · rw [hl1, hl2, hl3, List.append_assoc, List.append_assoc]
    · cases h3
      rw [hrow, hnotes, hlog]

end

/-!
## One state
-/

/-- What a get answers when the contents stay as they are. -/
def ShowsAlone (fk : Bool) (hostID eventID : String) (d : Db) (body : GetResponse) : Prop :=
  (handleTriageGet hostID eventID).run (engine fk) Prog.noFaults ⟨d, none⟩ =
    (.ok body, ⟨d, none⟩)

theorem showsAlone_of_row {hostID eventID : String} {d : Db} {r : SqlRow} (fk : Bool)
    (hids : ¬ (hostID = "" || eventID = "") = true)
    (hr : d.triage.find? (hostID, eventID) = some r) :
    ShowsAlone fk hostID eventID d (getResponse (scanRow r) (notesShown d (hostID, eventID))
      (logShown d (hostID, eventID))) := by
  unfold ShowsAlone handleTriageGet
  rw [if_neg hids]
  simp only [getByEventKey, listNotes, listLog, getRow, Prog.bind, Prog.run, Engine.answer,
    Prog.noFaults_zero, Prog.noFaults_tail, engine, execStmt, hr, scanned, orMapTriageErr]
  rfl

theorem ShowsAlone.cases {fk : Bool} {hostID eventID : String} {d : Db} {body : GetResponse}
    (h : ShowsAlone fk hostID eventID d body) :
    exists r, d.triage.find? (hostID, eventID) = some r ∧
      body = getResponse (scanRow r) (notesShown d (hostID, eventID))
        (logShown d (hostID, eventID)) := by
  have hids : ¬ (hostID = "" || eventID = "") = true := by
    intro hids
    unfold ShowsAlone handleTriageGet at h
    rw [if_pos hids] at h
    cases h
  cases hr : d.triage.find? (hostID, eventID) with
  | some r =>
      have hsame := showsAlone_of_row fk hids hr
      unfold ShowsAlone at h hsame
      rw [hsame] at h
      cases h
      exact ⟨r, rfl, rfl⟩
  | none =>
      unfold ShowsAlone handleTriageGet at h
      rw [if_neg hids] at h
      simp only [getByEventKey, getRow, Prog.bind, Prog.run, Engine.answer, Prog.noFaults_zero,
        engine, execStmt, hr, scanned, orMapTriageErr] at h
      cases h

/-- The body names the status that its log ends with. -/
def StatusTold (row : RowResponse) (log : List LogResponse) : Prop :=
  log.getLast?.map LogResponse.toStatus = some (some row.status)

section

variable {ident : Type} [DecidableEq ident] {fk : Bool} {calls : ident -> WriteCall}
  {s : Writers ident} {hostID eventID : String}

theorem logShown_eq (h : Timely fk calls s) (key : String × String) :
    logShown s.store.committed key = (entriesOf s.store.committed key).map scanLog := by
  unfold logShown
  rw [h.chronological.logInTimeOrder]

theorem statusTold_of_timely (h : Timely fk calls s) {r : SqlRow}
    (hr : s.store.committed.triage.find? (hostID, eventID) = some r) :
    StatusTold (rowToResponse (scanRow r))
      ((logShown s.store.committed (hostID, eventID)).map logToResponse) := by
  have hlast := (h.audited.trail _ r hr).last
  unfold StatusTold
  rw [logShown_eq h, List.map_map, List.getLast?_map]
  cases hend : (entriesOf s.store.committed (hostID, eventID)).getLast? with
  | none =>
      rw [hend] at hlast
      cases hlast
  | some e =>
      rw [hend, Option.map_some, Option.some.injEq] at hlast
      simp [logToResponse, scanLog, hlast, rowToResponse, scanRow]

theorem ShowsAlone.statusTold (h : Timely fk calls s) {body : GetResponse}
    (hbody : ShowsAlone fk hostID eventID s.store.committed body) :
    StatusTold body.row body.log := by
  rcases hbody.cases with ⟨r, hr, rfl⟩
  exact statusTold_of_timely h hr

end

theorem TookEffect.present {ident : Type} {fk : Bool} {calls : ident -> WriteCall} {d d' : Db}
    {order : List (ident × Except Err Reply)} {key : String × String}
    (h : TookEffect fk calls d order d') (hex : exists r, d.triage.find? key = some r) :
    exists r, d'.triage.find? key = some r := by
  rcases h with ⟨hserial, hgood⟩
  induction hserial with
  | nil d => exact hex
  | @cons d mid d' t a rest hrun _ ih =>
      rcases hgood t a List.mem_cons_self with ⟨b, hb⟩
      rw [hb] at hrun
      exact ih ((prog_ok hrun).left.present hex)
        (fun u c hc => hgood u c (List.mem_cons_of_mem _ hc))

theorem getResponse_of_sameAt {key : String × String} {d1 d2 d3 : Db} (h12 : SameAt key d1 d2)
    (h13 : SameAt key d1 d3) (row : Row) :
    getResponse row (notesShown d2 key) (logShown d3 key) =
      getResponse row (notesShown d1 key) (logShown d1 key) := by
  unfold notesShown logShown
  rw [h12.notes, h13.log]

/-- The answer of a get among any writes: its row, notes and log are those of three
states in the order of the run.  The log starts with that of the row's state, which
ends at the row's status; and when no write of the key takes effect on the way, the
three states show the same. -/
def ReadInOrder {ident : Type} [DecidableEq ident] (fk : Bool) (calls : ident -> WriteCall)
    (clock : Int) (hostID eventID : String) (labels : List (WriterEvent ident))
    (body : GetResponse) : Prop :=
  exists l1 l2 l3 l4 s1 s2 s3 b1 b2 b3 mid1 mid2,
    labels = l1 ++ l2 ++ l3 ++ l4 ∧
    runSteps (Writers.step fk calls) (Writers.start calls clock) l1 = some s1 ∧
    runSteps (Writers.step fk calls) s1 l2 = some s2 ∧
    runSteps (Writers.step fk calls) s2 l3 = some s3 ∧
    ShowsAlone fk hostID eventID s1.store.committed b1 ∧
    ShowsAlone fk hostID eventID s2.store.committed b2 ∧
    ShowsAlone fk hostID eventID s3.store.committed b3 ∧
    body = { row := b1.row, notes := b2.notes, log := b3.log } ∧
    TookEffect fk calls s1.store.committed mid1 s2.store.committed ∧
    TookEffect fk calls s2.store.committed mid2 s3.store.committed ∧
    b1.log <+: body.log ∧ StatusTold body.row b1.log ∧
    ((forall t a, (t, a) ∈ mid1 ++ mid2 -> (calls t).key ≠ (hostID, eventID)) ->
      body = b1 ∧ StatusTold body.row body.log)

/-- Whatever upserts and notes run beside a get, and whatever fails. -/
theorem get_reads_in_order {ident : Type} [DecidableEq ident] {fk : Bool}
    {calls : ident -> WriteCall} {clock : Int} {hostID eventID : String}
    {events : List (ReaderEvent (WriterEvent ident) SqlErr)}
    {s : WithReader (Writers ident) Stmt Stmt.Res SqlErr (Except ErrorResponse GetResponse)}
    {body : GetResponse} (hclock : Time.InRange clock)
    (hrun : runSteps (WithReader.step (engine fk) (writersAround fk calls))
      ⟨Writers.start calls clock, handleTriageGet hostID eventID⟩ events = some s)
    (hret : s.reader = .ret (.ok body)) :
    ReadInOrder fk calls clock hostID eventID (events.filterMap ReaderEvent.label?) body := by
  have hreads := WithReader.readsAlong (onlyReads_handleTriageGet fk hostID eventID) hrun hret
  rcases reads_handleTriageGet hreads with
    ⟨l1, l2, l3, l4, s1, s2, s3, r, hlabels, hrun1, hrun2, hrun3, hr, hbody, hids⟩
  have ht1 : Timely fk calls s1 := timely_run (timely_start fk calls hclock) hrun1
  have ht2 : Timely fk calls s2 := timely_run ht1 hrun2
  rcases ht1.tookEffect hrun2 with ⟨mid1, h12⟩
  rcases ht2.tookEffect hrun3 with ⟨mid2, h23⟩
  rcases TookEffect.present h12 ⟨r, hr⟩ with ⟨r2, hr2⟩
  rcases TookEffect.present h23 ⟨r2, hr2⟩ with ⟨r3, hr3⟩
  have ht3 : Timely fk calls s3 := timely_run ht2 hrun3
  have htold := statusTold_of_timely ht1 hr
  refine ⟨l1, l2, l3, l4, s1, s2, s3, _, _, _, mid1, mid2, hlabels, hrun1, hrun2, hrun3,
    showsAlone_of_row fk hids hr, showsAlone_of_row fk hids hr2, showsAlone_of_row fk hids hr3,
    hbody, h12, h23, ?_, ?_, ?_⟩
  · rw [hbody]
    show (logShown s1.store.committed _).map logToResponse <+:
      (logShown s3.store.committed _).map logToResponse
    rw [logShown_eq ht1, logShown_eq ht3]
    exact (((h12.log_prefix _).trans (h23.log_prefix _)).map scanLog).map logToResponse
  · rw [hbody]
    exact htold
  · intro hother
    have hsame12 := h12.sameAt
      (fun t a ha => hother t a (List.mem_append.mpr (Or.inl ha)))
    have hsame23 := h23.sameAt
      (fun t a ha => hother t a (List.mem_append.mpr (Or.inr ha)))
    have hone : body = getResponse (scanRow r)
        (notesShown s1.store.committed (hostID, eventID))
        (logShown s1.store.committed (hostID, eventID)) :=
      hbody.trans (getResponse_of_sameAt hsame12 (hsame12.trans hsame23) (scanRow r))
    refine ⟨hone, ?_⟩
    rw [hone]
    exact htold

/-!
## A get beside a resolving upsert
-/

def openedAndResolved : Bool -> WriteCall
  | true => .upsert 0 ⟨"h", "e", noStatus, none, false, [123, 125], "ana"⟩
  | false => .upsert 0 ⟨"h", "e", statusResolved, none, false, [], "bo"⟩

def sixAccesses (t : Bool) : List (ReaderEvent (WriterEvent Bool) SqlErr) :=
  List.replicate 6 (.rest (.access (.access t none)))

def resolvedBetween : List (ReaderEvent (WriterEvent Bool) SqlErr) :=
  sixAccesses true ++ .read none :: sixAccesses false ++ List.replicate 4 (.read none)

theorem get_reads_in_order_resolvedBetween :
    exists s body, runSteps (WithReader.step (engine true)
        (writersAround true openedAndResolved))
        ⟨Writers.start openedAndResolved 0, handleTriageGet "h" "e"⟩ resolvedBetween = some s ∧
      s.reader = .ret (.ok body) ∧ Time.InRange 0 ∧
      ReadInOrder true openedAndResolved 0 "h" "e"
        (resolvedBetween.filterMap ReaderEvent.label?) body := by
  have hrun : exists s body, runSteps (WithReader.step (engine true)
        (writersAround true openedAndResolved))
        ⟨Writers.start openedAndResolved 0, handleTriageGet "h" "e"⟩ resolvedBetween = some s ∧
      s.reader = .ret (.ok body) := ⟨_, _, rfl, rfl⟩
  rcases hrun with ⟨s, body, hs, hret⟩
  have hclock : Time.InRange 0 := by decide
  exact ⟨s, body, hs, hret, hclock, get_reads_in_order hclock hs hret⟩

/-- The clock stands still, and the answer has the row as it was opened with a log that
goes on to its resolution; no state of the database shows that. -/
theorem not_get_consistent_resolvedBetween :
    exists s body, runSteps (WithReader.step (engine true)
        (writersAround true openedAndResolved))
        ⟨Writers.start openedAndResolved 0, handleTriageGet "h" "e"⟩ resolvedBetween = some s ∧
      s.reader = .ret (.ok body) ∧ ¬ StatusTold body.row body.log ∧
      forall labels s', runSteps (Writers.step true openedAndResolved)
          (Writers.start openedAndResolved 0) labels = some s' ->
        ¬ ShowsAlone true "h" "e" s'.store.committed body := by
  have hrun : exists s body, runSteps (WithReader.step (engine true)
        (writersAround true openedAndResolved))
        ⟨Writers.start openedAndResolved 0, handleTriageGet "h" "e"⟩ resolvedBetween = some s ∧
      s.reader = .ret (.ok body) ∧ body.row.status = "open" ∧
      body.log.map LogResponse.toStatus = [some "open", some "resolved"] :=
    ⟨_, _, rfl, rfl, rfl, rfl⟩
  rcases hrun with ⟨s, body, hs, hret, hstatus, hlog⟩
  have htorn : ¬ StatusTold body.row body.log := by
    unfold StatusTold
    rw [← List.getLast?_map, hlog, hstatus]
    decide
  refine ⟨s, body, hs, hret, htorn, ?_⟩
  intro labels s' hreach hshown
  have hclock : Time.InRange 0 := by decide
  exact htorn (hshown.statusTold (timely_run (timely_start true openedAndResolved hclock) hreach))

end Api
end LodelineManager
