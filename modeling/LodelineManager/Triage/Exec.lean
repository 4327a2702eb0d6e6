import LodelineManager.Triage.Repo

/-!
# What the writing calls do

Each writing call has the shape that the connection library serialises, and a
call that succeeds has one of a few effects on the tables.  Later modules lean on
these effects and never unfold a call again.
-/

namespace LodelineManager
namespace Triage

open Foundation SingleConnection Go

/-- The call returned no error. -/
def Succeeded {result : Type} (a : Except Err result) : Prop := exists v, a = .ok v

theorem not_succeeded_error {result : Type} (e : Err) :
    ¬ Succeeded (Except.error e : Except Err result) := by
  intro h
  rcases h with ⟨v, hv⟩
  cases hv

theorem succeeded_ok {result : Type} (v : result) :
    Succeeded (Except.ok v : Except Err result) :=
  ⟨v, rfl⟩

/-!
## Shapes
-/

theorem doomed_error {result : Type} (e : Err) :
    Doomed Succeeded (Prog.ret (.error e) : Call result) :=
  Doomed.ret (not_succeeded_error e)

theorem doomed_error_rollback {result : Type} (e : Err) :
    Doomed Succeeded ((Prog.ret (.error e) : Call result).deferRollback) :=
  Doomed.rollback (doomed_error e)

theorem inTx_commitTx {result : Type} (a : result) :
    InTx Succeeded (commitTx a : Call result).deferRollback :=
  InTx.commit (fun _ => doomed_error_rollback _) (succeeded_ok a)
    (Finished.rollback Finished.ret)

theorem inTx_appendLogTx {result : Type} {hostID eventID actor : String}
    {fromStatus toStatus : Option Status} {at_ : Int} {k : Except Err Unit -> Call result}
    (herr : forall e, Doomed Succeeded (k (.error e)).deferRollback)
    (hok : InTx Succeeded (k (.ok ())).deferRollback) :
    InTx Succeeded (appendLogTx hostID eventID actor fromStatus toStatus at_ k).deferRollback :=
  InTx.stmt (fun _ => herr _) (fun _ => hok)

theorem inTx_insertPath (now : Int) (inp : UpsertInput) :
    InTx Succeeded (insertPath now inp).deferRollback := by
  unfold insertPath
  split
  · exact InTx.doomed (doomed_error_rollback _)
  · refine InTx.stmt (fun _ => doomed_error_rollback _) (fun _ => ?_)
    exact inTx_appendLogTx (fun _ => doomed_error_rollback _) (inTx_commitTx _)

theorem inTx_updatePath (now : Int) (existing : Row) (inp : UpsertInput) :
    InTx Succeeded (updatePath now existing inp).deferRollback := by
  unfold updatePath
  refine InTx.stmt (fun _ => doomed_error_rollback _) (fun _ => ?_)
  cases (if statusChanges existing inp then some existing.status else none) with
  | none => exact inTx_commitTx _
  | some s => exact inTx_appendLogTx (fun _ => doomed_error_rollback _) (inTx_commitTx _)

theorem inTx_upsertTx (now : Int) (inp : UpsertInput) :
    InTx Succeeded (upsertTx now inp).deferRollback := by
  refine InTx.stmt (fun _ => doomed_error_rollback _) (fun r => ?_)
  cases r with
  | none => exact inTx_insertPath now inp
  | some r => exact inTx_updatePath now (scanRow r) inp

theorem callShape_upsert (fk : Bool) (now : Int) (inp : UpsertInput) :
    CallShape Succeeded (engine fk) (upsert now inp) := by
  unfold upsert
  cases upsertCheck inp with
  | some e => exact CallShape.doomed (doomed_error e)
  | none => exact CallShape.beginTx (fun _ => doomed_error _) (inTx_upsertTx now inp)

theorem readOnly_selectRow (fk : Bool) (hostID eventID : String) :
    ReadOnly (engine fk) (.selectRow hostID eventID) := by
  intro d r d' h
  cases h
  rfl

theorem callShape_appendNote (fk : Bool) (now : Int) (hostID eventID author body : String) :
    CallShape Succeeded (engine fk) (appendNote now hostID eventID author body) := by
  unfold appendNote
  split
  · exact CallShape.doomed (doomed_error _)
  · refine CallShape.read (readOnly_selectRow fk hostID eventID) (fun _ => doomed_error _)
      (fun r => ?_)
    cases r with
    | none => exact CallShape.doomed (doomed_error _)
    | some r =>
        exact CallShape.write (fun _ => doomed_error _)
          (fun id => ⟨_, succeeded_ok _, Finished.ret⟩)

/-!
## Effects
-/

def storedRow (row : Row) (h : row.status.isValid = true) : SqlRow :=
  { hostID := row.hostID, eventID := row.eventID, status := row.status, statusCheck := h,
    assignee := row.assignee, evidenceSnapshot := row.evidenceSnapshot,
    createdAt := formatTS row.createdAt, updatedAt := formatTS row.updatedAt }

def UpsertInput.key (inp : UpsertInput) : String × String := (inp.hostID, inp.eventID)

/-- What a successful upsert returns and leaves behind: a new row with the first
entry of its log, or a rewritten row, with one more entry when its status
moved. -/
inductive Upserted (now : Int) (inp : UpsertInput) (d : Db) : Row -> Db -> Prop where
  | inserted {t : KeyedTable SqlRow.key} (h : (insertedRow now inp).status.isValid = true) :
      d.triage.find? inp.key = none ->
      t.rows = d.triage.rows ++ [storedRow (insertedRow now inp) h] ->
      Upserted now inp d (insertedRow now inp)
        (({ d with triage := t } : Db).insertLog inp.hostID inp.eventID inp.actor none
          (some (insertedRow now inp).status) (formatTS now))
  | kept {r : SqlRow} (h : (updatedRow now (scanRow r) inp).status.isValid = true) :
      d.triage.find? inp.key = some r ->
      statusChanges (scanRow r) inp = false ->
      Upserted now inp d (updatedRow now (scanRow r) inp)
        (d.updateRow inp.key (updatedRow now (scanRow r) inp).status h
          (updatedAssignee (scanRow r) inp) (formatTS now))
  | moved {r : SqlRow} (h : (updatedRow now (scanRow r) inp).status.isValid = true) :
      d.triage.find? inp.key = some r ->
      statusChanges (scanRow r) inp = true ->
      Upserted now inp d (updatedRow now (scanRow r) inp)
        ((d.updateRow inp.key (updatedRow now (scanRow r) inp).status h
          (updatedAssignee (scanRow r) inp) (formatTS now)).insertLog inp.hostID inp.eventID
            inp.actor (some r.status) (some (updatedRow now (scanRow r) inp).status)
            (formatTS now))

theorem upsertCheck_status {inp : UpsertInput} (h : upsertCheck inp = none) :
    inp.status = noStatus ∨ inp.status.isValid = true := by
  unfold upsertCheck at h
  split at h
  · cases h
  · split at h
    · cases h
    · rename_i hstatus
      cases hvalid : inp.status.isValid with
      | true => exact Or.inr rfl
      | false =>
          apply Or.inl
          simpa [hvalid] using hstatus

theorem insertedRow_status_valid (now : Int) {inp : UpsertInput} (h : upsertCheck inp = none) :
    (insertedRow now inp).status.isValid = true := by
  unfold insertedRow
  show (if inp.status = noStatus then statusOpen else inp.status).isValid = true
  split
  · decide
  · rename_i hne
    exact (upsertCheck_status h).resolve_left hne

theorem updatedRow_status_valid (now : Int) {inp : UpsertInput} (r : SqlRow)
    (h : upsertCheck inp = none) :
    (updatedRow now (scanRow r) inp).status.isValid = true := by
  show (if statusChanges (scanRow r) inp then inp.status else r.status).isValid = true
  split
  · rename_i hchange
    have hne : inp.status ≠ noStatus := by
      have hboth := (Bool.and_eq_true _ _).mp hchange
      exact of_decide_eq_true hboth.left
    exact (upsertCheck_status h).resolve_left hne
  · exact r.statusCheck

theorem insertPath_run {inp : UpsertInput} {d : Db} (fk : Bool) (now : Int)
    (hcheck : upsertCheck inp = none) (hfind : d.triage.find? inp.key = none) :
    (inp.evidenceSnapshot.length = 0 ∧
        (insertPath now inp).deferRollback.run (engine fk) Prog.noFaults ⟨d, some d⟩ =
          (.error (.missingFields "EvidenceSnapshot required on insert"), ⟨d, none⟩)) ∨
      exists d', Upserted now inp d (insertedRow now inp) d' ∧
        (insertPath now inp).deferRollback.run (engine fk) Prog.noFaults ⟨d, some d⟩ =
          (.ok (insertedRow now inp), ⟨d', none⟩) := by
  have hvalid := insertedRow_status_valid now hcheck
  by_cases hlen : inp.evidenceSnapshot.length = 0
  · apply Or.inl
    unfold insertPath
    rw [if_pos hlen]
    exact ⟨hlen, rfl⟩
  · apply Or.inr
    rcases KeyedTable.insert?_of_find?_none
      (r := storedRow (insertedRow now inp) hvalid) hfind with ⟨t, hinsert, hrows⟩
    refine ⟨_, Upserted.inserted hvalid hfind hrows, ?_⟩
    unfold insertPath
    rw [if_neg hlen]
    have hrow : d.insertRow (storedRow (insertedRow now inp) hvalid) =
        .ok { d with triage := t } := by
      unfold Db.insertRow
      rw [hinsert]
    unfold storedRow at hrow
    simp only [Prog.deferRollback, Prog.run, Engine.answer, Prog.noFaults_zero, engine,
      execStmt, hvalid, dif_pos, hrow, appendLogTx, commitTx]
    rfl

theorem updatePath_run {inp : UpsertInput} {d : Db} {r : SqlRow} (fk : Bool) (now : Int)
    (hcheck : upsertCheck inp = none) (hfind : d.triage.find? inp.key = some r) :
    exists d', Upserted now inp d (updatedRow now (scanRow r) inp) d' ∧
      (updatePath now (scanRow r) inp).deferRollback.run (engine fk) Prog.noFaults
          ⟨d, some d⟩ = (.ok (updatedRow now (scanRow r) inp), ⟨d', none⟩) := by
  have hvalid := updatedRow_status_valid now r hcheck
  have hkey : (r.hostID, r.eventID) = inp.key := (KeyedTable.find?_eq_some_iff.mp hfind).right
  have hhost : r.hostID = inp.hostID := congrArg Prod.fst hkey
  have hevent : r.eventID = inp.eventID := congrArg Prod.snd hkey
  cases hchange : statusChanges (scanRow r) inp with
  | false =>
      refine ⟨_, Upserted.kept hvalid hfind hchange, ?_⟩
      unfold updatePath
      simp only [Prog.deferRollback, Prog.run, Engine.answer, Prog.noFaults_zero, engine,
        execStmt, hvalid, dif_pos, hchange, commitTx]
      show _ = (_, _)
      rw [← hkey]
      rfl
  | true =>
      refine ⟨_, Upserted.moved hvalid hfind hchange, ?_⟩
      unfold updatePath
      simp only [Prog.deferRollback, Prog.run, Engine.answer, Prog.noFaults_zero, engine,
        execStmt, hvalid, dif_pos, hchange, if_true, appendLogTx, commitTx]
      rw [← hkey, ← hhost, ← hevent]
      rfl

theorem upsert_ok {fk : Bool} {now : Int} {inp : UpsertInput} {d : Db} {row : Row}
    {c : Conn Db}
    (h : (upsert now inp).run (engine fk) Prog.noFaults ⟨d, none⟩ = (.ok row, c)) :
    Upserted now inp d row c.committed ∧ c.tx = none := by
  unfold upsert at h
  cases hcheck : upsertCheck inp with
  | some e =>
      rw [hcheck] at h
      cases h
  | none =>
      rw [hcheck] at h
      simp only [Prog.run, Prog.noFaults_zero, Prog.noFaults_tail, upsertTx, getRowTx,
        Prog.deferRollback, Engine.answer, engine, execStmt] at h
      cases hfind : d.triage.find? (inp.hostID, inp.eventID) with
      | none =>
          simp only [hfind, scanned] at h
          rcases insertPath_run fk now hcheck hfind with hempty | ⟨d', heff, hrun⟩
          · rw [← engine, hempty.right] at h
            cases h
          · rw [← engine, hrun] at h
            cases h
            exact ⟨heff, rfl⟩
      | some r =>
          simp only [hfind, scanned] at h
          rcases updatePath_run fk now hcheck hfind with ⟨d', heff, hrun⟩
          rw [← engine, hrun] at h
          cases h
          exact ⟨heff, rfl⟩

theorem upsert_existing {inp : UpsertInput} {d : Db} {r : SqlRow} (fk : Bool) (now : Int)
    (hcheck : upsertCheck inp = none) (hfind : d.triage.find? inp.key = some r) :
    exists d', Upserted now inp d (updatedRow now (scanRow r) inp) d' ∧
      (upsert now inp).run (engine fk) Prog.noFaults ⟨d, none⟩ =
        (.ok (updatedRow now (scanRow r) inp), ⟨d', none⟩) := by
  rcases updatePath_run fk now hcheck hfind with ⟨d', heff, hrun⟩
  refine ⟨d', heff, ?_⟩
  have hfind' : d.triage.find? (inp.hostID, inp.eventID) = some r := hfind
  unfold upsert
  simp only [hcheck, Prog.run, Prog.noFaults_zero, Prog.noFaults_tail, upsertTx, getRowTx,
    Prog.deferRollback, Engine.answer, engine, execStmt, hfind', scanned]
  exact hrun

/-- A successful note is one more row of {lit}`triage_notes`, under a key that has a
triage row. -/
theorem appendNote_ok {fk : Bool} {now : Int} {hostID eventID author body : String} {d : Db}
    {note : Note} {c : Conn Db}
    (h : (appendNote now hostID eventID author body).run (engine fk) Prog.noFaults ⟨d, none⟩ =
      (.ok note, c)) :
    (exists r, d.triage.find? (hostID, eventID) = some r) ∧
      c.committed = d.insertNote hostID eventID author body (formatTS now) ∧ c.tx = none := by
  unfold appendNote at h
  split at h
  · cases h
  · cases hfind : d.triage.find? (hostID, eventID) with
    | none =>
        simp only [getRow, Prog.run, Engine.answer, Prog.noFaults_zero, engine, execStmt,
          hfind, scanned] at h
        cases h
    | some r =>
        simp only [getRow, Prog.run, Engine.answer, Prog.noFaults_zero, Prog.noFaults_tail,
          engine, execStmt, hfind, scanned, Option.isNone_some, Bool.and_false] at h
        cases h
        exact ⟨⟨r, rfl⟩, rfl, rfl⟩

/-!
## Tables after an effect
-/

@[simp] theorem insertLog_triage (db : Db) (hostID eventID actor : String)
    (fromStatus toStatus : Option Status) (at_ : String) :
    (db.insertLog hostID eventID actor fromStatus toStatus at_).triage = db.triage := rfl

theorem find?_updateRow (db : Db) (key : String × String) (status : Status)
    (h : status.isValid = true) (assignee : Option String) (updatedAt : String)
    (key' : String × String) :
    (db.updateRow key status h assignee updatedAt).triage.find? key' =
      if key' = key then (db.triage.find? key').map (SqlRow.set status h assignee updatedAt)
      else db.triage.find? key' :=
  KeyedTable.find?_update db.triage key (SqlRow.set status h assignee updatedAt)
    (fun _ => rfl) key'

theorem storedRow_insertedRow_key {now : Int} {inp : UpsertInput}
    (h : (insertedRow now inp).status.isValid = true) :
    (storedRow (insertedRow now inp) h).key = inp.key := rfl

theorem exists_find?_updateRow {db : Db} {key key' : String × String} {status : Status}
    {h : status.isValid = true} {assignee : Option String} {updatedAt : String}
    (hex : exists r, db.triage.find? key' = some r) :
    exists r, (db.updateRow key status h assignee updatedAt).triage.find? key' = some r := by
  rcases hex with ⟨r, hr⟩
  rw [find?_updateRow, hr]
  split
  · exact ⟨_, rfl⟩
  · exact ⟨r, rfl⟩

theorem updatedRow_status_kept {now : Int} {r : SqlRow} {inp : UpsertInput}
    (h : statusChanges (scanRow r) inp = false) :
    (updatedRow now (scanRow r) inp).status = r.status := by
  show (if statusChanges (scanRow r) inp then inp.status else r.status) = r.status
  rw [h]
  rfl

theorem updatedRow_status_moved {now : Int} {r : SqlRow} {inp : UpsertInput}
    (h : statusChanges (scanRow r) inp = true) :
    (updatedRow now (scanRow r) inp).status = inp.status := by
  show (if statusChanges (scanRow r) inp then inp.status else r.status) = inp.status
  rw [h]
  rfl

theorem status_ne_of_statusChanges {r : SqlRow} {inp : UpsertInput}
    (h : statusChanges (scanRow r) inp = true) : r.status ≠ inp.status := by
  have hboth := (Bool.and_eq_true _ _).mp h
  exact fun heq => of_decide_eq_true hboth.right heq.symm

theorem Upserted.of_present {now : Int} {inp : UpsertInput} {d d' : Db} {row : Row} {r : SqlRow}
    (h : Upserted now inp d row d') (hfind : d.triage.find? inp.key = some r) :
    row = updatedRow now (scanRow r) inp ∧
      exists hvalid, d'.triage.find? inp.key = some
        (r.set row.status hvalid (updatedAssignee (scanRow r) inp) (formatTS now)) := by
  cases h with
  | inserted hvalid hnone hrows =>
      rw [hnone] at hfind
      cases hfind
  | kept hvalid hsome hchange =>
      rw [hfind] at hsome
      cases hsome
      refine ⟨rfl, hvalid, ?_⟩
      rw [find?_updateRow, if_pos rfl, hfind]
      rfl
  | moved hvalid hsome hchange =>
      rw [hfind] at hsome
      cases hsome
      refine ⟨rfl, hvalid, ?_⟩
      rw [insertLog_triage, find?_updateRow, if_pos rfl, hfind]
      rfl

/-- The stored form of a row, apart from the time of its creation. -/
def SqlRow.Holds (r : SqlRow) (row : Row) : Prop :=
  r.hostID = row.hostID ∧ r.eventID = row.eventID ∧ r.status = row.status ∧
    r.assignee = row.assignee ∧ r.evidenceSnapshot = row.evidenceSnapshot ∧
    r.updatedAt = formatTS row.updatedAt

theorem Upserted.stored {now : Int} {inp : UpsertInput} {d d' : Db} {row : Row}
    (h : Upserted now inp d row d') :
    exists r, d'.triage.find? inp.key = some r ∧ r.Holds row := by
  cases h with
  | inserted hvalid hnone hrows =>
      refine ⟨storedRow (insertedRow now inp) hvalid, ?_, rfl, rfl, rfl, rfl, rfl, rfl⟩
      rw [insertLog_triage, KeyedTable.find?_of_rows_append hrows]
      exact if_pos rfl
  | @kept r hvalid hsome hchange =>
      refine ⟨r.set (updatedRow now (scanRow r) inp).status hvalid
        (updatedAssignee (scanRow r) inp) (formatTS now), ?_, rfl, rfl, rfl, rfl, rfl, rfl⟩
      rw [find?_updateRow, if_pos rfl, hsome]
      rfl
  | @moved r hvalid hsome hchange =>
      refine ⟨r.set (updatedRow now (scanRow r) inp).status hvalid
        (updatedAssignee (scanRow r) inp) (formatTS now), ?_, rfl, rfl, rfl, rfl, rfl, rfl⟩
      rw [insertLog_triage, find?_updateRow, if_pos rfl, hsome]
      rfl

theorem Upserted.find?_other {now : Int} {inp : UpsertInput} {d d' : Db} {row : Row}
    {key : String × String} (h : Upserted now inp d row d') (hne : key ≠ inp.key) :
    d'.triage.find? key = d.triage.find? key := by
  cases h with
  | inserted hvalid hnone hrows =>
      rw [insertLog_triage, KeyedTable.find?_of_rows_append hrows]
      exact if_neg (fun heq => hne heq.symm)
  | kept hvalid hsome hchange =>
      rw [find?_updateRow, if_neg hne]
  | moved hvalid hsome hchange =>
      rw [insertLog_triage, find?_updateRow, if_neg hne]

/-!
## Writing calls

The store is written by these two operations only.  A served call is one of them
with the failures that its accesses meet.
-/

inductive WriteCall where
  | upsert (now : Int) (inp : UpsertInput)
  | appendNote (now : Int) (hostID eventID author body : String)

inductive Reply where
  | row (r : Row)
  | note (n : Note)

def WriteCall.prog : WriteCall -> Call Reply
  | upsert now inp => (Triage.upsert now inp).map (Except.map Reply.row)
  | appendNote now hostID eventID author body =>
      (Triage.appendNote now hostID eventID author body).map (Except.map Reply.note)

theorem succeeded_map {result result' : Type} (f : result -> result') (a : Except Err result) :
    Succeeded (Except.map f a) <-> Succeeded a := by
  cases a with
  | error e => exact ⟨fun h => absurd h (not_succeeded_error e),
      fun h => absurd h (not_succeeded_error e)⟩
  | ok v => exact ⟨fun _ => succeeded_ok v, fun _ => succeeded_ok (f v)⟩

theorem callShape_prog (fk : Bool) (w : WriteCall) :
    CallShape Succeeded (engine fk) w.prog := by
  cases w with
  | upsert now inp => exact (callShape_upsert fk now inp).map (succeeded_map Reply.row)
  | appendNote now hostID eventID author body =>
      exact (callShape_appendNote fk now hostID eventID author body).map
        (succeeded_map Reply.note)

/-- The effects of a successful writing call. -/
inductive WriteCall.Effect (d : Db) : WriteCall -> Reply -> Db -> Prop where
  | upsert {now : Int} {inp : UpsertInput} {row : Row} {d' : Db} :
      Upserted now inp d row d' -> Effect d (.upsert now inp) (.row row) d'
  | appendNote {now : Int} {hostID eventID author body : String} {r : SqlRow} {note : Note} :
      d.triage.find? (hostID, eventID) = some r ->
      Effect d (.appendNote now hostID eventID author body) (.note note)
        (d.insertNote hostID eventID author body (formatTS now))

theorem prog_ok {fk : Bool} {w : WriteCall} {d : Db} {a : Reply} {c : Conn Db}
    (h : w.prog.run (engine fk) Prog.noFaults ⟨d, none⟩ = (.ok a, c)) :
    w.Effect d a c.committed ∧ c.tx = none := by
  cases w with
  | upsert now inp =>
      rw [WriteCall.prog, Prog.run_map] at h
      cases hrun : (Triage.upsert now inp).run (engine fk) Prog.noFaults ⟨d, none⟩ with
      | mk res c' =>
          rw [hrun] at h
          cases res with
          | error e => cases h
          | ok row =>
              cases h
              have hok := upsert_ok hrun
              exact ⟨WriteCall.Effect.upsert hok.left, hok.right⟩
  | appendNote now hostID eventID author body =>
      rw [WriteCall.prog, Prog.run_map] at h
      cases hrun : (Triage.appendNote now hostID eventID author body).run (engine fk)
          Prog.noFaults ⟨d, none⟩ with
      | mk res c' =>
          rw [hrun] at h
          cases res with
          | error e => cases h
          | ok note =>
              cases h
              have hok := appendNote_ok hrun
              rcases hok.left with ⟨r, hr⟩
              rw [hok.right.left]
              exact ⟨WriteCall.Effect.appendNote hr, hok.right.right⟩

structure Served where
  call : WriteCall
  faults : Nat -> Option SqlErr

def serve (fk : Bool) (c : Conn Db) (l : Served) : Option (Conn Db) :=
  some (l.call.prog.run (engine fk) l.faults c).2

theorem appendNote_run_tx (fk : Bool) (now : Int) (hostID eventID author body : String)
    (faults : Nat -> Option SqlErr) (d : Db) :
    ((appendNote now hostID eventID author body).run (engine fk) faults ⟨d, none⟩).2.tx =
      none := by
  unfold appendNote
  split
  · rfl
  · unfold getRow
    simp only [Prog.run]
    cases (engine fk).answer (.selectRow hostID eventID) (faults 0) d with
    | error e => rfl
    | ok rd =>
        cases hrow : rd.1 with
        | none => simp only [hrow, scanned, Prog.run]
        | some r =>
            simp only [hrow, scanned, Prog.run]
            cases (engine fk).answer (.insertNote hostID eventID author body (formatTS now))
                (faults (0 + 1)) rd.2 with
            | error e => rfl
            | ok id => rfl

theorem upsert_run_tx (fk : Bool) (now : Int) (inp : UpsertInput)
    (faults : Nat -> Option SqlErr) (d : Db) :
    ((upsert now inp).run (engine fk) faults ⟨d, none⟩).2.tx = none := by
  unfold upsert
  cases upsertCheck inp with
  | some e => rfl
  | none =>
      simp only [Prog.run]
      cases faults 0 with
      | some e => rfl
      | none => exact Prog.run_deferRollback_tx (engine fk) (upsertTx now inp) _ _

theorem prog_run_tx (fk : Bool) (w : WriteCall) (faults : Nat -> Option SqlErr) (d : Db) :
    (w.prog.run (engine fk) faults ⟨d, none⟩).2.tx = none := by
  cases w with
  | upsert now inp =>
      rw [WriteCall.prog, Prog.run_map]
      exact upsert_run_tx fk now inp faults d
  | appendNote now hostID eventID author body =>
      rw [WriteCall.prog, Prog.run_map]
      exact appendNote_run_tx fk now hostID eventID author body faults d

theorem prog_run_cases (fk : Bool) (w : WriteCall) (faults : Nat -> Option SqlErr) (d : Db) :
    let out := w.prog.run (engine fk) faults ⟨d, none⟩
    (exists e, out.1 = .error e) ∧ out.2.committed = d ∨
      exists a, out.1 = .ok a ∧ w.Effect d a out.2.committed := by
  intro out
  rcases (callShape_prog fk w).run_faults faults d with hfail | ⟨hgood, hsame⟩
  · cases hres : out.1 with
    | error e => exact Or.inl ⟨⟨e, rfl⟩, hfail.right⟩
    | ok a => exact absurd ⟨a, hres⟩ hfail.left
  · rcases hgood with ⟨a, ha⟩
    refine Or.inr ⟨a, ha, ?_⟩
    have hclean : w.prog.run (engine fk) Prog.noFaults ⟨d, none⟩ = (.ok a, out.2) :=
      hsame.symm.trans (Prod.ext ha rfl)
    exact (prog_ok hclean).left

theorem serve_cases {fk : Bool} {d : Db} {l : Served} {c : Conn Db}
    (h : serve fk ⟨d, none⟩ l = some c) :
    c.tx = none ∧ (c.committed = d ∨ exists a, l.call.Effect d a c.committed) := by
  cases h
  constructor
  · exact prog_run_tx fk l.call l.faults d
  · rcases prog_run_cases fk l.call l.faults d with hfail | ⟨a, _, heff⟩
    · exact Or.inl hfail.right
    · exact Or.inr ⟨a, heff⟩

end Triage
end LodelineManager
