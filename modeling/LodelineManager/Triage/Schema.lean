import LodelineManager.Foundation.KeyedTable
import LodelineManager.Foundation.SingleConnection
import LodelineManager.Triage.Types
import Mathlib.Data.List.Sort

/-!
# The triage database

The three tables of the schema and the statements the store runs on them.
Timestamps are TEXT.  A stored row carries the {lit}`CHECK` on its status, and the
triage table its primary key, so a database that breaks either cannot be built;
{lit}`triage_log` has no foreign key, and that of {lit}`triage_notes` is enforced only
when the connection asks for it.
-/

namespace LodelineManager
namespace Triage

open Foundation SingleConnection

structure SqlRow where
  hostID : String
  eventID : String
  status : Status
  statusCheck : status.isValid = true
  assignee : Option String
  evidenceSnapshot : RawMessage
  createdAt : String
  updatedAt : String
  deriving DecidableEq

def SqlRow.key (r : SqlRow) : String × String := (r.hostID, r.eventID)

structure SqlLog where
  id : Nat
  hostID : String
  eventID : String
  actor : String
  fromStatus : Option Status
  toStatus : Option Status
  at_ : String
  deriving DecidableEq

def SqlLog.key (e : SqlLog) : String × String := (e.hostID, e.eventID)

structure SqlNote where
  id : Nat
  hostID : String
  eventID : String
  author : String
  body : String
  createdAt : String
  deriving DecidableEq

def SqlNote.key (n : SqlNote) : String × String := (n.hostID, n.eventID)

/-- The tables, and the largest ids {lit}`AUTOINCREMENT` has given out. -/
structure Db where
  triage : KeyedTable SqlRow.key
  triageLog : List SqlLog
  logSeq : Nat
  triageNotes : List SqlNote
  noteSeq : Nat

def Db.empty : Db :=
  { triage := KeyedTable.empty SqlRow.key, triageLog := [], logSeq := 0,
    triageNotes := [], noteSeq := 0 }

inductive Stmt where
  | selectRow (hostID eventID : String)
  | insertRow (hostID eventID : String) (status : Status) (assignee : Option String)
      (evidenceSnapshot : RawMessage) (createdAt updatedAt : String)
  | updateRow (status : Status) (assignee : Option String) (updatedAt : String)
      (hostID eventID : String)
  | insertLog (hostID eventID actor : String) (fromStatus toStatus : Option Status)
      (at_ : String)
  | insertNote (hostID eventID author body createdAt : String)
  | selectByStatus (statuses : List Status) (cursor : Option (String × String × String))
      (limit : Nat)
  | selectNotes (hostID eventID : String)
  | selectLog (hostID eventID : String)

/-- What a statement returns; a row lookup returns nothing for
{lit}`sql.ErrNoRows`, an insert its new id. -/
def Stmt.Res : Stmt -> Type
  | .selectRow _ _ => Option SqlRow
  | .insertRow _ _ _ _ _ _ _ => Unit
  | .updateRow _ _ _ _ _ => Unit
  | .insertLog _ _ _ _ _ _ => Nat
  | .insertNote _ _ _ _ _ => Nat
  | .selectByStatus _ _ _ => List SqlRow
  | .selectNotes _ _ => List SqlNote
  | .selectLog _ _ => List SqlLog

/-!
## Statements
-/

/-- {lit}`ORDER BY updated_at DESC, host_id ASC, event_id ASC`. -/
def listOrder (a b : SqlRow) : Prop :=
  b.updatedAt < a.updatedAt ∨
    a.updatedAt = b.updatedAt ∧
      (a.hostID < b.hostID ∨ a.hostID = b.hostID ∧ a.eventID <= b.eventID)

instance : DecidableRel listOrder :=
  fun _ _ => inferInstanceAs (Decidable (_ ∨ _))

/-- {lit}`updated_at < ? OR (updated_at = ? AND (host_id, event_id) > (?, ?))`. -/
def afterCursor (cursor : String × String × String) (r : SqlRow) : Bool :=
  decide (r.updatedAt < cursor.1) ||
    (decide (r.updatedAt = cursor.1) &&
      (decide (cursor.2.1 < r.hostID) ||
        (decide (r.hostID = cursor.2.1) && decide (cursor.2.2 < r.eventID))))

def cursorClause (cursor : Option (String × String × String)) (r : SqlRow) : Bool :=
  match cursor with
  | none => true
  | some c => afterCursor c r

/-- {lit}`ORDER BY at ASC, id ASC`. -/
def logOrder (a b : SqlLog) : Prop :=
  a.at_ < b.at_ ∨ a.at_ = b.at_ ∧ a.id <= b.id

instance : DecidableRel logOrder :=
  fun _ _ => inferInstanceAs (Decidable (_ ∨ _))

/-- {lit}`ORDER BY created_at ASC, id ASC`. -/
def noteOrder (a b : SqlNote) : Prop :=
  a.createdAt < b.createdAt ∨ a.createdAt = b.createdAt ∧ a.id <= b.id

instance : DecidableRel noteOrder :=
  fun _ _ => inferInstanceAs (Decidable (_ ∨ _))

def Db.insertRow (db : Db) (r : SqlRow) : Except SqlErr Db :=
  match db.triage.insert? r with
  | none => .error (.constraint "UNIQUE triage.host_id, triage.event_id")
  | some t => .ok { db with triage := t }

def SqlRow.set (status : Status) (h : status.isValid = true) (assignee : Option String)
    (updatedAt : String) (r : SqlRow) : SqlRow :=
  { r with status := status, statusCheck := h, assignee := assignee, updatedAt := updatedAt }

def Db.updateRow (db : Db) (key : String × String) (status : Status)
    (h : status.isValid = true) (assignee : Option String) (updatedAt : String) : Db :=
  { db with
    triage := db.triage.update key (SqlRow.set status h assignee updatedAt) (fun _ => rfl) }

def Db.insertLog (db : Db) (hostID eventID actor : String) (fromStatus toStatus : Option Status)
    (at_ : String) : Db :=
  { db with
    triageLog := db.triageLog ++
      [{ id := db.logSeq + 1, hostID := hostID, eventID := eventID, actor := actor,
         fromStatus := fromStatus, toStatus := toStatus, at_ := at_ }]
    logSeq := db.logSeq + 1 }

def Db.insertNote (db : Db) (hostID eventID author body createdAt : String) : Db :=
  { db with
    triageNotes := db.triageNotes ++
      [{ id := db.noteSeq + 1, hostID := hostID, eventID := eventID, author := author,
         body := body, createdAt := createdAt }]
    noteSeq := db.noteSeq + 1 }

/-- What SQLite does with a statement; {lit}`fk` is the {lit}`foreign_keys` pragma. -/
def execStmt (fk : Bool) : (o : Stmt) -> Db -> Except SqlErr (o.Res × Db)
  | .selectRow hostID eventID, db => .ok (db.triage.find? (hostID, eventID), db)
  | .insertRow hostID eventID status assignee evidenceSnapshot createdAt updatedAt, db =>
      if h : status.isValid = true then
        match db.insertRow
            { hostID := hostID, eventID := eventID, status := status, statusCheck := h,
              assignee := assignee, evidenceSnapshot := evidenceSnapshot,
              createdAt := createdAt, updatedAt := updatedAt } with
        | .error e => .error e
        | .ok db' => .ok ((), db')
      else .error (.constraint "CHECK triage.status")
  | .updateRow status assignee updatedAt hostID eventID, db =>
      if h : status.isValid = true then
        .ok ((), db.updateRow (hostID, eventID) status h assignee updatedAt)
      else .error (.constraint "CHECK triage.status")
  | .insertLog hostID eventID actor fromStatus toStatus at_, db =>
      .ok (db.logSeq + 1, db.insertLog hostID eventID actor fromStatus toStatus at_)
  | .insertNote hostID eventID author body createdAt, db =>
      if fk && (db.triage.find? (hostID, eventID)).isNone then
        .error (.constraint "FOREIGN KEY triage_notes")
      else .ok (db.noteSeq + 1, db.insertNote hostID eventID author body createdAt)
  | .selectByStatus statuses cursor limit, db =>
      let matching := db.triage.rows.filter
        (fun r => decide (r.status ∈ statuses) && cursorClause cursor r)
      .ok ((matching.insertionSort listOrder).take limit, db)
  | .selectNotes hostID eventID, db =>
      .ok ((db.triageNotes.filter (fun n => decide (n.key = (hostID, eventID)))).insertionSort
        noteOrder, db)
  | .selectLog hostID eventID, db =>
      .ok ((db.triageLog.filter (fun e => decide (e.key = (hostID, eventID)))).insertionSort
        logOrder, db)

def engine (fk : Bool) : Engine Db Stmt Stmt.Res SqlErr :=
  { apply := execStmt fk, txDone := SqlErr.txDone }

end Triage
end LodelineManager
