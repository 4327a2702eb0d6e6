import LodelineManager.Go.TimeParse
import LodelineManager.Triage.Schema

/-!
# The triage repository

The operations of the store as calls on the database.  {lit}`now` is the reading
that {lit}`r.now()` gives the call; every access may fail and then returns early with
the wrapped failure, as in the source.
-/

namespace LodelineManager
namespace Triage

open Foundation SingleConnection Go

abbrev Call (result : Type) := Prog Stmt Stmt.Res SqlErr (Except Err result)

def formatTS (t : Int) : String := String.ofList (formatUTC t)

def parseTS (s : String) : Int := (parseTime s.toList).getD zeroTime

def scanRow (r : SqlRow) : Row :=
  { hostID := r.hostID, eventID := r.eventID, status := r.status, assignee := r.assignee,
    evidenceSnapshot := r.evidenceSnapshot, createdAt := parseTS r.createdAt,
    updatedAt := parseTS r.updatedAt }

def scanned : Except SqlErr (Option SqlRow) -> Except Err Row
  | .error e => .error (.database "triage: scan" e)
  | .ok none => .error .notFound
  | .ok (some r) => .ok (scanRow r)

def getRowTx {result : Type} (hostID eventID : String)
    (k : Except Err Row -> Call result) : Call result :=
  .stmt (.selectRow hostID eventID) (fun got => k (scanned got))

def getRow {result : Type} (hostID eventID : String)
    (k : Except Err Row -> Call result) : Call result :=
  .auto (.selectRow hostID eventID) (fun got => k (scanned got))

def appendLogTx {result : Type} (hostID eventID actor : String)
    (fromStatus toStatus : Option Status) (at_ : Int)
    (k : Except Err Unit -> Call result) : Call result :=
  .stmt (.insertLog hostID eventID actor fromStatus toStatus (formatTS at_)) (fun done =>
    match done with
    | .error e => k (.error (.database "triage: insert log" e))
    | .ok _ => k (.ok ()))

def commitTx {result : Type} (a : result) : Call result :=
  .commit (fun done =>
    match done with
    | .error e => .ret (.error (.database "triage: commit" e))
    | .ok _ => .ret (.ok a))

/-!
## Upsert
-/

def insertedRow (now : Int) (inp : UpsertInput) : Row :=
  { hostID := inp.hostID
    eventID := inp.eventID
    status := if inp.status = noStatus then statusOpen else inp.status
    assignee := inp.assignee
    evidenceSnapshot := inp.evidenceSnapshot
    createdAt := now
    updatedAt := now }

def insertPath (now : Int) (inp : UpsertInput) : Call Row :=
  if inp.evidenceSnapshot.length = 0 then
    .ret (.error (.missingFields "EvidenceSnapshot required on insert"))
  else
    let row := insertedRow now inp
    .stmt (.insertRow row.hostID row.eventID row.status row.assignee row.evidenceSnapshot
        (formatTS row.createdAt) (formatTS row.updatedAt)) (fun done =>
      match done with
      | .error e => .ret (.error (.database "triage: insert" e))
      | .ok _ =>
          appendLogTx row.hostID row.eventID inp.actor none (some row.status) now (fun logged =>
            match logged with
            | .error e => .ret (.error e)
            | .ok _ => commitTx row))

def statusChanges (existing : Row) (inp : UpsertInput) : Bool :=
  decide (inp.status ≠ noStatus) && decide (inp.status ≠ existing.status)

def updatedAssignee (existing : Row) (inp : UpsertInput) : Option String :=
  if inp.clearAssignee then none
  else
    match inp.assignee with
    | none => existing.assignee
    | some v => some v

def updatedRow (now : Int) (existing : Row) (inp : UpsertInput) : Row :=
  { existing with
    updatedAt := now
    status := if statusChanges existing inp then inp.status else existing.status
    assignee := updatedAssignee existing inp }

def updatePath (now : Int) (existing : Row) (inp : UpsertInput) : Call Row :=
  let updated := updatedRow now existing inp
  let fromStatus := if statusChanges existing inp then some existing.status else none
  .stmt (.updateRow updated.status updated.assignee (formatTS updated.updatedAt)
      updated.hostID updated.eventID) (fun done =>
    match done with
    | .error e => .ret (.error (.database "triage: update" e))
    | .ok _ =>
        match fromStatus with
        | none => commitTx updated
        | some s =>
            appendLogTx updated.hostID updated.eventID inp.actor (some s)
              (some updated.status) now (fun logged =>
              match logged with
              | .error e => .ret (.error e)
              | .ok _ => commitTx updated))

def upsertTx (now : Int) (inp : UpsertInput) : Call Row :=
  getRowTx inp.hostID inp.eventID (fun existing =>
    match existing with
    | .error .notFound => insertPath now inp
    | .error e => .ret (.error e)
    | .ok row => updatePath now row inp)

def upsertCheck (inp : UpsertInput) : Option Err :=
  if inp.hostID = "" || inp.eventID = "" || inp.actor = "" then
    some (.missingFields "HostID/EventID/Actor")
  else if decide (inp.status ≠ noStatus) && !inp.status.isValid then
    some (.invalidStatus inp.status)
  else none

def upsert (now : Int) (inp : UpsertInput) : Call Row :=
  match upsertCheck inp with
  | some e => .ret (.error e)
  | none =>
      .beginTx (fun begun =>
        match begun with
        | .error e => .ret (.error (.database "triage: begin" e))
        | .ok _ => (upsertTx now inp).deferRollback)

/-!
## Notes
-/

/-- No transaction: the lookup and the insert are two accesses. -/
def appendNote (now : Int) (hostID eventID author body : String) : Call Note :=
  if hostID = "" || eventID = "" || author = "" || body = "" then
    .ret (.error (.missingFields "hostID/eventID/author/body"))
  else
    getRow hostID eventID (fun existing =>
      match existing with
      | .error e => .ret (.error e)
      | .ok _ =>
          .auto (.insertNote hostID eventID author body (formatTS now)) (fun done =>
            match done with
            | .error e => .ret (.error (.database "triage: insert note" e))
            | .ok id =>
                .ret (.ok { id := id, hostID := hostID, eventID := eventID,
                            author := author, body := body, createdAt := now })))

/-!
## Reads
-/

def getByEventKey (hostID eventID : String) : Call Row :=
  getRow hostID eventID (fun existing => .ret existing)

def clampLimit (n : Int) : Nat :=
  if n <= 0 then 50 else if n > 1000 then 1000 else n.toNat

def cursorSep : Char := '|'

def encodeCursor (t : Int) (host event : String) : String :=
  formatTS t ++ "|" ++ host ++ "|" ++ event

/-- {lit}`strings.SplitN(s, "|", 2)` on characters. -/
def cutAt (sep : Char) : List Char -> Option (List Char × List Char)
  | [] => none
  | c :: rest =>
      if c = sep then some ([], rest)
      else
        match cutAt sep rest with
        | none => none
        | some (front, back) => some (c :: front, back)

/-- {lit}`strings.SplitN(s, "|", 3)`, which must give three parts. -/
def decodeCursor (s : String) : Except Err (Int × String × String) :=
  match cutAt cursorSep s.toList with
  | none => .error .malformedCursor
  | some (ts, rest) =>
      match cutAt cursorSep rest with
      | none => .error .malformedCursor
      | some (host, event) =>
          match parseTime ts with
          | none => .error .malformedCursorTime
          | some t => .ok (t, String.ofList host, String.ofList event)

def listStatuses (opts : ListOpts) : List Status :=
  if opts.statuses.length = 0 then allStatuses else opts.statuses

def listCursor (opts : ListOpts) : Except Err (Option (String × String × String)) :=
  if opts.cursor = "" then .ok none
  else
    match decodeCursor opts.cursor with
    | .error e => .error e
    | .ok (t, host, event) => .ok (some (formatTS t, host, event))

def listPage (limit : Nat) (out : List Row) : ListResult :=
  if out.length > limit then
    let page := out.take limit
    match page.getLast? with
    | none => { rows := page, nextCursor := "" }
    | some last =>
        { rows := page, nextCursor := encodeCursor last.updatedAt last.hostID last.eventID }
  else { rows := out, nextCursor := "" }

def listByStatus (opts : ListOpts) : Call ListResult :=
  let limit := clampLimit opts.limit
  match (listStatuses opts).find? (fun s => !s.isValid) with
  | some s => .ret (.error (.invalidStatus s))
  | none =>
      match listCursor opts with
      | .error e => .ret (.error e)
      | .ok cursor =>
          .auto (.selectByStatus (listStatuses opts) cursor (limit + 1)) (fun got =>
            match got with
            | .error e => .ret (.error (.database "triage: list" e))
            | .ok rows => .ret (.ok (listPage limit (rows.map scanRow))))

def scanNote (n : SqlNote) : Note :=
  { id := n.id, hostID := n.hostID, eventID := n.eventID, author := n.author, body := n.body,
    createdAt := parseTS n.createdAt }

def listNotes (hostID eventID : String) : Call (List Note) :=
  getRow hostID eventID (fun existing =>
    match existing with
    | .error e => .ret (.error e)
    | .ok _ =>
        .auto (.selectNotes hostID eventID) (fun got =>
          match got with
          | .error e => .ret (.error (.database "triage: list notes" e))
          | .ok rows => .ret (.ok (rows.map scanNote))))

def scanLog (e : SqlLog) : LogEntry :=
  { id := e.id, hostID := e.hostID, eventID := e.eventID, actor := e.actor,
    fromStatus := e.fromStatus, toStatus := e.toStatus, at_ := parseTS e.at_ }

def listLog (hostID eventID : String) : Call (List LogEntry) :=
  getRow hostID eventID (fun existing =>
    match existing with
    | .error e => .ret (.error e)
    | .ok _ =>
        .auto (.selectLog hostID eventID) (fun got =>
          match got with
          | .error e => .ret (.error (.database "triage: list log" e))
          | .ok rows => .ret (.ok (rows.map scanLog))))

end Triage
end LodelineManager
