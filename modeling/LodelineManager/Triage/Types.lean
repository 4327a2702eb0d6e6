import LodelineManager.Go.Time

/-!
# Triage records

The Go-side values of the triage store: rows with parsed timestamps, the inputs
of its operations, and its errors with their texts.  {lit}`Status` is a string type,
as in the source: inputs may carry any text and are checked.
-/

namespace LodelineManager
namespace Triage

/-- {lit}`json.RawMessage`: bytes that are never re-shaped. -/
abbrev RawMessage := List UInt8

structure Status where
  text : String
  deriving DecidableEq

def statusOpen : Status := ⟨"open"⟩

def statusAcknowledged : Status := ⟨"acknowledged"⟩

def statusInvestigating : Status := ⟨"investigating"⟩

def statusResolved : Status := ⟨"resolved"⟩

def noStatus : Status := ⟨""⟩

def allStatuses : List Status :=
  [statusOpen, statusAcknowledged, statusInvestigating, statusResolved]

def Status.isValid (s : Status) : Bool :=
  allStatuses.any (fun v => decide (v = s))

theorem isValid_iff_mem (s : Status) : s.isValid = true <-> s ∈ allStatuses := by
  unfold Status.isValid
  simp only [List.any_eq_true, decide_eq_true_eq]
  constructor
  · intro h
    rcases h with ⟨v, hv, heq⟩
    exact heq ▸ hv
  · intro h
    exact ⟨s, h, rfl⟩

structure Row where
  hostID : String
  eventID : String
  status : Status
  assignee : Option String
  evidenceSnapshot : RawMessage
  createdAt : Int
  updatedAt : Int
  deriving DecidableEq

structure Note where
  id : Nat
  hostID : String
  eventID : String
  author : String
  body : String
  createdAt : Int
  deriving DecidableEq

structure LogEntry where
  id : Nat
  hostID : String
  eventID : String
  actor : String
  fromStatus : Option Status
  toStatus : Option Status
  at_ : Int
  deriving DecidableEq

/-- Payload of an upsert: the empty status and a missing assignee mean "leave
unchanged"; the evidence is only used when the row is new. -/
structure UpsertInput where
  hostID : String
  eventID : String
  status : Status
  assignee : Option String
  clearAssignee : Bool
  evidenceSnapshot : RawMessage
  actor : String
  deriving DecidableEq

structure ListOpts where
  statuses : List Status
  limit : Int
  cursor : String

structure ListResult where
  rows : List Row
  nextCursor : String
  deriving DecidableEq

/-- Failures of a database access. -/
inductive SqlErr where
  | constraint (what : String)
  | txDone
  | driver (message : String)
  deriving DecidableEq

def SqlErr.text : SqlErr -> String
  | constraint what => "constraint failed: " ++ what
  | txDone => "sql: transaction has already been committed or rolled back"
  | driver message => message

/-- What the operations report; {lit}`database` wraps the failure of an access. -/
inductive Err where
  | notFound
  | invalidStatus (s : Status)
  | missingFields (what : String)
  | database (context : String) (cause : SqlErr)
  | malformedCursor
  | malformedCursorTime
  deriving DecidableEq

def Err.text : Err -> String
  | notFound => "triage: not found"
  | invalidStatus s => "triage: invalid status: \"" ++ s.text ++ "\""
  | missingFields what => "triage: missing required fields: " ++ what
  | database context cause => context ++ ": " ++ cause.text
  | malformedCursor => "triage: malformed cursor"
  | malformedCursorTime => "triage: malformed cursor ts"

end Triage
end LodelineManager
