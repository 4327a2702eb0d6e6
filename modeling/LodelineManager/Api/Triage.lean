import LodelineManager.Triage.Exec

/-!
# The triage handlers

What the handlers check before they call the store, and how the errors of the
store are answered.
-/

namespace LodelineManager
namespace Api

open Triage

structure ErrorResponse where
  status : Nat
  code : String
  message : String
  deriving DecidableEq

def invalidQuery (message : String) : ErrorResponse :=
  { status := 400, code := "invalid_query", message := message }

structure UpsertRequest where
  hostID : String
  eventID : String
  status : Status
  assignee : Option String
  clearAssignee : Bool
  evidenceSnapshot : RawMessage

structure NoteRequest where
  hostID : String
  eventID : String
  body : String

/-- The store call that an upsert request leads to; {lit}`subject` is the analyst of the
session, and a body that is no JSON decodes to nothing. -/
def handleTriageUpsert (now : Int) (subject : String) (body : Option UpsertRequest) :
    Except ErrorResponse WriteCall :=
  match body with
  | none => .error (invalidQuery "malformed JSON body")
  | some req =>
      if req.hostID = "" || req.eventID = "" then
        .error (invalidQuery "host_id and event_id are required")
      else if decide (req.status ≠ noStatus) && !req.status.isValid then
        .error (invalidQuery
          "status must be one of: open, acknowledged, investigating, resolved")
      else
        .ok (.upsert now
          { hostID := req.hostID, eventID := req.eventID, status := req.status,
            assignee := req.assignee, clearAssignee := req.clearAssignee,
            evidenceSnapshot := req.evidenceSnapshot, actor := subject })

def handleTriageNote (now : Int) (subject : String) (body : Option NoteRequest) :
    Except ErrorResponse WriteCall :=
  match body with
  | none => .error (invalidQuery "malformed JSON body")
  | some req =>
      if req.hostID = "" || req.eventID = "" || req.body = "" then
        .error (invalidQuery "host_id, event_id, body are required")
      else .ok (.appendNote now req.hostID req.eventID subject req.body)

def mapTriageErr : Err -> ErrorResponse
  | .notFound => { status := 404, code := "not_found", message := "triage row not found" }
  | .invalidStatus s => invalidQuery (Err.invalidStatus s).text
  | .missingFields what => invalidQuery (Err.missingFields what).text
  | e => { status := 500, code := "internal", message := e.text }

theorem handleTriageUpsert_ok {now : Int} {subject : String} {req : UpsertRequest}
    {call : WriteCall} (h : handleTriageUpsert now subject (some req) = .ok call) :
    exists inp, call = .upsert now inp ∧ inp.key = (req.hostID, req.eventID) ∧
      inp.status = req.status ∧ inp.actor = subject := by
  unfold handleTriageUpsert at h
  simp only at h
  split at h
  · cases h
  · split at h
    · cases h
    · cases h
      exact ⟨_, rfl, rfl, rfl, rfl⟩

theorem handleTriageUpsert_ids {now : Int} {subject : String} {req : UpsertRequest}
    {call : WriteCall} (h : handleTriageUpsert now subject (some req) = .ok call) :
    req.hostID ≠ "" ∧ req.eventID ≠ "" := by
  unfold handleTriageUpsert at h
  simp only at h
  split at h
  · cases h
  · rename_i hids
    simpa using hids

theorem handleTriageNote_ok {now : Int} {subject : String} {req : NoteRequest}
    {call : WriteCall} (h : handleTriageNote now subject (some req) = .ok call) :
    call = .appendNote now req.hostID req.eventID subject req.body := by
  unfold handleTriageNote at h
  simp only at h
  split at h
  · cases h
  · cases h
    rfl

end Api
end LodelineManager
