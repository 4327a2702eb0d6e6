import LodelineManager.Web.Events

/-!
# The slide-over

The forms of the slide-over turn the open event and the cached triage detail into
requests.  The detail may be loading, may have failed, or may be out of date; the
forms only look at whether there is one.
-/

namespace LodelineManager
namespace Web

open Triage

/-!
## The triage detail
-/

/-- The error classes of the API client; {lit}`network` is a request that got no answer. -/
inductive ApiError where
  | unauthorized
  | sessionExpired
  | notFound
  | serviceUnavailable
  | unknown (status : Nat) (code : String)
  | network
  deriving DecidableEq

/-- The detail query of an event, with the row it last loaded and the error of the last
attempt.  A failed refetch keeps the data. -/
structure DetailQuery where
  data : Option Row
  error : Option ApiError
  deriving DecidableEq

def DetailQuery.loading : DetailQuery := { data := none, error := none }

def DetailQuery.isPending (q : DetailQuery) : Bool := q.data.isNone && q.error.isNone

def DetailQuery.loaded (row : Row) : DetailQuery := { data := some row, error := none }

def DetailQuery.failed (q : DetailQuery) (e : ApiError) : DetailQuery := { q with error := some e }

/-- What {lit}`useTriageDetailOrNull` returns. -/
structure DetailOrNull where
  data : Option Row
  isPending : Bool
  status : Option Status
  deriving DecidableEq

def useTriageDetailOrNull (q : DetailQuery) : DetailOrNull :=
  if q.error = some .notFound then { data := none, isPending := false, status := some statusOpen }
  else { data := q.data, isPending := q.isPending, status := q.data.map Row.status }

/-!
## Requests
-/

/-- A field that is {lit}`undefined` is not sent. -/
structure UpsertPayload where
  hostID : String
  eventID : String
  status : Option Status
  assignee : Option String
  clearAssignee : Option Bool
  evidenceSnapshot : Option RawMessage
  deriving DecidableEq

structure NotePayload where
  hostID : String
  eventID : String
  body : String
  deriving DecidableEq

inductive Payload where
  | upsert (p : UpsertPayload)
  | note (p : NotePayload)
  deriving DecidableEq

def ensureSnapshot (event : EventWithTriage) : Option RawMessage := event.evidence.json

def snapshotUnless (event : EventWithTriage) (triage : DetailOrNull) : Option RawMessage :=
  if triage.data.isSome then none else ensureSnapshot event

def setStatus (event : EventWithTriage) (triage : DetailOrNull) (status : Status) :
    UpsertPayload :=
  { hostID := event.hostID, eventID := event.eventID, status := some status, assignee := none,
    clearAssignee := none, evidenceSnapshot := snapshotUnless event triage }

def onAssign (event : EventWithTriage) (triage : DetailOrNull) (assigneeDraft : String) :
    UpsertPayload :=
  let trimmed := trim assigneeDraft
  { hostID := event.hostID, eventID := event.eventID, status := none,
    assignee := if trimmed = "" then none else some trimmed,
    clearAssignee := some (decide (trimmed = "")),
    evidenceSnapshot := snapshotUnless event triage }

/-- What the note form does: nothing, append the note, or create the row and append the
note once that has succeeded. -/
inductive NoteSubmission where
  | ignored
  | append (note : NotePayload)
  | createFirst (row : UpsertPayload) (note : NotePayload)
  deriving DecidableEq

def onSubmitNote (event : EventWithTriage) (triage : DetailOrNull) (noteDraft : String) :
    NoteSubmission :=
  let body := trim noteDraft
  if body = "" then .ignored
  else
    let note : NotePayload := { hostID := event.hostID, eventID := event.eventID, body := body }
    if triage.data.isNone then
      .createFirst
        { hostID := event.hostID, eventID := event.eventID, status := some statusOpen,
          assignee := none, clearAssignee := none, evidenceSnapshot := ensureSnapshot event }
        note
    else .append note

def NoteSubmission.payloads : NoteSubmission -> List Payload
  | .ignored => []
  | .append note => [.note note]
  | .createFirst row note => [.upsert row, .note note]

/-- The forms of the slide-over: the status buttons, the assignee, the note. -/
inductive Action where
  | setStatus (status : Status)
  | assign (draft : String)
  | submitNote (draft : String)
  deriving DecidableEq

def Action.payloads (event : EventWithTriage) (triage : DetailOrNull) : Action -> List Payload
  | .setStatus status => [.upsert (Web.setStatus event triage status)]
  | .assign draft => [.upsert (onAssign event triage draft)]
  | .submitNote draft => (onSubmitNote event triage draft).payloads

/-!
## What a request is about
-/

/-- The request names the row, and sends its evidence if any. -/
def Payload.About (row : EventWithTriage) : Payload -> Prop
  | .upsert p => (p.hostID, p.eventID) = row.key ∧
      (p.evidenceSnapshot = none ∨ p.evidenceSnapshot = row.evidence.json)
  | .note p => (p.hostID, p.eventID) = row.key

theorem snapshotUnless_cases (event : EventWithTriage) (triage : DetailOrNull) :
    snapshotUnless event triage = none ∨ snapshotUnless event triage = event.evidence.json := by
  unfold snapshotUnless
  split
  · exact Or.inl rfl
  · exact Or.inr rfl

theorem onSubmitNote_about {event : EventWithTriage} {triage : DetailOrNull} {draft : String}
    {p : Payload} (h : p ∈ (onSubmitNote event triage draft).payloads) : p.About event := by
  unfold onSubmitNote at h
  simp only at h
  split at h
  · cases h
  · split at h
    · rcases List.mem_cons.mp h with hrow | hnote
      · rw [hrow]
        exact ⟨rfl, Or.inr rfl⟩
      · rw [List.mem_singleton.mp hnote]
        exact rfl
    · rw [List.mem_singleton.mp h]
      exact rfl

theorem payloads_about {event : EventWithTriage} {triage : DetailOrNull} {a : Action}
    {p : Payload} (h : p ∈ a.payloads event triage) : p.About event := by
  cases a with
  | setStatus status =>
      rw [List.mem_singleton.mp h]
      exact ⟨rfl, snapshotUnless_cases event triage⟩
  | assign draft =>
      rw [List.mem_singleton.mp h]
      exact ⟨rfl, snapshotUnless_cases event triage⟩
  | submitNote draft => exact onSubmitNote_about h

theorem Payload.About.congr {row row' : EventWithTriage} {p : Payload} (h : p.About row)
    (hkey : row.key = row'.key) (hevidence : row.evidence = row'.evidence) : p.About row' := by
  cases p with
  | upsert p =>
      unfold About at h ⊢
      rw [← hkey, ← hevidence]
      exact h
  | note p => exact h.trans hkey

theorem onSubmitNote_createFirst {event : EventWithTriage} {triage : DetailOrNull}
    {draft : String} {row : UpsertPayload} {note : NotePayload}
    (h : onSubmitNote event triage draft = .createFirst row note) :
    triage.data = none ∧ row.status = some statusOpen ∧
      (row.hostID, row.eventID) = event.key ∧ (note.hostID, note.eventID) = event.key := by
  unfold onSubmitNote at h
  simp only at h
  split at h
  · cases h
  · split at h
    · rename_i hnone
      cases h
      exact ⟨Option.isNone_iff_eq_none.mp hnone, rfl, rfl, rfl⟩
    · cases h

end Web
end LodelineManager
