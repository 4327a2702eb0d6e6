import LodelineManager.Api.FleetErrors
import LodelineManager.Api.Sessions

/-!
# The API client

Every request of the console goes through {lit}`api`, which turns an answer that is no
success into an error object of one of its classes.  The bodies that it reads the code and
the message from are those that {lit}`writeError` writes.
-/

namespace LodelineManager
namespace Web

open Foundation Utf16 Go JSON Api

/-!
## Responses
-/

/-- The text of a response: nothing, a JSON document, or a text that is none. -/
inductive ResponseText where
  | empty
  | document (d : Document)
  | other (s : String)

/-- What {lit}`fetch` resolves to. -/
structure FetchResponse where
  status : Nat
  statusText : String
  text : ResponseText

/-- {lit}`safeJSON`; {lit}`none` is {lit}`undefined`. -/
def safeJSON : ResponseText -> Option Value
  | .empty => none
  | .document d => some (value d)
  | .other s => some (ofText s)

/-- The optional chaining {lit}`?.`: only objects have the properties of an error body. -/
def property (name : String) : Option Value -> Option Value
  | some (.object members) => get? name (.object members)
  | _ => none

/-- The operator {lit}`??`. -/
def orElse (v : Option Value) (other : Value) : Value :=
  match v with
  | none => other
  | some .null => other
  | some v => v

def isText (s : String) : Value -> Bool
  | .string u => decide (u = codes s.toList)
  | _ => false

/-!
## Errors
-/

inductive ApiErrorClass where
  | unauthorizedError
  | sessionExpiredError
  | notFoundError
  | serviceUnavailableError
  | unknownApiError
  deriving DecidableEq

/-- An instance of {lit}`ApiError`. -/
structure ThrownError where
  cls : ApiErrorClass
  status : Nat
  code : Value
  message : Value

def unauthorizedError (message : Value) : ThrownError :=
  { cls := .unauthorizedError, status := 401, code := ofText "unauthorized", message := message }

def sessionExpiredError (message : Value) : ThrownError :=
  { cls := .sessionExpiredError, status := 401, code := ofText "session_expired"
    message := message }

def notFoundError (message : Value) : ThrownError :=
  { cls := .notFoundError, status := 404, code := ofText "not_found", message := message }

def serviceUnavailableError (message : Value) : ThrownError :=
  { cls := .serviceUnavailableError, status := 503, code := ofText "service_unavailable"
    message := message }

def errorFor (status : Nat) (code message : Value) : ThrownError :=
  if status = 401 then
    if isText "session_expired" code then sessionExpiredError message
    else unauthorizedError message
  else if status = 404 then notFoundError message
  else if status = 503 then serviceUnavailableError message
  else { cls := .unknownApiError, status := status, code := code, message := message }

/-- {lit}`api` on the response to its request. -/
def api (res : FetchResponse) : Except ThrownError (Option Value) :=
  if res.status = 204 then .ok none
  else
    let body := safeJSON res.text
    if 200 <= res.status ∧ res.status <= 299 then .ok body
    else
      let code := orElse (property "code" (property "error" body)) (ofText "unknown")
      let message := orElse (property "message" (property "error" body))
        (ofText (toString res.status ++ " " ++ res.statusText))
      .error (errorFor res.status code message)

def ThrownError.signedOut (e : ThrownError) : Bool :=
  decide (e.cls = .unauthorizedError ∨ e.cls = .sessionExpiredError)

/-!
## The texts of the settings
-/

def rebuildingIndex : String := "Rebuilding index (503). Retry shortly."

def tokenRejected : String :=
  "Read API token rejected. Check the server read token configuration."

def readAPIDisabled : String :=
  "Read API disabled. Configure LODELINE_SERVER_READ_TOKEN on lodeline-server."

def sessionUnavailable : String := "Session unavailable. Sign in again."

def readAPIUnavailable : String := "Read API unavailable. Check the connection and retry."

/-- {lit}`readAPIError`; {lit}`none` is an error of another class. -/
def readAPIError : Option ThrownError -> String
  | none => readAPIUnavailable
  | some e =>
      if e.cls = .serviceUnavailableError then rebuildingIndex
      else if isText "upstream_unauthorized" e.code then tokenRejected
      else if isText "read_api_disabled" e.code then readAPIDisabled
      else if e.status = 401 then sessionUnavailable
      else readAPIUnavailable

/-!
## What the server writes
-/

/-- The {lit}`errorBody` of {lit}`writeError`. -/
def errorBody (e : ErrorResponse) : Document :=
  .object [(quote "error".toList, .object
    [(quote "code".toList, encodeString e.code),
      (quote "message".toList, encodeString e.message)])]

/-- {lit}`reason` gives the reason phrase of a status. -/
def writeError (reason : Nat -> String) (e : ErrorResponse) : FetchResponse :=
  { status := e.status, statusText := reason e.status, text := .document (errorBody e) }

/-- {lit}`RequireAuth` in front of a handler that does not look at the subject. -/
def behindAuth (jwt : Auth.Jwt) (s : Auth.Signer) (now : Int) (reason : Nat -> String)
    (cookie : Option String) (handled : FetchResponse) : FetchResponse :=
  match requireAuth jwt s now cookie with
  | .error e => writeError reason e
  | .ok _ => handled

def fleetResponse {result : Type} (reason : Nat -> String) (render : result -> Document) :
    Except Fleet.GoErr result -> FetchResponse
  | .ok v => { status := 200, statusText := reason 200, text := .document (render v) }
  | .error err => writeError reason (mapFleetErr err)

/-!
## What the client reads
-/

@[simp] theorem isText_ofText (s t : String) : isText s (ofText t) = decide (t = s) := by
  unfold isText ofText
  apply decide_eq_decide.mpr
  constructor
  · intro h
    exact String.toList_inj.mp (codes_injective h)
  · intro h
    rw [h]

theorem get?_single {name : String} {v : Value} :
    get? name (.object [(codes name.toList, v)]) = some v := by
  simp [get?, Json.named, Json.members]

theorem property_errorBody (e : ErrorResponse) :
    property "code" (property "error" (some (value (errorBody e)))) = some (ofText e.code) ∧
      property "message" (property "error" (some (value (errorBody e)))) =
        some (ofText e.message) := by
  have hbody : value (errorBody e) = .object [(codes "error".toList, .object
      [(codes "code".toList, ofText e.code), (codes "message".toList, ofText e.message)])] := by
    simp only [errorBody, value, Json.map, Json.mapMembers, units_quote]
    rw [← value_encodeString, ← value_encodeString]
    rfl
  rw [hbody]
  have hinner : property "error" (some (.object [(codes "error".toList, .object
      [(codes "code".toList, ofText e.code), (codes "message".toList, ofText e.message)])])) =
      some (.object [(codes "code".toList, ofText e.code),
        (codes "message".toList, ofText e.message)]) := get?_single
  rw [hinner]
  exact ⟨rfl, rfl⟩

theorem api_writeError (reason : Nat -> String) {e : ErrorResponse} (h : 300 <= e.status) :
    api (writeError reason e) = .error (errorFor e.status (ofText e.code) (ofText e.message)) := by
  have h204 : ¬ (writeError reason e).status = 204 := by
    show ¬ e.status = 204
    omega
  have hok : ¬ (200 <= (writeError reason e).status ∧ (writeError reason e).status <= 299) := by
    show ¬ (200 <= e.status ∧ e.status <= 299)
    omega
  unfold api
  rw [if_neg h204]
  simp only [if_neg hok]
  have hbody : safeJSON (writeError reason e).text = some (value (errorBody e)) := rfl
  rw [hbody, (property_errorBody e).left, (property_errorBody e).right]
  rfl

theorem requireAuth_refusal {jwt : Auth.Jwt} {s : Auth.Signer} {now : Int}
    {cookie : Option String} {e : ErrorResponse} (h : requireAuth jwt s now cookie = .error e) :
    e = sessionMissing ∨ e = sessionExpired ∨ e = sessionInvalid := by
  unfold requireAuth at h
  split at h
  · cases h
    exact Or.inl rfl
  · split at h
    · cases h
      exact Or.inl rfl
    · rename_i token _
      cases hverify : Auth.verify jwt s now token with
      | ok subject =>
          rw [hverify] at h
          cases h
      | error err =>
          rw [hverify] at h
          cases h
          cases err with
          | expiredToken => exact Or.inr (Or.inl rfl)
          | _ => exact Or.inr (Or.inr rfl)

end Web
end LodelineManager
