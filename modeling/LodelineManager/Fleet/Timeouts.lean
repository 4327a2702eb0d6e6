import LodelineManager.Fleet.HTTP
import LodelineManager.Fleet.CacheSteps

/-!
# The timeout of the HTTP client

A hung upstream ends a call through the timeout of {lit}`http.Client`.  Its error
answers {lit}`true` to {lit}`Timeout` and also counts as {lit}`context.DeadlineExceeded`, and
{lit}`isRetryable` looks at the second property first.
-/

namespace LodelineManager
namespace Fleet

open Foundation Go

variable {value : Type}

/-!
## The request of an endpoint
-/

def Endpoint.path (pathEscape : String -> String) : Endpoint -> String
  | .healthz => "/v1/healthz"
  | .serverMeta => "/v1/meta"
  | .policyMeta => "/v1/policy/meta"
  | .events _ => "/v1/events"
  | .eventByID eventID => "/v1/events/" ++ pathEscape eventID
  | .fleetHosts _ => "/v1/fleet/hosts"
  | .fleetHostByID hostID => "/v1/fleet/hosts/" ++ pathEscape hostID
  | .fleetRisk _ => "/v1/fleet/risk"
  | .fleetCompliance _ => "/v1/fleet/compliance"

def Endpoint.query : Endpoint -> String
  | .events query | .fleetHosts query | .fleetRisk query | .fleetCompliance query => query
  | _ => ""

def Endpoint.auth : Endpoint -> Bool
  | .healthz => false
  | _ => true

def HTTPClient.urlOf (c : HTTPClient) (path query : String) : String :=
  if query = "" then c.baseURL ++ path else c.baseURL ++ path ++ "?" ++ query

def HTTPClient.requestOf (c : HTTPClient) (pathEscape : String -> String) (endpoint : Endpoint) :
    Request :=
  { method := "GET", url := c.urlOf (endpoint.path pathEscape) endpoint.query,
    authorization := if endpoint.auth then some ("Bearer " ++ c.token) else none }

theorem HTTPClient.call_eq (c : HTTPClient) (decode : Bytes -> Except GoErr value)
    (pathEscape : String -> String) (endpoint : Endpoint) :
    c.call decode pathEscape endpoint =
        c.doJSON decode "GET" (endpoint.path pathEscape) endpoint.query endpoint.auth ∨
      c.call decode pathEscape endpoint =
        notFoundByID
          (c.doJSON decode "GET" (endpoint.path pathEscape) endpoint.query endpoint.auth) := by
  cases endpoint with
  | eventByID eventID => exact Or.inr rfl
  | fleetHostByID hostID => exact Or.inr rfl
  | _ => exact Or.inl rfl

theorem HTTPClient.notFoundByID_terminal {err : GoErr} (h : isRetryable err = false) :
    exists err', (notFoundByID (.error err) : Except GoErr value) = .error err' ∧
      isRetryable err' = false := by
  cases hnotFound : err.is errReadAPIDisabled with
  | true => exact ⟨.sentinel errNotFound, if_pos hnotFound, by decide⟩
  | false =>
      refine ⟨err, if_neg ?_, h⟩
      rw [hnotFound]
      exact Bool.false_ne_true

/-!
## Calls that run into the timeout
-/

/-- What {lit}`net/http` reports when the timeout of the client fires. -/
def ClientTimeout (cause : GoErr) : Prop :=
  cause.timeout? = some true ∧ cause.is .deadlineExceeded = true

/-- The timeout of the client ends the call, before the response has come or while
the body of a 200 is read. -/
inductive TimedOut (c : HTTPClient) (decode : Bytes -> Except GoErr value)
    (pathEscape : String -> String) (endpoint : Endpoint) : Prop where
  | headers {op addr : String} {cause : GoErr} :
      c.newRequest (c.requestOf pathEscape endpoint).url = none ->
      c.send (c.requestOf pathEscape endpoint) = .error (.url op addr cause) ->
      ClientTimeout cause -> TimedOut c decode pathEscape endpoint
  | body {resp : Response} {cause err : GoErr} :
      c.newRequest (c.requestOf pathEscape endpoint).url = none ->
      c.send (c.requestOf pathEscape endpoint) = .ok resp -> resp.status = 200 ->
      resp.bodyErr = some cause -> ClientTimeout cause -> decode resp.body = .error err ->
      TimedOut c decode pathEscape endpoint

theorem doJSON_of_timedOut {c : HTTPClient} {decode : Bytes -> Except GoErr value}
    {pathEscape : String -> String} {endpoint : Endpoint}
    (h : TimedOut c decode pathEscape endpoint) :
    exists err, c.doJSON decode "GET" (endpoint.path pathEscape) endpoint.query endpoint.auth =
        .error err ∧ err.is .deadlineExceeded = true := by
  cases h with
  | @headers op addr cause hreq hsend hcause =>
      refine ⟨.wrap ("fleet: " ++ "GET" ++ " " ++ endpoint.path pathEscape) (.url op addr cause),
        ?_, hcause.right⟩
      unfold HTTPClient.doJSON
      unfold HTTPClient.requestOf HTTPClient.urlOf at hreq hsend
      simp only [hreq, hsend]
  | @body resp cause err hreq hsend hstatus hbody hcause hdecode =>
      have hdec : decodeBody decode resp = .error cause := by
        unfold decodeBody
        rw [hdecode, hbody]
        rfl
      refine ⟨.wrap ("fleet: decode " ++ endpoint.path pathEscape) cause, ?_, hcause.right⟩
      unfold HTTPClient.doJSON
      unfold HTTPClient.requestOf HTTPClient.urlOf at hreq hsend
      simp only [hreq, hsend, hstatus, hdec, if_true]

theorem call_of_timedOut {c : HTTPClient} {decode : Bytes -> Except GoErr value}
    {pathEscape : String -> String} {endpoint : Endpoint}
    (h : TimedOut c decode pathEscape endpoint) :
    exists err, c.call decode pathEscape endpoint = .error err ∧ isRetryable err = false := by
  rcases doJSON_of_timedOut h with ⟨err, hdo, hdeadline⟩
  have hterm := isRetryable_of_deadline hdeadline
  rcases c.call_eq decode pathEscape endpoint with hcall | hcall
  · rw [hcall, hdo]
    exact ⟨err, rfl, hterm⟩
  · rw [hcall, hdo]
    exact HTTPClient.notFoundByID_terminal hterm

/-!
## What becomes of the error
-/

/-- The handling of a transient failure: it is classified as one, {lit}`Do` uses all its
attempts on it, and a call that found its entry too old falls back to that entry. -/
structure Tolerated (value : Type) (err : GoErr) : Prop where
  transient : isRetryable err = true
  retried : forall (p : RetryPolicy) (w : RetryWorld value),
    (forall n, w.fn n = .error err) -> (forall n d, w.sleepFor n d = none) ->
    doRetry p w = (.error err, p.withDefaults.maxAttempts.toNat)
  degraded : forall (cfg : CacheConfig) (s : Sys value) (i f : Nat) (endpoint suffix key : String)
    (now : Int) (e : Copied value),
    s.threads i = some (.call endpoint suffix (.waiting now (some e) f)) ->
    s.fetches f = some ⟨key, .done (.error err)⟩ ->
    step cfg s (.wake i) = some (s.setThread i (.call endpoint suffix (.returned
      { now := now, entry := some e, waitedOn := some f, result := .ok e.ptr })))

/-- The handling of a terminal failure: one attempt, and a blocked call returns it. -/
structure Surfaced (value : Type) (err : GoErr) : Prop where
  terminal : isRetryable err = false
  once : forall (p : RetryPolicy) (w : RetryWorld value), w.fn 1 = .error err ->
    doRetry p w = (.error err, 1)
  returned : forall (cfg : CacheConfig) (s : Sys value) (i f : Nat) (endpoint suffix key : String)
    (now : Int) (entry : Option (Copied value)),
    s.threads i = some (.call endpoint suffix (.waiting now entry f)) ->
    s.fetches f = some ⟨key, .done (.error err)⟩ ->
    step cfg s (.wake i) = some (s.setThread i (.call endpoint suffix (.returned
      { now := now, entry := entry, waitedOn := some f, result := .error err })))

theorem step_wake {cfg : CacheConfig} {s : Sys value} {i f : Nat} {endpoint suffix key : String}
    {now : Int} {entry : Option (Copied value)} {r : Except GoErr value}
    (ht : s.threads i = some (.call endpoint suffix (.waiting now entry f)))
    (hf : s.fetches f = some ⟨key, .done r⟩) :
    step cfg s (.wake i) = some (s.setThread i (.call endpoint suffix (.returned
      { now := now, entry := entry, waitedOn := some f, result := afterDo entry f r }))) := by
  simp only [step, Label.thread?, ht, threadStep, hf]

theorem surfaced_of_terminal {err : GoErr} (h : isRetryable err = false) :
    Surfaced value err where
  terminal := h
  once := fun p _ hfn => doRetry_terminal p hfn h
  returned := by
    intro cfg s i f endpoint suffix key now entry ht hf
    rw [step_wake ht hf]
    cases entry with
    | none => rfl
    | some e => rw [afterDo_terminal h]

/-- No call that runs into the timeout of the client is tolerated. -/
theorem timedOut_surfaces {c : HTTPClient} {decode : Bytes -> Except GoErr value}
    {pathEscape : String -> String} {endpoint : Endpoint}
    (h : TimedOut c decode pathEscape endpoint) :
    exists err, c.call decode pathEscape endpoint = .error err ∧ ¬ Tolerated value err ∧
      Surfaced value err := by
  rcases call_of_timedOut h with ⟨err, hcall, hterm⟩
  refine ⟨err, hcall, ?_, surfaced_of_terminal hterm⟩
  intro htol
  rw [htol.transient] at hterm
  cases hterm

def hungClient : HTTPClient :=
  { baseURL := "http://lodeline:8444", token := "t", newRequest := fun _ => none
    send := fun req => .error (.url "Get" req.url (.foreign
      "context deadline exceeded (Client.Timeout exceeded while awaiting headers)"
      [.deadlineExceeded] (some true)))
    decodeAPIError := fun _ => none, bodyText := fun _ => "" }

theorem hungClient_surfaces :
    exists err, hungClient.call (fun _ => (.ok 0 : Except GoErr Nat)) id (.events "") = .error err ∧
      ¬ Tolerated Nat err ∧ Surfaced Nat err :=
  timedOut_surfaces (TimedOut.headers rfl rfl ⟨rfl, by decide⟩)

/-- The events call against a hung upstream: one attempt out of three, and a read at the
end of the stale window gets the error although a value is cached. -/
theorem hungClient_not_tolerated :
    TimedOut hungClient (fun _ => (.ok 0 : Except GoErr Nat)) id (.events "") ∧
    exists err, hungClient.call (fun _ => (.ok 0 : Except GoErr Nat)) id (.events "") = .error err ∧
      isRetryable err = false ∧
      doRetry defaultRetryPolicy
        (⟨fun _ => .error err, fun _ => 0, fun _ _ => none⟩ : RetryWorld Nat) = (.error err, 1) ∧
      exists s r, runSteps (step (CacheConfig.withDefaults ⟨0, 0, 0⟩)) (Sys.init Nat 0)
          [.invoke "events" "", .readClock 0, .readEntry 0, .act 0, .answer 0 (.ok 7),
            .storeFetched 0, .forget 0, .wake 0, .tick (60 * second), .invoke "events" "",
            .readClock 1, .readEntry 1, .act 1, .answer 1 (.error err), .forget 1,
            .wake 1] = some s ∧
        s.threads 1 = some (.call "events" "" (.returned r)) ∧
        r.entry = some ⟨⟨0, 7⟩, 0⟩ ∧ r.result = .error err := by
  have hread : forall err : GoErr, exists s : Sys Nat,
      runSteps (step (CacheConfig.withDefaults ⟨0, 0, 0⟩)) (Sys.init Nat 0)
          [.invoke "events" "", .readClock 0, .readEntry 0, .act 0, .answer 0 (.ok 7),
            .storeFetched 0, .forget 0, .wake 0, .tick (60 * second), .invoke "events" "",
            .readClock 1, .readEntry 1, .act 1, .answer 1 (.error err), .forget 1,
            .wake 1] = some s ∧
        s.threads 1 = some (.call "events" "" (.returned
          { now := 60 * second, entry := some ⟨⟨0, 7⟩, 0⟩, waitedOn := some 1,
            result := afterDo (some ⟨⟨0, 7⟩, 0⟩) 1 (.error err) })) :=
    fun err => ⟨_, rfl, rfl⟩
  have hcall : exists err,
      hungClient.call (fun _ => (.ok 0 : Except GoErr Nat)) id (.events "") = .error err ∧
        isRetryable err = false := ⟨_, rfl, by decide⟩
  rcases hcall with ⟨err, hcall, hterm⟩
  rcases hread err with ⟨s, hrun, hthread⟩
  exact ⟨TimedOut.headers rfl rfl ⟨rfl, by decide⟩, err, hcall, hterm,
    doRetry_terminal defaultRetryPolicy rfl hterm,
    s, _, hrun, hthread, rfl, afterDo_terminal hterm _ 1⟩

end Fleet
end LodelineManager
