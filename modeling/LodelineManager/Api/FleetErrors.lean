import LodelineManager.Api.Triage
import LodelineManager.Fleet.Redaction

/-!
# Failures of the fleet handlers

What the browser hears of an upstream failure.  Two upstreams that cannot be told
apart by the kinds of their failures, whatever their addresses, tokens and texts, are
answered with the same status and the same bytes.
-/

namespace LodelineManager
namespace Api

open Foundation Fleet

/-- The public shape of a fleet error. -/
def mapFleetErr (err : GoErr) : ErrorResponse :=
  if err.is errNotFound then
    { status := 404, code := "not_found", message := "event or host not found" }
  else if err.is errReadAPIDisabled then
    { status := 502, code := "read_api_disabled"
      message :=
        "lodeline-server has the read API disabled — set LODELINE_SERVER_READ_TOKEN there" }
  else if err.is errUnauthorized then
    { status := 502, code := "upstream_unauthorized"
      message := "lodeline-server rejected our token — check LODELINE_SERVER_READ_TOKEN" }
  else if err.is errServiceUnavailable then
    { status := 503, code := "service_unavailable"
      message := "lodeline-server is rebuilding its index, retry shortly" }
  else
    match err.asAPIError with
    | some code =>
        { status := 502, code := "upstream_error"
          message := "lodeline-server returned an error (" ++ code ++ ")" }
    | none =>
        { status := 502, code := "upstream_error"
          message := "request to lodeline-server failed" }

theorem mapFleetErr_redact (err : GoErr) : mapFleetErr err.redact = mapFleetErr err := by
  unfold mapFleetErr
  rw [GoErr.is_redact (by decide), GoErr.is_redact (by decide), GoErr.is_redact (by decide),
    GoErr.is_redact (by decide), GoErr.asAPIError_redact]

def publicTexts : List String :=
  ["event or host not found",
    "lodeline-server has the read API disabled — set LODELINE_SERVER_READ_TOKEN there",
    "lodeline-server rejected our token — check LODELINE_SERVER_READ_TOKEN",
    "lodeline-server is rebuilding its index, retry shortly",
    "request to lodeline-server failed"]

theorem mapFleetErr_message (err : GoErr) :
    (mapFleetErr err).message ∈ publicTexts ∨
      exists code, err.asAPIError = some code ∧
        (mapFleetErr err).message = "lodeline-server returned an error (" ++ code ++ ")" := by
  unfold mapFleetErr
  split
  · exact Or.inl (by simp [publicTexts])
  · split
    · exact Or.inl (by simp [publicTexts])
    · split
      · exact Or.inl (by simp [publicTexts])
      · split
        · exact Or.inl (by simp [publicTexts])
        · split
          · rename_i code hcode
            exact Or.inr ⟨code, hcode, rfl⟩
          · exact Or.inl (by simp [publicTexts])

/-!
## Upstreams that cannot be told apart
-/

section

variable {value : Type}

def errorCode (c : HTTPClient) (body : Bytes) : Option String :=
  match c.decodeAPIError body with
  | some (code, _) => if code ≠ "" then some code else none
  | none => none

/-- Both requests fail in transport in the same way, or both responses are of the same
kind: the same values, bodies that do not decode, error objects with the same code. -/
inductive ExchangesAlike (decode : Bytes -> Except GoErr value) (c c' : HTTPClient) :
    Except GoErr Response -> Except GoErr Response -> Prop where
  | failed {err err' : GoErr} : err.redact = err'.redact ->
      ExchangesAlike decode c c' (.error err) (.error err')
  | decoded {resp resp' : Response} {v : value} : resp.status = 200 -> resp'.status = 200 ->
      decode resp.body = .ok v -> decode resp'.body = .ok v ->
      ExchangesAlike decode c c' (.ok resp) (.ok resp')
  | undecodable {resp resp' : Response} {err err' : GoErr} : resp.status = 200 ->
      resp'.status = 200 -> decode resp.body = .error err -> decode resp'.body = .error err' ->
      resp.bodyErr.map GoErr.redact = resp'.bodyErr.map GoErr.redact ->
      ExchangesAlike decode c c' (.ok resp) (.ok resp')
  | refused {resp resp' : Response} : resp.status ≠ 200 -> resp.status = resp'.status ->
      resp.retryAfter = resp'.retryAfter -> errorCode c resp.body = errorCode c' resp'.body ->
      ExchangesAlike decode c c' (.ok resp) (.ok resp')

/-- Two clients whose upstreams meet a call of the endpoint alike.  The base URLs and
the tokens may be any. -/
structure Undistinguished (decode : Bytes -> Except GoErr value) (pathEscape : String -> String)
    (endpoint : Endpoint) (c c' : HTTPClient) : Prop where
  request : (c.newRequest (c.requestOf pathEscape endpoint).url).map GoErr.redact =
    (c'.newRequest (c'.requestOf pathEscape endpoint).url).map GoErr.redact
  exchange : c.newRequest (c.requestOf pathEscape endpoint).url = none ->
    ExchangesAlike decode c c' (c.send (c.requestOf pathEscape endpoint))
      (c'.send (c'.requestOf pathEscape endpoint))

theorem parseAPIError_redact (c : HTTPClient) (resp : Response) :
    (c.parseAPIError resp).redact =
      .api resp.status ((errorCode c resp.body).getD "unknown") "" := by
  unfold HTTPClient.parseAPIError errorCode
  cases c.decodeAPIError resp.body with
  | none => rfl
  | some r =>
      rcases r with ⟨code, message⟩
      by_cases hcode : code = ""
      · simp only [hcode, ne_eq, not_true_eq_false, if_false]
        rfl
      · simp only [ne_eq, hcode, not_false_eq_true, if_true]
        rfl

def refusal (status : Nat) (retryAfter : String) (code : Option String) : GoErr :=
  if status = 401 then .sentinel errUnauthorized
  else if status = 404 then .sentinel errReadAPIDisabled
  else if status = 503 then .serviceUnavailable (parseRetryAfter retryAfter)
  else .api status (code.getD "unknown") ""

section

variable {c : HTTPClient} {decode : Bytes -> Except GoErr value} {pathEscape : String -> String}
  {endpoint : Endpoint}

theorem doJSON_unsent {err : GoErr}
    (hreq : c.newRequest (c.requestOf pathEscape endpoint).url = some err) :
    redactResult (c.doJSON decode "GET" (endpoint.path pathEscape) endpoint.query endpoint.auth) =
      .error (.wrap "" err.redact) := by
  unfold HTTPClient.requestOf HTTPClient.urlOf at hreq
  simp only [HTTPClient.doJSON, hreq]
  rfl

theorem doJSON_failed {err : GoErr}
    (hreq : c.newRequest (c.requestOf pathEscape endpoint).url = none)
    (hsend : c.send (c.requestOf pathEscape endpoint) = .error err) :
    redactResult (c.doJSON decode "GET" (endpoint.path pathEscape) endpoint.query endpoint.auth) =
      .error (.wrap "" err.redact) := by
  unfold HTTPClient.requestOf HTTPClient.urlOf at hreq hsend
  simp only [HTTPClient.doJSON, hreq, hsend]
  rfl

theorem doJSON_decoded {resp : Response}
    (hreq : c.newRequest (c.requestOf pathEscape endpoint).url = none)
    (hsend : c.send (c.requestOf pathEscape endpoint) = .ok resp) (hstatus : resp.status = 200) :
    redactResult (c.doJSON decode "GET" (endpoint.path pathEscape) endpoint.query endpoint.auth) =
      match decode resp.body with
      | .ok v => .ok v
      | .error err => .error (.wrap "" (resp.bodyErr.getD err).redact) := by
  unfold HTTPClient.requestOf HTTPClient.urlOf at hreq hsend
  simp only [HTTPClient.doJSON, hreq, hsend, hstatus, if_true, decodeBody]
  cases decode resp.body with
  | ok v => rfl
  | error err => rfl

theorem doJSON_refused {resp : Response}
    (hreq : c.newRequest (c.requestOf pathEscape endpoint).url = none)
    (hsend : c.send (c.requestOf pathEscape endpoint) = .ok resp) (hstatus : resp.status ≠ 200) :
    redactResult (c.doJSON decode "GET" (endpoint.path pathEscape) endpoint.query endpoint.auth) =
      .error (refusal resp.status resp.retryAfter (errorCode c resp.body)) := by
  unfold HTTPClient.requestOf HTTPClient.urlOf at hreq hsend
  simp only [HTTPClient.doJSON, hreq, hsend, hstatus, if_false, refusal]
  split
  · rfl
  · split
    · rfl
    · split
      · rfl
      · exact congrArg Except.error (parseAPIError_redact c resp)

end

/-- A call against either upstream ends alike; {lit}`encoding/json` has no error of its own
among those the code asks for. -/
theorem doJSON_alike {decode : Bytes -> Except GoErr value} {pathEscape : String -> String}
    {endpoint : Endpoint} {c c' : HTTPClient}
    (hplain : forall b err, decode b = .error err -> err.redact = GoErr.plain)
    (h : Undistinguished decode pathEscape endpoint c c') :
    redactResult (c.doJSON decode "GET" (endpoint.path pathEscape) endpoint.query endpoint.auth) =
      redactResult
        (c'.doJSON decode "GET" (endpoint.path pathEscape) endpoint.query endpoint.auth) := by
  have hrequest := h.request
  cases hreq : c.newRequest (c.requestOf pathEscape endpoint).url with
  | some err =>
      rw [hreq] at hrequest
      rcases Option.map_eq_some_iff.mp hrequest.symm with ⟨err', hreq', hsame⟩
      rw [doJSON_unsent hreq, doJSON_unsent hreq', hsame]
  | none =>
      rw [hreq] at hrequest
      have hreq' := Option.map_eq_none_iff.mp hrequest.symm
      generalize hsend : c.send (c.requestOf pathEscape endpoint) = out
      generalize hsend' : c'.send (c'.requestOf pathEscape endpoint) = out'
      have hexchange := h.exchange hreq
      rw [hsend, hsend'] at hexchange
      cases hexchange with
      | failed hsame => rw [doJSON_failed hreq hsend, doJSON_failed hreq' hsend', hsame]
      | decoded hstatus hstatus' hbody hbody' =>
          rw [doJSON_decoded hreq hsend hstatus, doJSON_decoded hreq' hsend' hstatus', hbody, hbody']
      | @undecodable resp resp' err err' hstatus hstatus' hbody hbody' hbroken =>
          rw [doJSON_decoded hreq hsend hstatus, doJSON_decoded hreq' hsend' hstatus', hbody, hbody']
          have hsame : (resp.bodyErr.getD err).redact = (resp'.bodyErr.getD err').redact := by
            rw [← Option.getD_map GoErr.redact, ← Option.getD_map GoErr.redact, hbroken,
              hplain _ _ hbody, hplain _ _ hbody']
          simp only [hsame]
      | refused hstatus hsame hretry hcode =>
          rw [doJSON_refused hreq hsend hstatus, doJSON_refused hreq' hsend' (hsame ▸ hstatus),
            hsame, hretry, hcode]

theorem notFoundByID_alike {r r' : Except GoErr value} (h : redactResult r = redactResult r') :
    redactResult (HTTPClient.notFoundByID r) = redactResult (HTTPClient.notFoundByID r') := by
  rcases redactResult_cases h with ⟨v, hv, hv'⟩ | ⟨err, err', herr, herr', hsame⟩
  · rw [hv, hv']
  · have hdisabled : err.is errReadAPIDisabled = err'.is errReadAPIDisabled := by
      rw [← GoErr.is_redact (by decide), hsame, GoErr.is_redact (by decide)]
    rw [herr, herr']
    unfold HTTPClient.notFoundByID
    simp only [hdisabled]
    split
    · rfl
    · exact congrArg Except.error hsame

theorem call_alike {decode : Bytes -> Except GoErr value} {pathEscape : String -> String}
    {endpoint : Endpoint} {c c' : HTTPClient}
    (hplain : forall b err, decode b = .error err -> err.redact = GoErr.plain)
    (h : Undistinguished decode pathEscape endpoint c c') :
    redactResult (c.call decode pathEscape endpoint) =
      redactResult (c'.call decode pathEscape endpoint) := by
  have hdo := doJSON_alike hplain h
  cases endpoint with
  | eventByID eventID => exact notFoundByID_alike hdo
  | fleetHostByID hostID => exact notFoundByID_alike hdo
  | _ => exact hdo

end

/-!
## Handlers
-/

section

variable {value : Type}

def respond (encode : ErrorResponse -> Bytes) (render : value -> Nat × Bytes) :
    Except GoErr value -> Nat × Bytes
  | .ok v => render v
  | .error err => ((mapFleetErr err).status, encode (mapFleetErr err))

theorem respond_alike (encode : ErrorResponse -> Bytes) (render : value -> Nat × Bytes)
    {r r' : Except GoErr value} (h : redactResult r = redactResult r') :
    respond encode render r = respond encode render r' := by
  rcases redactResult_cases h with ⟨v, hv, hv'⟩ | ⟨err, err', herr, herr', hsame⟩
  · rw [hv, hv']
  · have hpublic : mapFleetErr err = mapFleetErr err' := by
      rw [← mapFleetErr_redact, hsame, mapFleetErr_redact]
    rw [herr, herr']
    simp only [respond, hpublic]

def returnedBy (s : Sys value) (i : Nat) : Except GoErr value :=
  match s.threads i with
  | some (.call _ _ (.returned r)) => r.result.map (·.val)
  | _ => .error .plain

theorem returnedBy_redact (s : Sys value) (i : Nat) :
    returnedBy s.redact i = redactResult (returnedBy s i) := by
  have hthread : s.redact.threads i = (s.threads i).map Thread.redact := rfl
  unfold returnedBy
  rw [hthread]
  cases s.threads i with
  | none => rfl
  | some t =>
      cases t with
      | refresh key phase => rfl
      | call endpoint suffix phase =>
          cases phase with
          | returned r =>
              show (redactResult r.result).map _ = redactResult (r.result.map _)
              cases r.result with
              | ok p => rfl
              | error err => rfl
          | _ => rfl

/-- A handler over the caching client: the calls of its attempts, and what surrounds
its retries. -/
structure HandlerRun where
  attempts : Nat -> Nat
  jitter : Nat -> Int
  sleepFor : Nat -> Int -> Option GoErr

def HandlerRun.world (h : HandlerRun) (s : Sys value) : RetryWorld value :=
  { fn := fun n => returnedBy s (h.attempts n), jitter := h.jitter, sleepFor := h.sleepFor }

/-- {lit}`withFleetRetry`. -/
def withFleetRetry (w : RetryWorld value) : Except GoErr value :=
  (doRetry defaultRetryPolicy w).1

/-- Two steps of the cache that differ at most in what the upstream answers to the call
of a fetch, and there alike. -/
inductive LabelsAlike (decode : Endpoint -> Bytes -> Except GoErr value)
    (pathEscape : String -> String) : Label value -> Label value -> Prop where
  | same (l : Label value) : LabelsAlike decode pathEscape l l
  | answer {f : Nat} {endpoint : Endpoint} {c c' : HTTPClient} :
      Undistinguished (decode endpoint) pathEscape endpoint c c' ->
      LabelsAlike decode pathEscape (.answer f (c.call (decode endpoint) pathEscape endpoint))
        (.answer f (c'.call (decode endpoint) pathEscape endpoint))

theorem redact_labels {decode : Endpoint -> Bytes -> Except GoErr value}
    {pathEscape : String -> String} {labels labels' : List (Label value)}
    (hplain : forall endpoint b err, decode endpoint b = .error err -> err.redact = GoErr.plain)
    (h : List.Forall₂ (LabelsAlike decode pathEscape) labels labels') :
    labels.map Label.redact = labels'.map Label.redact := by
  induction h with
  | nil => rfl
  | cons hl _ ih =>
      rw [List.map_cons, List.map_cons, ih]
      cases hl with
      | same l => rfl
      | @answer f endpoint c c' hsame =>
          simp only [Label.redact, call_alike (hplain endpoint) hsame]

theorem run_alike {decode : Endpoint -> Bytes -> Except GoErr value}
    {pathEscape : String -> String} {cfg : CacheConfig} {clock : Int}
    {labels labels' : List (Label value)} {s : Sys value}
    (hplain : forall endpoint b err, decode endpoint b = .error err -> err.redact = GoErr.plain)
    (h : List.Forall₂ (LabelsAlike decode pathEscape) labels labels')
    (hrun : runSteps (step cfg) (Sys.init value clock) labels = some s) :
    exists s', runSteps (step cfg) (Sys.init value clock) labels' = some s' ∧
      s.redact = s'.redact := by
  have hfirst := runSteps_redact cfg (Sys.init value clock) labels
  have hsecond := runSteps_redact cfg (Sys.init value clock) labels'
  rw [redact_labels hplain h, hsecond, hrun] at hfirst
  rcases Option.map_eq_some_iff.mp hfirst with ⟨s', hs', hsame⟩
  exact ⟨s', hs', hsame.symm⟩

/-- What a fleet handler answers does not depend on the address or the token of the
upstream, nor on any text of its failures: through the cache and the retries, without
retries, and without the cache.  All it tells of an upstream is the code of an error
object. -/
theorem fleet_responses_alike {decode : Endpoint -> Bytes -> Except GoErr value}
    {pathEscape : String -> String}
    (hplain : forall endpoint b err, decode endpoint b = .error err -> err.redact = GoErr.plain) :
    (forall cfg clock labels labels' s,
      List.Forall₂ (LabelsAlike decode pathEscape) labels labels' ->
      runSteps (step cfg) (Sys.init value clock) labels = some s ->
      exists s', runSteps (step cfg) (Sys.init value clock) labels' = some s' ∧
        forall (h : HandlerRun) encode render,
          respond encode render (withFleetRetry (h.world s)) =
            respond encode render (withFleetRetry (h.world s')) ∧
          respond encode render ((h.world s).fn 1) = respond encode render ((h.world s').fn 1)) ∧
    (forall (c c' : Nat -> HTTPClient) endpoint jitter sleepFor,
      (forall n, Undistinguished (decode endpoint) pathEscape endpoint (c n) (c' n)) ->
      forall encode render,
        respond encode render (withFleetRetry
            ⟨fun n => (c n).call (decode endpoint) pathEscape endpoint, jitter, sleepFor⟩) =
          respond encode render (withFleetRetry
            ⟨fun n => (c' n).call (decode endpoint) pathEscape endpoint, jitter, sleepFor⟩) ∧
        respond encode render ((c 1).call (decode endpoint) pathEscape endpoint) =
          respond encode render ((c' 1).call (decode endpoint) pathEscape endpoint)) ∧
    (forall err, (mapFleetErr err).message ∈ publicTexts ∨
      exists code, err.asAPIError = some code ∧
        (mapFleetErr err).message = "lodeline-server returned an error (" ++ code ++ ")") := by
  refine ⟨?_, ?_, mapFleetErr_message⟩
  · intro cfg clock labels labels' s hlabels hrun
    rcases run_alike hplain hlabels hrun with ⟨s', hrun', hsame⟩
    refine ⟨s', hrun', ?_⟩
    intro h encode render
    have hfn : forall n, redactResult ((h.world s).fn n) = redactResult ((h.world s').fn n) := by
      intro n
      show redactResult (returnedBy s _) = redactResult (returnedBy s' _)
      rw [← returnedBy_redact, hsame, returnedBy_redact]
    constructor
    · exact respond_alike encode render (doRetry_alike _ ⟨hfn, rfl, rfl⟩)
    · exact respond_alike encode render (hfn 1)
  · intro c c' endpoint jitter sleepFor hclients encode render
    have hfn : forall n, redactResult ((c n).call (decode endpoint) pathEscape endpoint) =
        redactResult ((c' n).call (decode endpoint) pathEscape endpoint) :=
      fun n => call_alike (hplain endpoint) (hclients n)
    constructor
    · exact respond_alike encode render (doRetry_alike _ ⟨hfn, rfl, rfl⟩)
    · exact respond_alike encode render (hfn 1)

def proxiedClient (baseURL token page : String) : HTTPClient :=
  { baseURL := baseURL, token := token, newRequest := fun _ => none
    send := fun _ => .ok { status := 500, retryAfter := "", body := page.toUTF8.data.toList
                           bodyErr := none }
    decodeAPIError := fun _ => none, bodyText := fun _ => page }

/-- Two such upstreams with their own addresses, tokens and pages. -/
theorem fleet_responses_alike_proxied :
    exists s s' : Sys Nat, runSteps (step (CacheConfig.withDefaults ⟨0, 0, 0⟩)) (Sys.init Nat 0)
        [.invoke "meta" "", .readClock 0, .readEntry 0, .act 0,
          .answer 0 ((proxiedClient "http://a" "s" "<p>a</p>").call
            (fun _ => .error .plain) id .serverMeta),
          .forget 0, .wake 0] = some s ∧
      runSteps (step (CacheConfig.withDefaults ⟨0, 0, 0⟩)) (Sys.init Nat 0)
        [.invoke "meta" "", .readClock 0, .readEntry 0, .act 0,
          .answer 0 ((proxiedClient "http://b" "t" "<p>b</p>").call
            (fun _ => .error .plain) id .serverMeta),
          .forget 0, .wake 0] = some s' ∧
      forall encode render,
        respond encode render (returnedBy s 0) = respond encode render (returnedBy s' 0) := by
  have hplain : forall (endpoint : Endpoint) (b : Bytes) (err : GoErr),
      (fun _ _ => .error .plain : Endpoint -> Bytes -> Except GoErr Nat) endpoint b = .error err ->
        err.redact = GoErr.plain := by
    intro endpoint b err herr
    cases herr
    rfl
  have hclients : Undistinguished (fun _ => .error .plain : Bytes -> Except GoErr Nat) id
      .serverMeta (proxiedClient "http://a" "s" "<p>a</p>")
      (proxiedClient "http://b" "t" "<p>b</p>") :=
    ⟨rfl, fun _ => ExchangesAlike.refused (by decide) rfl rfl rfl⟩
  have hrun : exists s : Sys Nat,
      runSteps (step (CacheConfig.withDefaults ⟨0, 0, 0⟩)) (Sys.init Nat 0)
        [.invoke "meta" "", .readClock 0, .readEntry 0, .act 0,
          .answer 0 ((proxiedClient "http://a" "s" "<p>a</p>").call
            (fun _ => .error .plain) id .serverMeta),
          .forget 0, .wake 0] = some s := ⟨_, rfl⟩
  rcases hrun with ⟨s, hs⟩
  have hanswer : LabelsAlike (fun _ _ => .error .plain : Endpoint -> Bytes -> Except GoErr Nat) id
      (.answer 0 ((proxiedClient "http://a" "s" "<p>a</p>").call (fun _ => .error .plain) id
        .serverMeta))
      (.answer 0 ((proxiedClient "http://b" "t" "<p>b</p>").call (fun _ => .error .plain) id
        .serverMeta)) :=
    LabelsAlike.answer hclients
  have halike := (fleet_responses_alike hplain).left _ 0 _ _ s
    (.cons (.same _) (.cons (.same _) (.cons (.same _) (.cons (.same _)
      (.cons hanswer (.cons (.same _) (.cons (.same _) .nil))))))) hs
  rcases halike with ⟨s', hs', hrespond⟩
  refine ⟨s, s', hs, hs', ?_⟩
  intro encode render
  exact (hrespond ⟨fun _ => 0, fun _ => 0, fun _ _ => none⟩ encode render).right

end

end Api
end LodelineManager
