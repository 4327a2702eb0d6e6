import LodelineManager.Fleet.CacheAnswers
import LodelineManager.Web.ApiClient

/-!
# What the settings say of the read API

The settings load the server's report through the session check, one call of the caching
client and the fleet client, and name the cause when it fails.  The module follows the
status of an upstream answer to that text: through the errors of the client, the cache, the
error body on the wire and the classes of the API client.
-/

namespace LodelineManager
namespace Web

open Foundation Go JSON Api Fleet

/-!
## Upstream answers
-/

/-- An error is none of the client's own, as those of other packages are. -/
def Outside (err : GoErr) : Prop :=
  forall t, t ∈ [errNotFound, errReadAPIDisabled, errUnauthorized, errServiceUnavailable] ->
    err.is t = false

/-- What a client calls outside its package does not return errors of its own. -/
structure Apart {result : Type} (decode : Bytes -> Except GoErr result) (c : HTTPClient) :
    Prop where
  request : forall u err, c.newRequest u = some err -> Outside err
  transport : forall r err, c.send r = .error err -> Outside err
  decoding : forall b err, decode b = .error err -> Outside err
  broken : forall r resp err, c.send r = .ok resp -> resp.bodyErr = some err -> Outside err

/-- The upstream answers the request for the server's report with a status. -/
def AnswersMeta (c : HTTPClient) (pathEscape : String -> String) (status : Nat) : Prop :=
  c.newRequest (c.requestOf pathEscape .serverMeta).url = none ∧
    exists resp, c.send (c.requestOf pathEscape .serverMeta) = .ok resp ∧ resp.status = status

theorem Outside.wrap {err : GoErr} (h : Outside err) (context : String) :
    Outside (.wrap context err) := h

theorem Outside.api (status : Nat) (code message : String) :
    Outside (.api status code message) := fun _ _ => rfl

/-- The sentinels that {lit}`mapFleetErr` asks for, by the status that they stand for. -/
structure StandsFor (c : HTTPClient) (pathEscape : String -> String) (err : GoErr) : Prop where
  never : err.is errNotFound = false
  disabled : err.is errReadAPIDisabled = true <-> AnswersMeta c pathEscape 404
  unauthorized : err.is errUnauthorized = true <-> AnswersMeta c pathEscape 401
  unavailable : err.is errServiceUnavailable = true <-> AnswersMeta c pathEscape 503

section

variable {result : Type} {decode : Bytes -> Except GoErr result} {c : HTTPClient}
  {pathEscape : String -> String} {err : GoErr}

theorem AnswersMeta.unique {m n : Nat} (h : AnswersMeta c pathEscape m)
    (h' : AnswersMeta c pathEscape n) : m = n := by
  rcases h with ⟨_, resp, hsend, hstatus⟩
  rcases h' with ⟨_, resp', hsend', hstatus'⟩
  rw [hsend] at hsend'
  cases hsend'
  exact hstatus.symm.trans hstatus'

theorem StandsFor.of_outside (h : Outside err)
    (hnot : forall status, status ∈ [404, 401, 503] -> ¬ AnswersMeta c pathEscape status) :
    StandsFor c pathEscape err := by
  have hnone : forall {t status}, t ∈ [errReadAPIDisabled, errUnauthorized, errServiceUnavailable] ->
      status ∈ [404, 401, 503] -> (err.is t = true <-> AnswersMeta c pathEscape status) := by
    intro t status ht hstatus
    rw [h t (List.mem_cons_of_mem _ ht)]
    exact ⟨fun hfalse => absurd hfalse Bool.false_ne_true,
      fun hans => absurd hans (hnot status hstatus)⟩
  exact ⟨h _ (by simp), hnone (by simp) (by simp), hnone (by simp) (by simp),
    hnone (by simp) (by simp)⟩

theorem StandsFor.of_answer {status : Nat} (h : AnswersMeta c pathEscape status)
    (hnever : err.is errNotFound = false)
    (hdisabled : err.is errReadAPIDisabled = decide (status = 404))
    (hunauthorized : err.is errUnauthorized = decide (status = 401))
    (hunavailable : err.is errServiceUnavailable = decide (status = 503)) :
    StandsFor c pathEscape err := by
  have hiff : forall n, decide (status = n) = true <-> AnswersMeta c pathEscape n := by
    intro n
    rw [decide_eq_true_iff]
    constructor
    · intro heq
      exact heq ▸ h
    · intro hans
      exact h.unique hans
  refine ⟨hnever, ?_, ?_, ?_⟩
  · rw [hdisabled]
    exact hiff 404
  · rw [hunauthorized]
    exact hiff 401
  · rw [hunavailable]
    exact hiff 503

theorem serverMeta_standsFor (hapart : Apart decode c)
    (h : c.call decode pathEscape .serverMeta = .error err) : StandsFor c pathEscape err := by
  have hsent : c.requestOf pathEscape .serverMeta =
      { method := "GET", url := c.baseURL ++ "/v1/meta"
        authorization := some ("Bearer " ++ c.token) } := rfl
  have hurl : (c.requestOf pathEscape .serverMeta).url = c.baseURL ++ "/v1/meta" := rfl
  change c.doJSON decode "GET" "/v1/meta" "" true = .error err at h
  unfold HTTPClient.doJSON at h
  simp only [if_true] at h
  rw [← hsent, ← hurl] at h
  cases hreq : c.newRequest (c.requestOf pathEscape .serverMeta).url with
  | some e =>
      rw [hreq] at h
      cases h
      refine StandsFor.of_outside ((hapart.request _ e hreq).wrap _) ?_
      intro status _ hans
      rw [hans.left] at hreq
      cases hreq
  | none =>
      rw [hreq] at h
      dsimp only at h
      cases hsend : c.send (c.requestOf pathEscape .serverMeta) with
      | error e =>
          rw [hsend] at h
          cases h
          refine StandsFor.of_outside ((hapart.transport _ e hsend).wrap _) ?_
          rintro status _ ⟨_, resp, hresp, _⟩
          rw [hsend] at hresp
          cases hresp
      | ok resp =>
          rw [hsend] at h
          dsimp only at h
          have hans : AnswersMeta c pathEscape resp.status := ⟨hreq, resp, hsend, rfl⟩
          have hother : resp.status ∉ [404, 401, 503] -> Outside err ->
              StandsFor c pathEscape err := by
            intro hstatus hout
            refine StandsFor.of_outside hout ?_
            intro status hmem hans'
            rw [hans.unique hans'] at hstatus
            exact hstatus hmem
          split at h
          · rename_i hok
            apply hother
            · rw [hok]
              decide
            · unfold decodeBody at h
              cases hdecode : decode resp.body with
              | ok v =>
                  rw [hdecode] at h
                  cases h
              | error e =>
                  rw [hdecode] at h
                  cases h
                  apply Outside.wrap
                  cases hbroken : resp.bodyErr with
                  | none => exact hapart.decoding _ e hdecode
                  | some b => exact hapart.broken _ resp b hsend hbroken
          · split at h
            · rename_i hstatus
              cases h
              rw [hstatus] at hans
              exact StandsFor.of_answer hans (by decide) (by decide) (by decide) (by decide)
            · split at h
              · rename_i hstatus
                cases h
                rw [hstatus] at hans
                exact StandsFor.of_answer hans (by decide) (by decide) (by decide) (by decide)
              · split at h
                · rename_i hstatus
                  cases h
                  rw [hstatus] at hans
                  exact StandsFor.of_answer hans rfl rfl rfl rfl
                · rename_i h401 h404 h503
                  cases h
                  apply hother
                  · simp only [List.mem_cons, List.not_mem_nil, or_false, not_or]
                    exact ⟨h404, h401, h503⟩
                  · unfold HTTPClient.parseAPIError
                    split
                    · split
                      · exact Outside.api _ _ _
                      · exact Outside.api _ _ _
                    · exact Outside.api _ _ _

end

/-!
## From an error to its text
-/

def shownText (res : FetchResponse) : Option String :=
  match api res with
  | .ok _ => none
  | .error e => some (readAPIError (some e))

/-- The route guards take the response for the end of the session. -/
def SignsOut (res : FetchResponse) : Prop := exists e, api res = .error e ∧ e.signedOut = true

def causeOf (err : GoErr) : String :=
  if err.is errNotFound = true then readAPIUnavailable
  else if err.is errReadAPIDisabled = true then readAPIDisabled
  else if err.is errUnauthorized = true then tokenRejected
  else if err.is errServiceUnavailable = true then rebuildingIndex
  else readAPIUnavailable

theorem mapFleetErr_status (err : GoErr) :
    (mapFleetErr err).status ∈ [404, 502, 503] := by
  unfold mapFleetErr
  repeat' split
  all_goals simp

theorem readAPIError_badGateway (code : String) (message : Value) :
    readAPIError (some (errorFor 502 (ofText code) message)) =
      if code = "upstream_unauthorized" then tokenRejected
      else if code = "read_api_disabled" then readAPIDisabled
      else readAPIUnavailable := by
  simp [readAPIError, errorFor]

theorem api_mapFleetErr (reason : Nat -> String) (err : GoErr) :
    exists e, api (writeError reason (mapFleetErr err)) = .error e ∧ e.signedOut = false ∧
      readAPIError (some e) = causeOf err := by
  have hstatus : 300 <= (mapFleetErr err).status := by
    have hmem := mapFleetErr_status err
    simp only [List.mem_cons, List.not_mem_nil, or_false] at hmem
    omega
  refine ⟨_, api_writeError reason hstatus, ?_⟩
  unfold mapFleetErr causeOf
  split
  · exact ⟨rfl, rfl⟩
  · split
    · exact ⟨rfl, readAPIError_badGateway _ _⟩
    · split
      · exact ⟨rfl, readAPIError_badGateway _ _⟩
      · split
        · exact ⟨rfl, rfl⟩
        · split
          · exact ⟨rfl, readAPIError_badGateway "upstream_error" _⟩
          · exact ⟨rfl, readAPIError_badGateway "upstream_error" _⟩

section

variable {jwt : Auth.Jwt} {signer : Auth.Signer} {now : Int} {reason : Nat -> String}
  {cookie : Option String} {handled : FetchResponse}

theorem refused_shown {e : ErrorResponse} (h : requireAuth jwt signer now cookie = .error e) :
    SignsOut (behindAuth jwt signer now reason cookie handled) ∧
      shownText (behindAuth jwt signer now reason cookie handled) = some sessionUnavailable ∧
      ((exists t, api (behindAuth jwt signer now reason cookie handled) = .error t ∧
        t.cls = .sessionExpiredError) <-> e = sessionExpired) := by
  have hres : behindAuth jwt signer now reason cookie handled = writeError reason e := by
    unfold behindAuth
    rw [h]
  have hcase : e.status = 401 := by
    rcases requireAuth_refusal h with rfl | rfl | rfl <;> rfl
  have hapi := api_writeError reason (e := e) (by rw [hcase]; decide)
  rw [hres]
  unfold SignsOut shownText
  rw [hapi]
  rcases requireAuth_refusal h with rfl | rfl | rfl
  · refine ⟨⟨_, rfl, rfl⟩, rfl, ?_, fun heq => absurd heq (by decide)⟩
    rintro ⟨t, ht, hcls⟩
    cases ht
    cases hcls
  · exact ⟨⟨_, rfl, rfl⟩, rfl, fun _ => rfl, fun _ => ⟨_, rfl, rfl⟩⟩
  · refine ⟨⟨_, rfl, rfl⟩, rfl, ?_, fun heq => absurd heq (by decide)⟩
    rintro ⟨t, ht, hcls⟩
    cases ht
    cases hcls

end

/-!
## One answer, one cause
-/

section

variable {result : Type} {decode : Bytes -> Except GoErr result} {pathEscape : String -> String}

theorem serverMeta_answered {c : HTTPClient} {status : Nat}
    (h : AnswersMeta c pathEscape status) (hstatus : status ∈ [404, 401, 503]) :
    exists err, c.call decode pathEscape .serverMeta = .error err ∧
      isRetryable err = decide (status = 503) := by
  rcases h with ⟨hreq, resp, hsend, rfl⟩
  have hsent : c.requestOf pathEscape .serverMeta =
      { method := "GET", url := c.baseURL ++ "/v1/meta"
        authorization := some ("Bearer " ++ c.token) } := rfl
  have hurl : (c.requestOf pathEscape .serverMeta).url = c.baseURL ++ "/v1/meta" := rfl
  change exists err, c.doJSON decode "GET" "/v1/meta" "" true = .error err ∧ _
  unfold HTTPClient.doJSON
  simp only [if_true]
  rw [← hsent, ← hurl, hreq]
  dsimp only
  rw [hsend]
  simp only [List.mem_cons, List.not_mem_nil, or_false] at hstatus
  rcases hstatus with hstatus | hstatus | hstatus
  · simp only [hstatus]
    exact ⟨_, rfl, by decide⟩
  · simp only [hstatus]
    exact ⟨_, rfl, by decide⟩
  · simp only [hstatus]
    exact ⟨_, rfl, rfl⟩

/-- The sentinels of {lit}`mapFleetErr` do not meet in one error. -/
structure OneCause (err : GoErr) : Prop where
  never : err.is errNotFound = false
  disabled : err.is errReadAPIDisabled = true ->
    err.is errUnauthorized = false ∧ err.is errServiceUnavailable = false
  unauthorized : err.is errUnauthorized = true -> err.is errServiceUnavailable = false

theorem StandsFor.oneCause {c : HTTPClient} {err : GoErr} (h : StandsFor c pathEscape err) :
    OneCause err := by
  have hother : forall {t : Sentinel} {m n : Nat}, AnswersMeta c pathEscape m ->
      (err.is t = true <-> AnswersMeta c pathEscape n) -> m ≠ n -> err.is t = false := by
    intro t m n hm hiff hne
    cases his : err.is t with
    | false => rfl
    | true => exact absurd (hm.unique (hiff.mp his)) hne
  refine ⟨h.never, ?_, ?_⟩
  · intro his
    have hans := h.disabled.mp his
    exact ⟨hother hans h.unauthorized (by decide), hother hans h.unavailable (by decide)⟩
  · intro his
    exact hother (h.unauthorized.mp his) h.unavailable (by decide)

theorem causeOf_iff {err : GoErr} (h : OneCause err) :
    (causeOf err = readAPIDisabled <-> err.is errReadAPIDisabled = true) ∧
      (causeOf err = tokenRejected <-> err.is errUnauthorized = true) ∧
      (causeOf err = rebuildingIndex <-> err.is errServiceUnavailable = true) ∧
      causeOf err ≠ sessionUnavailable := by
  unfold causeOf
  rw [h.never, if_neg Bool.false_ne_true]
  cases hdisabled : err.is errReadAPIDisabled with
  | true =>
      rcases h.disabled hdisabled with ⟨hunauthorized, hunavailable⟩
      rw [hunauthorized, hunavailable]
      decide
  | false =>
      cases hunauthorized : err.is errUnauthorized with
      | true =>
          rw [h.unauthorized hunauthorized]
          decide
      | false =>
          cases err.is errServiceUnavailable with
          | true => decide
          | false => decide

end

/-!
## Through the cache and the session check
-/

section

variable {result : Type}

def MetaAnswers (decode : Bytes -> Except GoErr result) (pathEscape : String -> String)
    (upstream : Nat -> HTTPClient) : Answering result :=
  fun f key r => key = cacheKey "meta" "" ->
    r = (upstream f).call decode pathEscape .serverMeta

/-- The call has waited for an upstream that answered with the status. -/
def WaitedFor (pathEscape : String -> String) (upstream : Nat -> HTTPClient)
    (r : Return result) (status : Nat) : Prop :=
  exists f, r.waitedOn = some f ∧ AnswersMeta (upstream f) pathEscape status

/-- What {lit}`s.Fleet.Meta` hands to the handler. -/
def Return.out (r : Return result) : Except GoErr result := r.result.map Fetched.val

/-- What the settings and the route guards make of a response tells what has happened. -/
structure Diagnosed (pathEscape : String -> String) (upstream : Nat -> HTTPClient)
    (r : Return result) (auth : Except ErrorResponse String) (res : FetchResponse) :
    Prop where
  loaded : shownText res = none <-> auth.isOk = true ∧ (Return.out r).isOk = true
  /-- Only the session check signs out, and only an expired session shows as one. -/
  session : shownText res = some sessionUnavailable <-> auth.isOk = false
  signedOut : SignsOut res <-> auth.isOk = false
  expired : (exists e, api res = .error e ∧ e.cls = .sessionExpiredError) <->
    auth = .error sessionExpired
  /-- The upstream has refused the token, or has no read API. -/
  rejected : shownText res = some tokenRejected <-> auth.isOk = true ∧
    WaitedFor pathEscape upstream r 401
  disabled : shownText res = some readAPIDisabled <-> auth.isOk = true ∧
    WaitedFor pathEscape upstream r 404
  /-- The upstream is not there yet, and nothing is left of what it said before. -/
  rebuilding : shownText res = some rebuildingIndex <-> auth.isOk = true ∧ r.entry = none ∧
    WaitedFor pathEscape upstream r 503

/-- How a call for the server's report ends. -/
inductive MetaEnd (decode : Bytes -> Except GoErr result) (pathEscape : String -> String)
    (upstream : Nat -> HTTPClient) (r : Return result) : Prop where
  | loaded {v : result} : Return.out r = .ok v ->
      (forall status, status ∈ [404, 401] -> ¬ WaitedFor pathEscape upstream r status) ->
      (r.entry = none -> ¬ WaitedFor pathEscape upstream r 503) ->
      MetaEnd decode pathEscape upstream r
  | failed {f : Nat} {err : GoErr} : r.waitedOn = some f ->
      (upstream f).call decode pathEscape .serverMeta = .error err ->
      Return.out r = .error err -> (isRetryable err = true -> r.entry = none) ->
      MetaEnd decode pathEscape upstream r

variable {decode : Bytes -> Except GoErr result} {pathEscape : String -> String}
  {upstream : Nat -> HTTPClient}

theorem metaEnd_run {cfg : CacheConfig} {clock : Int} {labels : List (Fleet.Label result)}
    {s : Fleet.Sys result}
    (hrun : runSteps (Fleet.step cfg) (Fleet.Sys.init result clock) labels = some s)
    (hanswers : EveryStep (Fleet.step cfg) (Answers (MetaAnswers decode pathEscape upstream))
      (Fleet.Sys.init result clock) labels)
    {i : Nat} {r : Return result} (hcall : s.threads i = some (.call "meta" "" (.returned r))) :
    MetaEnd decode pathEscape upstream r := by
  rcases answer_returned hrun hanswers hcall with ⟨hnone, p, hp⟩ | ⟨f, a, hf, hanswer, hresult⟩
  · have hnever : forall status, ¬ WaitedFor pathEscape upstream r status := by
      rintro status ⟨f, hf, _⟩
      rw [hnone] at hf
      cases hf
    refine MetaEnd.loaded (v := p.val) ?_ (fun status _ => hnever status) (fun _ => hnever 503)
    unfold Return.out
    rw [hp]
    rfl
  · have hsame := hanswer rfl
    -- an answer with one of the statuses is an error of the fetch that the call waited for
    have herror : forall {status}, status ∈ [404, 401, 503] ->
        WaitedFor pathEscape upstream r status ->
        exists err, a = .error err ∧ isRetryable err = decide (status = 503) := by
      rintro status hstatus ⟨g, hg, hans⟩
      rw [hf] at hg
      cases hg
      rcases @serverMeta_answered _ decode _ _ _ hans hstatus with ⟨err, herr, hretry⟩
      exact ⟨err, hsame.trans herr, hretry⟩
    cases a with
    | ok v =>
        have hnever : forall status, status ∈ [404, 401, 503] ->
            ¬ WaitedFor pathEscape upstream r status := by
          intro status hstatus hwaited
          rcases herror hstatus hwaited with ⟨err, herr, _⟩
          cases herr
        refine MetaEnd.loaded (v := v) ?_
          (fun status hstatus => hnever status (List.mem_append_left [503] hstatus))
          (fun _ => hnever 503 (by decide))
        unfold Return.out
        rw [hresult]
        rfl
    | error err =>
        have hfailed : r.result = .error err -> (isRetryable err = true -> r.entry = none) ->
            MetaEnd decode pathEscape upstream r := by
          intro hres hentry
          refine MetaEnd.failed hf hsame.symm ?_ hentry
          unfold Return.out
          rw [hres]
          rfl
        by_cases hkept : exists e, r.entry = some e ∧ isRetryable err = true
        · rcases hkept with ⟨e, hentry, hretry⟩
          rw [hentry, resultOf_kept hretry] at hresult
          refine MetaEnd.loaded (v := e.ptr.val) ?_ ?_ ?_
          · unfold Return.out
            rw [hresult]
            rfl
          · intro status hstatus hwaited
            rcases herror (List.mem_append_left [503] hstatus) hwaited with ⟨err', herr, hpass⟩
            cases herr
            rw [hretry] at hpass
            rw [of_decide_eq_true hpass.symm] at hstatus
            exact absurd hstatus (by decide)
          · intro hnone
            rw [hentry] at hnone
            cases hnone
        · have hnone : isRetryable err = true -> r.entry = none := by
            intro hretry
            cases hentry : r.entry with
            | none => rfl
            | some e => exact absurd ⟨e, hentry, hretry⟩ hkept
          rw [resultOf_error hnone] at hresult
          refine MetaEnd.failed hf hsame.symm ?_ hnone
          unfold Return.out
          rw [hresult]
          rfl

theorem diagnosed_refused {r : Return result} {jwt : Auth.Jwt} {signer : Auth.Signer}
    {now : Int} {reason : Nat -> String} {cookie : Option String} {handled : FetchResponse}
    {e : ErrorResponse} (h : requireAuth jwt signer now cookie = .error e) :
    Diagnosed pathEscape upstream r (requireAuth jwt signer now cookie)
      (behindAuth jwt signer now reason cookie handled) := by
  rcases @refused_shown jwt signer now reason cookie handled e h with ⟨hout, hshown, hexpired⟩
  have hnot : (requireAuth jwt signer now cookie).isOk = false := by
    rw [h]
    rfl
  have hother : forall {text : String} {p : Prop}, sessionUnavailable ≠ text ->
      (some sessionUnavailable = some text <->
        (requireAuth jwt signer now cookie).isOk = true ∧ p) := by
    intro text p hne
    rw [hnot]
    constructor
    · intro heq
      exact absurd (Option.some.inj heq) hne
    · rintro ⟨hfalse, _⟩
      exact absurd hfalse Bool.false_ne_true
  refine ⟨?_, ?_, ?_, ?_, ?_, ?_, ?_⟩
  · rw [hshown, hnot]
    exact ⟨nofun, fun hboth => absurd hboth.left Bool.false_ne_true⟩
  · rw [hshown]
    exact ⟨fun _ => hnot, fun _ => rfl⟩
  · exact ⟨fun _ => hnot, fun _ => hout⟩
  · rw [hexpired, h]
    constructor
    · intro heq
      rw [heq]
    · intro heq
      exact Except.error.inj heq
  · rw [hshown]
    exact hother (by decide)
  · rw [hshown]
    exact hother (by decide)
  · rw [hshown]
    exact hother (by decide)

theorem shownText_error {reason : Nat -> String} {render : result -> Document} (err : GoErr) :
    exists e, api (fleetResponse reason render (.error err)) = .error e ∧ e.signedOut = false ∧
      shownText (fleetResponse reason render (.error err)) = some (causeOf err) := by
  rcases api_mapFleetErr reason err with ⟨e, hapi, hnotOut, htext⟩
  have hresponse : api (fleetResponse reason render (.error err)) = .error e := hapi
  refine ⟨e, hresponse, hnotOut, ?_⟩
  unfold shownText
  rw [hresponse, ← htext]

theorem diagnosed_admitted
    (hapart : forall f, Apart decode (upstream f)) {r : Return result}
    (hend : MetaEnd decode pathEscape upstream r)
    {jwt : Auth.Jwt} {signer : Auth.Signer} {now : Int} {reason : Nat -> String}
    {cookie : Option String} {render : result -> Document} {subject : String}
    (h : requireAuth jwt signer now cookie = .ok subject) :
    Diagnosed pathEscape upstream r (requireAuth jwt signer now cookie)
      (behindAuth jwt signer now reason cookie (fleetResponse reason render (Return.out r))) := by
  have hres : behindAuth jwt signer now reason cookie
      (fleetResponse reason render (Return.out r)) =
        fleetResponse reason render (Return.out r) := by
    unfold behindAuth
    rw [h]
  rw [hres, h]
  have hpass : (Except.ok subject : Except ErrorResponse String).isOk = true := rfl
  have hnotExpired : (Except.ok subject : Except ErrorResponse String) ≠ .error sessionExpired :=
    nofun
  have hnotRefused : ¬ (Except.ok subject : Except ErrorResponse String).isOk = false :=
    fun heq => absurd (hpass.symm.trans heq) nofun
  cases hend with
  | @loaded v hout hnone hcached =>
      rw [hout]
      have hshown : shownText (fleetResponse reason render (.ok v)) = none := rfl
      have hnever : forall {text : String} {p : Prop}, ¬ p ->
          (shownText (fleetResponse reason render (.ok v)) = some text <->
            (Except.ok subject : Except ErrorResponse String).isOk = true ∧ p) := by
        intro text p hp
        rw [hshown]
        exact ⟨nofun, fun hboth => absurd hboth.right hp⟩
      refine ⟨⟨fun _ => ⟨hpass, by rw [hout]; rfl⟩, fun _ => hshown⟩, ?_, ?_, ?_,
        hnever (hnone 401 (by decide)), hnever (hnone 404 (by decide)),
        hnever (fun hboth => hcached hboth.left hboth.right)⟩
      · rw [hshown]
        exact ⟨nofun, fun heq => absurd heq hnotRefused⟩
      · constructor
        · rintro ⟨_, he, _⟩
          cases he
        · exact fun heq => absurd heq hnotRefused
      · constructor
        · rintro ⟨_, he, _⟩
          cases he
        · exact fun heq => absurd heq hnotExpired
  | @failed f err hf hcall hout hentry =>
      rw [hout]
      have hstands := serverMeta_standsFor (hapart f) hcall
      have hwaited : forall {status}, WaitedFor pathEscape upstream r status <->
          AnswersMeta (upstream f) pathEscape status := by
        intro status
        constructor
        · rintro ⟨g, hg, hans⟩
          rw [hf] at hg
          cases hg
          exact hans
        · intro hans
          exact ⟨f, hf, hans⟩
      rcases causeOf_iff hstands.oneCause with ⟨hdisabled, hrejected, hrebuilding, hsession⟩
      rcases @shownText_error _ reason render err with ⟨e, hapi, hnotOut, hshown⟩
      have hcause : forall {text : String} {p q : Prop}, (causeOf err = text <-> p) -> (p <-> q) ->
          (shownText (fleetResponse reason render (.error err)) = some text <->
            (Except.ok subject : Except ErrorResponse String).isOk = true ∧ q) := by
        intro text p q hp hq
        rw [hshown, Option.some.injEq, hp, hq]
        exact ⟨fun hq => ⟨hpass, hq⟩, fun hboth => hboth.right⟩
      refine ⟨?_, ?_, ?_, ?_, hcause hrejected (hstands.unauthorized.trans hwaited.symm),
        hcause hdisabled (hstands.disabled.trans hwaited.symm), hcause hrebuilding ?_⟩
      · rw [hshown, hout]
        exact ⟨nofun, fun hboth => by cases hboth.right⟩
      · rw [hshown, Option.some.injEq]
        exact ⟨fun heq => absurd heq hsession, fun heq => absurd heq hnotRefused⟩
      · constructor
        · rintro ⟨e', he', hsigned⟩
          rw [hapi] at he'
          cases he'
          rw [hnotOut] at hsigned
          cases hsigned
        · exact fun heq => absurd heq hnotRefused
      · constructor
        · rintro ⟨e', he', hcls⟩
          rw [hapi] at he'
          cases he'
          have hsigned : e.signedOut = true := decide_eq_true (Or.inr hcls)
          rw [hnotOut] at hsigned
          cases hsigned
        · exact fun heq => absurd heq hnotExpired
      · rw [hstands.unavailable, hwaited]
        constructor
        · intro hans
          rcases @serverMeta_answered _ decode _ _ _ hans (by decide) with ⟨err', herr, hretry⟩
          rw [hcall] at herr
          cases herr
          exact ⟨hentry hretry, hans⟩
        · exact fun hboth => hboth.right

/-- Whatever the cache and the upstream do, the settings name the cause: each text is shown
exactly when the answer that it stands for was given to the fetch that the request waited
for, a 503 with nothing in the cache to fall back on.  No answer of the upstream is taken
for the end of the session. -/
theorem settings_diagnosed {cfg : CacheConfig} {clock : Int}
    {labels : List (Fleet.Label result)} {s : Fleet.Sys result}
    (hrun : runSteps (Fleet.step cfg) (Fleet.Sys.init result clock) labels = some s)
    (hapart : forall f, Apart decode (upstream f))
    (hanswers : EveryStep (Fleet.step cfg) (Answers (MetaAnswers decode pathEscape upstream))
      (Fleet.Sys.init result clock) labels)
    {i : Nat} {r : Return result} (hcall : s.threads i = some (.call "meta" "" (.returned r)))
    (jwt : Auth.Jwt) (signer : Auth.Signer) (now : Int) (reason : Nat -> String)
    (cookie : Option String) (render : result -> Document) :
    Diagnosed pathEscape upstream r (requireAuth jwt signer now cookie)
      (behindAuth jwt signer now reason cookie (fleetResponse reason render (Return.out r))) := by
  cases hauth : requireAuth jwt signer now cookie with
  | error e =>
      rw [← hauth]
      exact diagnosed_refused hauth
  | ok subject =>
      rw [← hauth]
      exact diagnosed_admitted hapart (metaEnd_run hrun hanswers hcall) hauth

end

def refusedClient : HTTPClient :=
  { baseURL := "https://fleet.example", token := "stale", newRequest := fun _ => none
    send := fun _ => .ok { status := 401, retryAfter := "", body := [], bodyErr := none }
    decodeAPIError := fun _ => none, bodyText := fun _ => "" }

def noReport : Bytes -> Except GoErr Unit := fun _ => .error .plain

theorem refusedClient_apart : Apart noReport refusedClient := by
  refine ⟨?_, ?_, ?_, ?_⟩
  · intro u err herr
    cases herr
  · intro r err herr
    cases herr
  · intro b err herr
    cases herr
    exact fun _ _ => rfl
  · intro r resp err hsend hbody
    cases hsend
    cases hbody

def refusedReport : List (Fleet.Label Unit) :=
  [.invoke "meta" "", .readClock 0, .readEntry 0, .act 0,
    .answer 0 (refusedClient.call noReport id .serverMeta), .forget 0, .wake 0]

theorem settings_diagnosed_rejected :
    exists (s : Fleet.Sys Unit) (r : Return Unit),
      runSteps (Fleet.step { ttl := 5 * second, maxStale := minute, maxEntries := 512 })
        (Fleet.Sys.init Unit 0) refusedReport = some s ∧
      s.threads 0 = some (.call "meta" "" (.returned r)) ∧
      shownText (behindAuth Auth.halfDayJwt Auth.halfDaySigner 0 (fun _ => "") (some "long")
        (fleetResponse (fun _ => "") (fun _ => .null) (Return.out r))) = some tokenRejected := by
  have hrun : exists s : Fleet.Sys Unit,
      runSteps (Fleet.step { ttl := 5 * second, maxStale := minute, maxEntries := 512 })
        (Fleet.Sys.init Unit 0) refusedReport = some s ∧
      s.threads 0 = some (.call "meta" "" (.returned
        { now := 0, entry := none, waitedOn := some 0
          result := .error (.sentinel errUnauthorized) })) := ⟨_, rfl, rfl⟩
  rcases hrun with ⟨s, hrun, hthread⟩
  have hanswers : EveryStep
      (Fleet.step { ttl := 5 * second, maxStale := minute, maxEntries := 512 })
      (Answers (MetaAnswers noReport id (fun _ => refusedClient))) (Fleet.Sys.init Unit 0)
      refusedReport := by
    refine everyStep_answers ?_ _
    intro f r hmem key _
    simp only [refusedReport, List.mem_cons, reduceCtorEq, List.not_mem_nil, or_false, false_or,
      Fleet.Label.answer.injEq] at hmem
    exact hmem.right
  have hdiagnosed := settings_diagnosed hrun (fun _ => refusedClient_apart) hanswers hthread
    Auth.halfDayJwt Auth.halfDaySigner 0 (fun _ => "") (some "long") (fun _ => .null)
  exact ⟨s, _, hrun, hthread, hdiagnosed.rejected.mpr ⟨rfl, 0, rfl, rfl, _, rfl, rfl⟩⟩

end Web
end LodelineManager
