import LodelineManager.Api.Console

/-!
# Who is let through

A request passes the middleware only under a session that the server gave out before, to
the subject it then acts as, and every such session was earned: by the administrator's
password, or by a login attempt of the run for which the provider vouched.  That nobody
else can sign under the secret is a condition on the cookies of the run.
-/

namespace LodelineManager
namespace Api

open Foundation Triage Go JSON Auth

/-!
## The callback
-/

/-- The steps of a callback one after another are its handler: they consume what it consumes
and give out the token that it sets. -/
theorem callback_steps {jwt : Jwt} {srv : AuthServer} {cfg : OIDCConfig} {env : OIDCEnv}
    (hsrv : srv.oidc = some (cfg, env)) (gen : Nat -> String) (fk : Bool) (s : Console)
    (p : Provider) {req : CallbackRequest} {binding : String} (hcookie : req.cookie = some binding)
    (hnew : s.logins.nextCall ∉ s.answered) :
    exists s', runSteps (Console.step jwt srv cfg env gen fk) s
        [.oidc (.complete req.state binding req.loginCode), .oidc (.finish s.logins.nextCall p),
          .answer s.logins.nextCall] = some s' ∧
      s'.logins.attempts = (handleOIDCCallback jwt srv.toCallbackServer p s.logins.attempts
        ⟨s.clock, s.clock, s.clock⟩ req).1 ∧
      s'.issued.map Issued.token = (handleOIDCCallback jwt srv.toCallbackServer p s.logins.attempts
        ⟨s.clock, s.clock, s.clock⟩ req).2.session.toList ++ s.issued.map Issued.token := by
  let i := s.logins.nextCall
  let r := s.logins.consumeResult req.state binding
  let out := finishLogin cfg env p req.loginCode r.2
  let consumed := s.logins.complete req.state binding req.loginCode
  let finished : Auth.Sys :=
    consumed.setCall i ⟨req.state, binding, req.loginCode, .finished r.2 p out⟩
  have hstart : Console.step jwt srv cfg env gen fk s
      (.oidc (.complete req.state binding req.loginCode)) = some { s with logins := consumed } := rfl
  have hcall : consumed.calls i = some ⟨req.state, binding, req.loginCode, .consumed r.2⟩ :=
    setCall_calls_self _ _ _
  have hfinish : Console.step jwt srv cfg env gen fk { s with logins := consumed }
      (.oidc (.finish i p)) = some { s with logins := finished } := by
    simp only [Console.step, Auth.step, hcall]
    rfl
  have hdone : finished.calls i = some ⟨req.state, binding, req.loginCode, .finished r.2 p out⟩ :=
    setCall_calls_self _ _ _
  have hanswer : Console.step jwt srv cfg env gen fk { s with logins := finished } (.answer i) =
      some (Console.answer jwt srv { s with logins := finished } i out) := by
    simp only [Console.step, hdone]
    exact if_neg hnew
  refine ⟨Console.answer jwt srv { s with logins := finished } i out, ?_, ?_⟩
  · rw [runSteps_cons_of_step hstart, runSteps_cons_of_step hfinish,
      runSteps_cons_of_step hanswer]
    rfl
  · have hclock : Console.clock { s with logins := finished } = s.clock := rfl
    have hresult : consume s.logins.attempts s.clock req.state binding = r := rfl
    unfold handleOIDCCallback Console.answer
    simp only [hsrv, hcookie, hclock, hresult]
    cases hout : finishLogin cfg env p req.loginCode r.2 with
    | error e =>
        simp only [out, hout, session_redirect]
        exact ⟨rfl, rfl⟩
    | ok session =>
        rcases session with ⟨subject, deadline⟩
        simp only [out, hout]
        cases signUntil jwt srv.signer s.clock subject deadline with
        | error e =>
            simp only [session_redirect]
            exact ⟨rfl, rfl⟩
        | ok signed =>
            simp only [session_redirect]
            exact ⟨rfl, rfl⟩

/-!
## Sessions that were earned
-/

/-- The session comes from the callback that consumed the attempt. -/
def Issued.From (logins : Auth.Sys) (e : Issued) (b : Begun) : Prop :=
  exists i c, e.origin = .callback i ∧ c ∈ logins.consumed ∧ c.call = some i ∧
    c.state = b.state ∧ c.binding = b.binding ∧ b.time <= c.time ∧
    c.time < b.time + loginAttemptTTL ∧ c.time <= e.signed

/-- What a session was given for: a password, or a call that consumed an attempt and that
the provider it asked vouched for. -/
inductive Earned (srv : AuthServer) (cfg : OIDCConfig) (env : OIDCEnv) (logins : Auth.Sys)
    (e : Issued) : Prop where
  | password {body : Option Document} {req : Credentials} : e.origin = .password body ->
      loginRequest body = some req -> req.username = srv.adminUsername ->
      req.password ≠ "" ->
      srv.compareHashAndPassword srv.adminPasswordBcrypt req.password = true ->
      e.subject = srv.adminUsername -> Earned srv cfg env logins e
  | callback {i : Nat} {b : Begun} {p : Provider} {code raw : String} {token : Token}
      {id : IDToken} : e.origin = .callback i ->
      logins.calls i = some ⟨b.state, b.binding, code,
        .finished (.ok b.attempt) p (.ok (e.subject, id.expiry))⟩ ->
      b ∈ logins.begun -> e.From logins b -> p.exchange code b.verifier = some token ->
      token.idToken = some raw -> p.verify raw = some id -> id.nonce = b.nonce ->
      id.subject ∈ cfg.allowedSubjects ->
      e.subject = "oidc:" ++ env.identityDigest id.issuer id.subject ->
      (id.expiry ≠ zeroTime -> e.expires <= id.expiry) -> Earned srv cfg env logins e

theorem Earned.grow {srv : AuthServer} {cfg : OIDCConfig} {env : OIDCEnv} {gen : Nat -> String}
    {s s' : Auth.Sys} {l : Auth.Label} {e : Issued} (h : Earned srv cfg env s e)
    (hcalls : CallsNumbered s) (hstep : Auth.step cfg env gen s l = some s') :
    Earned srv cfg env s' e := by
  have hgrow := loginsGrow_step hstep
  cases h with
  | password horigin hreq hname hpassword hcompare hsubject =>
      exact Earned.password horigin hreq hname hpassword hcompare hsubject
  | callback horigin hcall hb hfrom hexchange hraw hverify hnonce hallowed hsubject hexpiry =>
      rcases hfrom with ⟨i, c, hi, hc, hrest⟩
      exact Earned.callback horigin (finished_kept hcalls hstep hcall) (hgrow.begun _ hb)
        ⟨i, c, hi, hgrow.consumed c hc, hrest⟩ hexchange hraw hverify hnonce hallowed hsubject
        hexpiry

/-- A session was signed when it is said to have been, not in the future. -/
def Issued.Signed (jwt : Jwt) (s : Signer) (clock : Int) (e : Issued) : Prop :=
  e.signed <= clock ∧
    exists deadline, signUntil jwt s e.signed e.subject deadline = .ok (e.token, e.expires)

/-- The request passed under the session. -/
structure Admitted.Under (a : Admitted) (e : Issued) : Prop where
  token : e.token = a.token
  subject : e.subject = a.subject
  after : e.signed <= a.time
  before : a.time < e.expires

/-- The sessions come from different callbacks. -/
def Issued.Apart (e e' : Issued) : Prop :=
  forall i, e.origin = .callback i -> e'.origin ≠ .callback i

structure SessionsOk (jwt : Jwt) (srv : AuthServer) (cfg : OIDCConfig) (env : OIDCEnv)
    (gen : Nat -> String) (s : Console) : Prop where
  logins : LoginsOk cfg env gen s.logins
  numbered : CallsNumbered s.logins
  dated : forall c, c ∈ s.logins.consumed -> c.time <= s.clock
  earned : forall e, e ∈ s.issued -> Earned srv cfg env s.logins e
  signed : forall e, e ∈ s.issued -> e.Signed jwt srv.signer s.clock
  answered : forall e, e ∈ s.issued -> forall i, e.origin = .callback i -> i ∈ s.answered
  apart : s.issued.Pairwise Issued.Apart
  admitted : forall a, a ∈ s.requests -> exists e, e ∈ s.issued ∧ a.Under e

/-- Nobody else signs under the secret: a cookie that carries its signature is a token that
the server has given out. -/
def Unforged (srv : AuthServer) (read : String -> Option SignedToken) (s : Console)
    (l : ConsoleLabel) (_ : Console) : Prop :=
  forall token claims, l = .request (some token) ->
    authentic srv.signer.secret (read token) = some claims ->
    exists e, e ∈ s.issued ∧ e.token = token

/-!
## Every step keeps the sessions earned
-/

section

variable {jwt : Jwt} {srv : AuthServer} {cfg : OIDCConfig} {env : OIDCEnv} {gen : Nat -> String}
  {fk : Bool}

theorem sessionsOk_init (clock : Int) (store : Db) :
    SessionsOk jwt srv cfg env gen (Console.init clock store) where
  logins := loginsOk_init cfg env gen clock
  numbered := fun i call h => by cases h
  dated := fun c hc => by cases hc
  earned := fun e he => by cases he
  signed := fun e he => by cases he
  answered := fun e he => by cases he
  apart := List.Pairwise.nil
  admitted := fun a ha => by cases ha

theorem SessionsOk.oidc {s : Console} (hgen : Function.Injective gen)
    (h : SessionsOk jwt srv cfg env gen s) {l : Auth.Label} {logins : Auth.Sys}
    (hstep : Auth.step cfg env gen s.logins l = some logins) :
    SessionsOk jwt srv cfg env gen { s with logins := logins } := by
  have hgrow := loginsGrow_step hstep
  refine ⟨step_loginsOk hgen h.logins hstep, callsNumbered_step h.numbered hstep, ?_, ?_, ?_,
    h.answered, h.apart, h.admitted⟩
  · intro c hc
    rcases hgrow.dated c hc with hold | hnew
    · exact Int.le_trans (h.dated c hold) hgrow.clock
    · exact hnew
  · intro e he
    exact (h.earned e he).grow h.numbered hstep
  · intro e he
    rcases h.signed e he with ⟨hbefore, hsign⟩
    exact ⟨Int.le_trans hbefore hgrow.clock, hsign⟩

theorem SessionsOk.frame {s s' : Console} (h : SessionsOk jwt srv cfg env gen s)
    (hlogins : s'.logins = s.logins) (hanswered : s'.answered = s.answered)
    (hissued : s'.issued = s.issued) (hrequests : s'.requests = s.requests) :
    SessionsOk jwt srv cfg env gen s' := by
  rcases s' with ⟨logins, answered, issued, requests, _, _, _, _⟩
  cases hlogins
  cases hanswered
  cases hissued
  cases hrequests
  exact ⟨h.logins, h.numbered, h.dated, h.earned, h.signed, h.answered, h.apart, h.admitted⟩

theorem SessionsOk.issue {s : Console} (h : SessionsOk jwt srv cfg env gen s) {origin : Origin}
    {subject token : String} {deadline exp : Int} {answered : List Nat}
    (hsign : signUntil jwt srv.signer s.clock subject deadline = .ok (token, exp))
    (hearned : Earned srv cfg env s.logins
      { origin := origin, token := token, subject := subject, signed := s.clock
        expires := exp })
    (hmore : forall i, i ∈ s.answered -> i ∈ answered)
    (hown : forall i, origin = .callback i -> i ∈ answered ∧ i ∉ s.answered) :
    SessionsOk jwt srv cfg env gen
      (Console.issue { s with answered := answered } origin subject token exp) where
  logins := h.logins
  numbered := h.numbered
  dated := h.dated
  earned := by
    intro e he
    rcases List.mem_cons.mp he with hnew | hold
    · rw [hnew]
      exact hearned
    · exact h.earned e hold
  signed := by
    intro e he
    rcases List.mem_cons.mp he with hnew | hold
    · rw [hnew]
      exact ⟨Int.le_refl _, deadline, hsign⟩
    · exact h.signed e hold
  answered := by
    intro e he i hi
    rcases List.mem_cons.mp he with hnew | hold
    · rw [hnew] at hi
      exact (hown i hi).left
    · exact hmore i (h.answered e hold i hi)
  apart := by
    refine List.pairwise_cons.mpr ⟨?_, h.apart⟩
    intro e he i hi hother
    exact (hown i hi).right (h.answered e he i hother)
  admitted := by
    intro a ha
    rcases h.admitted a ha with ⟨e, he, hunder⟩
    exact ⟨e, List.mem_cons_of_mem _ he, hunder⟩

theorem SessionsOk.callback_earned {s : Console} (h : SessionsOk jwt srv cfg env gen s) {i : Nat}
    {state binding code subject token : String} {r : Except String LoginAttempt} {p : Provider}
    {deadline exp : Int}
    (hcall : s.logins.calls i = some ⟨state, binding, code, .finished r p (.ok (subject, deadline))⟩)
    (hsign : signUntil jwt srv.signer s.clock subject deadline = .ok (token, exp)) :
    Earned srv cfg env s.logins
      { origin := .callback i, token := token, subject := subject, signed := s.clock
        expires := exp } := by
  rcases h.logins.calls.finished i state binding code r p _ hcall with ⟨hout, hown⟩
  rcases finishLogin_ok hout.symm with
    ⟨a, tok, raw, id, hr, hexchange, hraw, hverify, hnonce, _, hallowed, hpair⟩
  rcases hown a hr with ⟨c, hc, hcallOf, hcstate, hcbinding, hattempt⟩
  rcases h.logins.history.matched c hc with ⟨b, hb, hstate, hbinding, hbegun, hfrom, huntil⟩
  rw [hr, ← hattempt, hbegun, ← hcstate, ← hcbinding, hstate, hbinding] at hcall
  rw [← hattempt, hbegun] at hexchange hnonce
  have hsubject : subject = "oidc:" ++ env.identityDigest id.issuer id.subject :=
    congrArg Prod.fst hpair
  have hdeadline : deadline = id.expiry := congrArg Prod.snd hpair
  rw [hdeadline] at hcall
  refine Earned.callback rfl hcall hb
    ⟨i, c, rfl, hc, hcallOf, hstate, hbinding, hfrom, huntil, h.dated c hc⟩
    hexchange hraw hverify hnonce hallowed hsubject ?_
  intro hexpiry
  show exp <= id.expiry
  rw [(signUntil_ok hsign).left, hdeadline, sessionEnd, if_neg hexpiry]
  exact Int.min_le_right _ _

theorem SessionsOk.under {s : Console} (h : SessionsOk jwt srv cfg env gen s)
    {read : String -> Option SignedToken} (hjwt : jwt.Reads read) {token subject : String}
    (hauth : requireAuth jwt srv.signer s.clock (some token) = .ok subject)
    (hgiven : forall claims, authentic srv.signer.secret (read token) = some claims ->
      exists e, e ∈ s.issued ∧ e.token = token) :
    exists e, e ∈ s.issued ∧
      ({ token := token, subject := subject, time := s.clock } : Admitted).Under e := by
  have hclaims : exists claims, authentic srv.signer.secret (read token) = some claims := by
    rw [requireAuth_verdict hjwt] at hauth
    cases hread : authentic srv.signer.secret (read token) with
    | none =>
        rw [hread] at hauth
        split at hauth
        · cases hauth
        · cases hauth
    | some claims => exact ⟨claims, rfl⟩
  rcases hclaims with ⟨claims, hclaims⟩
  rcases hgiven claims hclaims with ⟨e, he, rfl⟩
  rcases h.signed e he with ⟨hbefore, deadline, hsign⟩
  rw [requireAuth_session hjwt hsign hbefore] at hauth
  split at hauth
  · cases hauth
  · rename_i hcurrent
    cases hauth
    refine ⟨e, he, rfl, rfl, hbefore, ?_⟩
    exact Int.lt_of_lt_of_le (Int.not_le.mp hcurrent) (second_floor_le e.expires)

theorem SessionsOk.step {read : String -> Option SignedToken} (hjwt : jwt.Reads read)
    (hgen : Function.Injective gen) {s s' : Console} {l : ConsoleLabel}
    (hunforged : Unforged srv read s l s') (h : SessionsOk jwt srv cfg env gen s)
    (hstep : s.step jwt srv cfg env gen fk l = some s') :
    SessionsOk jwt srv cfg env gen s' := by
  cases step_stepped hstep with
  | oidc hlogins => exact h.oidc hgen hlogins
  | unanswered hnew =>
      exact ⟨h.logins, h.numbered, h.dated, h.earned, h.signed,
        fun e he i hi => List.mem_cons_of_mem _ (h.answered e he i hi), h.apart, h.admitted⟩
  | @answered i _ _ _ _ _ _ _ _ _ hnew hcall hsign =>
      refine h.issue hsign (h.callback_earned hcall hsign)
        (fun j hj => List.mem_cons_of_mem _ hj) ?_
      intro j hj
      cases hj
      exact ⟨List.mem_cons_self, hnew⟩
  | loginRefused => exact h
  | loggedIn hreq hknows hsign =>
      rcases knows_iff.mp hknows with ⟨hname, hpassword⟩
      rcases password_ne_empty hpassword with ⟨hne, _, hcompare⟩
      exact h.issue hsign (Earned.password rfl hreq hname hne hcompare rfl) (fun _ hi => hi)
        (fun i hi => by cases hi)
  | turnedAway => exact h
  | admitted hauth =>
      refine ⟨h.logins, h.numbered, h.dated, h.earned, h.signed, h.answered, h.apart, ?_⟩
      intro a ha
      rcases List.mem_append.mp ha with hold | hnew
      · exact h.admitted a hold
      · cases List.mem_singleton.mp hnew
        exact h.under hjwt hauth (fun claims => hunforged _ claims rfl)
  | upsertFailed _ => exact h.frame rfl rfl rfl rfl
  | upserted _ _ _ _ => exact h.frame rfl rfl rfl rfl
  | noteFailed _ => exact h.frame rfl rfl rfl rfl
  | noteOpened _ _ _ _ => exact h.frame rfl rfl rfl rfl
  | noteTimed _ => exact h.frame rfl rfl rfl rfl
  | noteLost _ => exact h.frame rfl rfl rfl rfl
  | noted _ _ => exact h.frame rfl rfl rfl rfl

theorem sessionsOk_run {read : String -> Option SignedToken} (hjwt : jwt.Reads read)
    (hgen : Function.Injective gen) {clock : Int} {store : Db} {labels : List ConsoleLabel}
    {s : Console}
    (hrun : runSteps (Console.step jwt srv cfg env gen fk) (Console.init clock store) labels = some s)
    (hunforged : EveryStep (Console.step jwt srv cfg env gen fk) (Unforged srv read)
      (Console.init clock store) labels) :
    SessionsOk jwt srv cfg env gen s :=
  run_invariant_every (fun _ _ _ hq h hstep => h.step hjwt hgen hq hstep) hunforged
    (sessionsOk_init clock store) hrun

theorem SessionsOk.from_apart {s : Console} (h : SessionsOk jwt srv cfg env gen s) :
    s.issued.Pairwise (fun e e' => forall b, ¬ (e.From s.logins b ∧ e'.From s.logins b)) := by
  refine h.apart.imp ?_
  intro e e' hapart b hboth
  rcases hboth with ⟨⟨i, c, horigin, hc, hcall, hstate, _⟩, i', c', horigin', hc', hcall', hstate', _⟩
  have hsame : c = c' :=
    List.inj_on_of_nodup_map h.logins.history.once hc hc' (hstate.trans hstate'.symm)
  rw [hsame, hcall'] at hcall
  cases hcall
  exact hapart i horigin horigin'

end

/-- Whoever is let through acts under a session that was given out to them before and has
not ended; every session was earned and lasts no longer than the configured time, no two
come from one login attempt, and each passes until the second it ends in. -/
theorem admitted_earned {jwt : Jwt} {srv : AuthServer} {cfg : OIDCConfig} {env : OIDCEnv}
    {gen : Nat -> String} {fk : Bool} {read : String -> Option SignedToken}
    (hjwt : jwt.Reads read) (hgen : Function.Injective gen) {clock : Int} {store : Db}
    {labels : List ConsoleLabel} {s : Console}
    (hrun : runSteps (Console.step jwt srv cfg env gen fk) (Console.init clock store) labels = some s)
    (hunforged : EveryStep (Console.step jwt srv cfg env gen fk) (Unforged srv read)
      (Console.init clock store) labels) :
    (forall a, a ∈ s.requests -> exists e, e ∈ s.issued ∧ a.Under e) ∧
      (forall e, e ∈ s.issued -> Earned srv cfg env s.logins e ∧
        e.expires <= e.signed + srv.signer.ttl ∧
        forall t, e.signed <= t -> requireAuth jwt srv.signer t (some e.token) =
          if e.expires / second * second <= t then .error sessionExpired else .ok e.subject) ∧
      s.issued.Pairwise (fun e e' => forall b, ¬ (e.From s.logins b ∧ e'.From s.logins b)) := by
  have h := sessionsOk_run hjwt hgen hrun hunforged
  refine ⟨h.admitted, ?_, h.from_apart⟩
  intro e he
  rcases h.signed e he with ⟨_, deadline, hsign⟩
  refine ⟨h.earned e he, ?_, fun t ht => requireAuth_session hjwt hsign ht⟩
  rw [(signUntil_ok hsign).left, sessionEnd]
  split
  · exact Int.le_refl _
  · exact Int.min_le_left _ _

/-- The administrator logs in, and a minute later a request with the token passes. -/
theorem admitted_earned_admin :
    exists s e, runSteps (Console.step halfDayJwt sampleServer sampleConfig sampleEnv sampleGen true)
        (Console.init 0 Db.empty)
        [.login (some sampleLogin), .oidc (.tick minute), .request (some "long")] = some s ∧
      e ∈ s.issued ∧ ({ token := "long", subject := "admin", time := minute } : Admitted).Under e ∧
      Earned sampleServer sampleConfig sampleEnv s.logins e := by
  let labels : List ConsoleLabel :=
    [.login (some sampleLogin), .oidc (.tick minute), .request (some "long")]
  let issued : Issued :=
    { origin := .password (some sampleLogin), token := "long", subject := "admin", signed := 0
      expires := 720 * minute }
  let start := Console.init 0 Db.empty
  let s₁ : Console := { start with issued := [issued] }
  let s₂ : Console := { s₁ with logins := { s₁.logins with clock := minute } }
  let s₃ : Console :=
    { s₂ with requests := [{ token := "long", subject := "admin", time := minute }] }
  let step := Console.step halfDayJwt sampleServer sampleConfig sampleEnv sampleGen true
  have hlogin : step start (.login (some sampleLogin)) = some s₁ := by rfl
  have htick : step s₁ (.oidc (.tick minute)) = some s₂ := by rfl
  have hrequest : step s₂ (.request (some "long")) = some s₃ := by rfl
  have hrun : runSteps step start labels = some s₃ := by
    rw [runSteps_cons_of_step hlogin, runSteps_cons_of_step htick, runSteps_cons_of_step hrequest]
    rfl
  have hother : forall {s s' : Console} {l : ConsoleLabel},
      (forall token, l ≠ .request (some token)) ->
      Unforged sampleServer (tableRead halfDaySigner.secret halfDaySessions) s l s' := by
    intro s s' l hl token _ heq
    exact absurd heq (hl token)
  have hunforged : EveryStep step
      (Unforged sampleServer (tableRead halfDaySigner.secret halfDaySessions)) start labels := by
    refine (everyStep_cons hlogin).mpr ⟨hother (fun _ => nofun), ?_⟩
    refine (everyStep_cons htick).mpr ⟨hother (fun _ => nofun), ?_⟩
    refine (everyStep_cons hrequest).mpr ⟨?_, trivial⟩
    intro token claims hl _
    cases hl
    exact ⟨issued, List.mem_singleton_self _, rfl⟩
  rcases admitted_earned halfDayJwt_reads sampleGen_injective hrun hunforged with
    ⟨hadmitted, hearned, _⟩
  rcases hadmitted _ (List.mem_singleton_self _) with ⟨e, he, hunder⟩
  exact ⟨s₃, e, hrun, he, hunder, (hearned e he).left⟩

end Api
end LodelineManager
