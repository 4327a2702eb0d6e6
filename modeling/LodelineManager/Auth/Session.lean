import LodelineManager.Auth.OIDC

/-!
# Sessions

{lit}`Signer.SignUntil`, {lit}`Signer.VerifyWithExp` and the OIDC callback that starts a
session.  The token library is a parameter; what is relied on is what it documents:
dates are whole seconds, and an expired token is not accepted.
-/

namespace LodelineManager
namespace Auth

open Go

def signingMethod : String := "HS256"

def minSecretBytes : Nat := 32

def defaultIssuer : String := "lodeline-manager"

def subjectMaxLength : Nat := 256

inductive AuthError where
  | subjectRequired
  | subjectTooLong
  | expiredToken
  | invalidToken
  | sign (err : String)
  deriving DecidableEq

structure RegisteredClaims where
  issuer : String
  subject : String
  issuedAt : Option Int
  notBefore : Option Int
  expiresAt : Option Int
  deriving DecidableEq

/-- {lit}`ErrTokenExpired` and every other failure of a parse. -/
inductive ParseError where
  | tokenExpired
  | other

/-- The dates of a claim set, the HS256 token of claims under a secret, and the parse of
a token for valid methods, an issuer, a clock reading and a secret, with {lit}`Valid`. -/
structure Jwt where
  newNumericDate : Int -> Int
  signedString : RegisteredClaims -> String -> Except String String
  parseWithClaims : List String -> String -> Int -> String -> String ->
    Except ParseError (RegisteredClaims × Bool)

/-- What the library documents. -/
structure Jwt.Documented (jwt : Jwt) : Prop where
  /-- A date has the precision of a second. -/
  truncates : forall t, jwt.newNumericDate t = t / second * second
  /-- A token that is accepted carries the claims it was signed with, before they
  expire. -/
  accepts : forall claims secret token methods issuer now secret' parsed valid,
    jwt.signedString claims secret = .ok token ->
    jwt.parseWithClaims methods issuer now secret' token = .ok (parsed, valid) ->
    parsed = claims ∧ forall exp, claims.expiresAt = some exp -> now < exp

/-- A signer carries what {lit}`NewSigner` has checked. -/
structure Signer where
  secret : String
  ttl : Int
  longSecret : minSecretBytes <= secret.utf8ByteSize
  positive : 0 < ttl

/-- {lit}`SignUntil` at a clock reading; the zero time is no deadline. -/
def signUntil (jwt : Jwt) (s : Signer) (now : Int) (subject : String) (deadline : Int) :
    Except AuthError (String × Int) :=
  if subject = "" then .error .subjectRequired
  else if subjectMaxLength < subject.utf8ByteSize then .error .subjectTooLong
  else
    let exp := if deadline ≠ zeroTime ∧ deadline < now + s.ttl then deadline else now + s.ttl
    if exp <= now then .error .expiredToken
    else
      let claims : RegisteredClaims :=
        { issuer := defaultIssuer, subject := subject
          issuedAt := some (jwt.newNumericDate now), notBefore := some (jwt.newNumericDate now)
          expiresAt := some (jwt.newNumericDate exp) }
      match jwt.signedString claims s.secret with
      | .error err => .error (.sign err)
      | .ok signed => .ok (signed, exp)

/-- {lit}`VerifyWithExp` at a clock reading. -/
def verifyWithExp (jwt : Jwt) (s : Signer) (now : Int) (token : String) :
    Except AuthError (String × Int) :=
  if token = "" then .error .invalidToken
  else
    match jwt.parseWithClaims [signingMethod] defaultIssuer now s.secret token with
    | .error .tokenExpired => .error .expiredToken
    | .error .other => .error .invalidToken
    | .ok (claims, valid) =>
        if valid = false then .error .invalidToken
        else if claims.subject = "" then .error .invalidToken
        else .ok (claims.subject, claims.expiresAt.getD zeroTime)

def sessionEnd (ttl deadline now : Int) : Int :=
  if deadline = zeroTime then now + ttl else min (now + ttl) deadline

def sessionClaims (jwt : Jwt) (subject : String) (now exp : Int) : RegisteredClaims :=
  { issuer := defaultIssuer, subject := subject
    issuedAt := some (jwt.newNumericDate now), notBefore := some (jwt.newNumericDate now)
    expiresAt := some (jwt.newNumericDate exp) }

theorem signUntil_ok {jwt : Jwt} {s : Signer} {now deadline exp : Int} {subject token : String}
    (h : signUntil jwt s now subject deadline = .ok (token, exp)) :
    exp = sessionEnd s.ttl deadline now ∧ now < exp ∧ subject ≠ "" ∧
      jwt.signedString (sessionClaims jwt subject now exp) s.secret = .ok token := by
  unfold signUntil at h
  split at h
  · cases h
  · rename_i hsubject
    split at h
    · cases h
    · have hend : (if deadline ≠ zeroTime ∧ deadline < now + s.ttl then deadline
          else now + s.ttl) = sessionEnd s.ttl deadline now := by
        unfold sessionEnd
        by_cases hzero : deadline = zeroTime
        · rw [if_pos hzero, if_neg (fun hboth => hboth.left hzero)]
        · rw [if_neg hzero]
          by_cases hcap : deadline < now + s.ttl
          · rw [if_pos ⟨hzero, hcap⟩, Int.min_eq_right (Int.le_of_lt hcap)]
          · rw [if_neg (fun hboth => hcap hboth.right), Int.min_eq_left (Int.not_lt.mp hcap)]
      simp only [hend] at h
      split at h
      · cases h
      · rename_i hafter
        split at h
        · cases h
        · rename_i signed hsigned
          cases h
          exact ⟨rfl, Int.not_le.mp hafter, hsubject, hsigned⟩

theorem second_floor_le (t : Int) : t / second * second <= t :=
  Int.ediv_mul_le t (by decide)

theorem verifyWithExp_expired {jwt : Jwt} {s : Signer} {secret token : String}
    {claims : RegisteredClaims} {exp t : Int} (hjwt : jwt.Documented)
    (hsigned : jwt.signedString claims secret = .ok token)
    (hexp : claims.expiresAt = some (jwt.newNumericDate exp)) (ht : exp <= t) :
    exists err, verifyWithExp jwt s t token = .error err := by
  unfold verifyWithExp
  split
  · exact ⟨_, rfl⟩
  · cases hparse : jwt.parseWithClaims [signingMethod] defaultIssuer t s.secret token with
    | error e =>
        cases e with
        | tokenExpired => exact ⟨_, rfl⟩
        | other => exact ⟨_, rfl⟩
    | ok r =>
        have hbefore := (hjwt.accepts claims secret token _ _ t _ r.1 r.2 hsigned hparse).right
          _ hexp
        rw [hjwt.truncates] at hbefore
        have hlate := Int.le_trans (second_floor_le exp) ht
        exact absurd hbefore (Int.not_lt.mpr hlate)

/-!
## The OIDC callback
-/

def cookieName : String := "lodeline_session"

def oidcBindingCookie : String := "lodeline_oidc_binding"

/-- A cookie that is set for the lax same-site policy. -/
structure Cookie where
  name : String
  value : String
  path : String
  expires : Option Int
  maxAge : Int
  httpOnly : Bool
  secure : Bool
  deriving DecidableEq

/-- A redirect, or the plain 404 of {lit}`http.NotFound`, with its cookies in order. -/
structure CallbackResponse where
  cacheControl : String
  referrerPolicy : String
  cookies : List Cookie
  status : Nat
  location : Option String

/-- The query values and the binding cookie of a callback. -/
structure CallbackRequest where
  cookie : Option String
  state : String
  code : String
  error : String

def CallbackRequest.loginCode (req : CallbackRequest) : String :=
  if req.error ≠ "" then "" else req.code

/-- {lit}`seconds` is {lit}`int(d.Seconds())`. -/
structure CallbackServer where
  oidc : Option (OIDCConfig × OIDCEnv)
  signer : Signer
  cookieSecure : Bool
  seconds : Int -> Int

/-- When the callback consumes its attempt, signs, and dates the cookie. -/
structure CallbackTimes where
  consumes : Int
  signs : Int
  dates : Int

def CallbackServer.bindingCookie (srv : CallbackServer) (value : String) (maxAge : Int) : Cookie :=
  { name := oidcBindingCookie, value := value, path := "/api/v1/auth/oidc", expires := none
    maxAge := maxAge, httpOnly := true, secure := srv.cookieSecure }

def CallbackServer.sessionCookie (srv : CallbackServer) (token : String) (exp now : Int) : Cookie :=
  { name := cookieName, value := token, path := "/", expires := some exp
    maxAge := max 1 (srv.seconds (exp - now)), httpOnly := true, secure := srv.cookieSecure }

def CallbackServer.redirect (srv : CallbackServer) (session : List Cookie) (location : String) :
    CallbackResponse :=
  { cacheControl := "no-store", referrerPolicy := "no-referrer"
    cookies := srv.bindingCookie "" (-1) :: session, status := 303, location := some location }

def handleOIDCCallback (jwt : Jwt) (srv : CallbackServer) (p : Provider) (attempts : Attempts)
    (times : CallbackTimes) (req : CallbackRequest) : Attempts × CallbackResponse :=
  match srv.oidc with
  | none =>
      (attempts, { cacheControl := "no-store", referrerPolicy := "no-referrer", cookies := []
                   status := 404, location := none })
  | some (cfg, env) =>
      let fail := srv.redirect [] "/login?oidc_error=1"
      match req.cookie with
      | none => (attempts, fail)
      | some binding =>
          let consumed := consume attempts times.consumes req.state binding
          match finishLogin cfg env p req.loginCode consumed.2 with
          | .error _ => (consumed.1, fail)
          | .ok (subject, deadline) =>
              match signUntil jwt srv.signer times.signs subject deadline with
              | .error _ => (consumed.1, fail)
              | .ok (token, exp) =>
                  (consumed.1, srv.redirect [srv.sessionCookie token exp times.dates] "/alerts")

def CallbackResponse.session (r : CallbackResponse) : Option String :=
  (r.cookies.find? (fun c => decide (c.name = cookieName))).map (·.value)

theorem session_redirect (srv : CallbackServer) (session : List Cookie) (location : String) :
    (srv.redirect session location).session =
      (session.find? (fun c => decide (c.name = cookieName))).map (·.value) := by
  unfold CallbackResponse.session CallbackServer.redirect
  rw [List.find?_cons_of_neg]
  show ¬ decide (oidcBindingCookie = cookieName) = true
  decide

/-- The ID token that the provider has verified for the login of a request. -/
def LoginToken (p : Provider) (attempts : Attempts) (times : CallbackTimes)
    (req : CallbackRequest) (id : IDToken) : Prop :=
  exists binding a token raw, req.cookie = some binding ∧
    (consume attempts times.consumes req.state binding).2 = .ok a ∧
    p.exchange req.loginCode a.verifier = some token ∧ token.idToken = some raw ∧
    p.verify raw = some id

theorem LoginToken.unique {p : Provider} {attempts : Attempts} {times : CallbackTimes}
    {req : CallbackRequest} {id id' : IDToken} (h : LoginToken p attempts times req id)
    (h' : LoginToken p attempts times req id') : id = id' := by
  rcases h with ⟨binding, a, token, raw, hcookie, hconsumed, hexchange, hraw, hverify⟩
  rcases h' with ⟨binding', a', token', raw', hcookie', hconsumed', hexchange', hraw', hverify'⟩
  rw [hcookie] at hcookie'
  cases hcookie'
  rw [hconsumed] at hconsumed'
  cases hconsumed'
  rw [hexchange] at hexchange'
  cases hexchange'
  rw [hraw] at hraw'
  cases hraw'
  rw [hverify] at hverify'
  cases hverify'
  rfl

theorem handleOIDCCallback_session {jwt : Jwt} {srv : CallbackServer} {p : Provider}
    {attempts : Attempts} {times : CallbackTimes} {req : CallbackRequest} {token : String}
    (h : (handleOIDCCallback jwt srv p attempts times req).2.session = some token) :
    exists id subject exp, LoginToken p attempts times req id ∧
      signUntil jwt srv.signer times.signs subject id.expiry = .ok (token, exp) := by
  unfold handleOIDCCallback at h
  split at h
  · cases h
  · rename_i cfg env _
    simp only at h
    split at h
    · rw [session_redirect] at h
      cases h
    · rename_i binding hcookie
      split at h
      · rw [session_redirect] at h
        cases h
      · rename_i subject deadline hfinish
        split at h
        · rw [session_redirect] at h
          cases h
        · rename_i signed exp hsign
          rw [session_redirect] at h
          have hvalue : some signed = some token := h
          cases hvalue
          rcases finishLogin_ok hfinish with
            ⟨a, tok, raw, id, hconsumed, hexchange, hraw, hverify, _, _, _, hout⟩
          cases hout
          exact ⟨id, _, exp,
            ⟨binding, a, tok, raw, hcookie, hconsumed, hexchange, hraw, hverify⟩, hsign⟩

/-- No token outlives its session end.  A login whose ID token has expired sets none, and
what a login sets does not outlive its ID token.  The verifier passes no token that has
expired by its own clock. -/
theorem sessions_end {jwt : Jwt} {p : Provider} {verifiedAt : Int} (hjwt : jwt.Documented)
    (hverifier : forall raw id, p.verify raw = some id -> verifiedAt <= id.expiry)
    (hclock : zeroTime < verifiedAt) :
    (forall (s : Signer) now subject deadline token exp,
      signUntil jwt s now subject deadline = .ok (token, exp) ->
      forall t, sessionEnd s.ttl deadline now <= t ->
        exists err, verifyWithExp jwt s t token = .error err) ∧
    (forall srv attempts times req id, LoginToken p attempts times req id ->
      (id.expiry <= times.signs ->
        (handleOIDCCallback jwt srv p attempts times req).2.session = none) ∧
      (forall token, (handleOIDCCallback jwt srv p attempts times req).2.session = some token ->
        forall t, id.expiry <= t ->
          exists err, verifyWithExp jwt srv.signer t token = .error err)) := by
  have hreject : forall (s : Signer) now subject deadline token exp,
      signUntil jwt s now subject deadline = .ok (token, exp) ->
      forall t, sessionEnd s.ttl deadline now <= t ->
        exists err, verifyWithExp jwt s t token = .error err := by
    intro s now subject deadline token exp hsign t ht
    rcases signUntil_ok hsign with ⟨hend, _, _, hsigned⟩
    rw [← hend] at ht
    exact verifyWithExp_expired hjwt hsigned rfl ht
  refine ⟨hreject, ?_⟩
  intro srv attempts times req id hlogin
  -- a verified token has a deadline, so the cap applies
  have hexpiry : id.expiry ≠ zeroTime := by
    intro hzero
    rcases hlogin with ⟨_, _, _, raw, _, _, _, _, hverify⟩
    have hle := hverifier raw id hverify
    rw [hzero] at hle
    exact absurd hclock (Int.not_lt.mpr hle)
  have hcap : sessionEnd srv.signer.ttl id.expiry times.signs <= id.expiry := by
    unfold sessionEnd
    rw [if_neg hexpiry]
    exact Int.min_le_right _ _
  constructor
  · intro hexpired
    cases hsession : (handleOIDCCallback jwt srv p attempts times req).2.session with
    | none => rfl
    | some token =>
        rcases handleOIDCCallback_session hsession with ⟨id', subject, exp, hlogin', hsign⟩
        cases hlogin.unique hlogin'
        rcases signUntil_ok hsign with ⟨hend, hafter, _⟩
        rw [hend] at hafter
        have hlate := Int.le_trans hcap hexpired
        exact absurd hafter (Int.not_lt.mpr hlate)
  · intro token hsession t ht
    rcases handleOIDCCallback_session hsession with ⟨id', subject, exp, hlogin', hsign⟩
    cases hlogin.unique hlogin'
    exact hreject srv.signer times.signs subject id.expiry token exp hsign t
      (Int.le_trans hcap ht)

/-- The claims of a session of one second for the identity {lit}`d`. -/
def shortClaims : RegisteredClaims :=
  { issuer := defaultIssuer, subject := "oidc:d", issuedAt := some 0, notBefore := some 0
    expiresAt := some second }

def shortJwt : Jwt where
  newNumericDate t := t / second * second
  signedString claims _ := if claims = shortClaims then .ok "token" else .error "unknown claims"
  parseWithClaims _ _ now _ token :=
    if token = "token" then
      if now < second then .ok (shortClaims, true) else .error .tokenExpired
    else .error .other

theorem shortJwt_documented : shortJwt.Documented where
  truncates := fun _ => rfl
  accepts := by
    intro claims secret token methods issuer now secret' parsed valid hsigned hparse
    simp only [shortJwt] at hsigned hparse
    split at hsigned
    · rename_i hclaims
      split at hparse
      · split at hparse
        · rename_i hnow
          cases hparse
          refine ⟨hclaims.symm, ?_⟩
          intro exp hexp
          rw [hclaims] at hexp
          cases hexp
          exact hnow
        · cases hparse
      · cases hparse
    · cases hsigned

def shortProvider : Provider where
  exchange code verifier :=
    if code = "code" ∧ verifier = "v" then some { accessToken := "", idToken := some "raw" } else none
  verify raw :=
    if raw = "raw" then
      some { issuer := "i", subject := "s", audience := ["client"], expiry := 1500 * millisecond
             nonce := "n", accessTokenHash := "" }
    else none
  authorizedParty _ := some ""
  verifyAccessToken _ _ := true

/-- A login with that ID token: its session is over when the ID token is, and after that
the login yields none. -/
theorem sessions_end_short :
    exists srv attempts req,
      (handleOIDCCallback shortJwt srv shortProvider attempts ⟨0, 0, 0⟩ req).2.session =
        some "token" ∧
      (exists err, verifyWithExp shortJwt srv.signer (1500 * millisecond) "token" = .error err) ∧
      (handleOIDCCallback shortJwt srv shortProvider attempts
        ⟨0, 1500 * millisecond, 1500 * millisecond⟩ req).2.session = none := by
  let srv : CallbackServer :=
    { oidc := some (⟨"client", ["s"]⟩, ⟨fun _ _ _ => "", fun _ _ => "d"⟩)
      signer := ⟨"01234567890123456789012345678901", minute, by decide, by decide⟩
      cookieSecure := true, seconds := fun d => d / second }
  let attempts : Attempts := AList.insert "st" ⟨"b", "n", "v", minute⟩ ∅
  let req : CallbackRequest := { cookie := some "b", state := "st", code := "code", error := "" }
  have hverifier : forall raw id, shortProvider.verify raw = some id -> 0 <= id.expiry := by
    intro raw id hverify
    simp only [shortProvider] at hverify
    split at hverify
    · cases hverify
      decide
    · cases hverify
  have hends := sessions_end shortJwt_documented hverifier (by decide)
  have hlogin : forall signs dates, exists id,
      LoginToken shortProvider attempts ⟨0, signs, dates⟩ req id ∧
        id.expiry = 1500 * millisecond :=
    fun _ _ => ⟨_, ⟨"b", ⟨"b", "n", "v", minute⟩, _, "raw", rfl, rfl, rfl, rfl, rfl⟩, rfl⟩
  have hsession : (handleOIDCCallback shortJwt srv shortProvider attempts ⟨0, 0, 0⟩ req).2.session =
      some "token" := rfl
  refine ⟨srv, attempts, req, hsession, ?_, ?_⟩
  · rcases hlogin 0 0 with ⟨id, hid, hexpiry⟩
    exact (hends.right srv attempts _ req id hid).right "token" hsession _ (Int.le_of_eq hexpiry)
  · rcases hlogin (1500 * millisecond) (1500 * millisecond) with ⟨id, hid, hexpiry⟩
    exact (hends.right srv attempts _ req id hid).left (Int.le_of_eq hexpiry)

end Auth
end LodelineManager
