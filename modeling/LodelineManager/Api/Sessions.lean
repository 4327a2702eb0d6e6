import LodelineManager.Api.Triage
import LodelineManager.Auth.TokenChecks
import LodelineManager.Go.JSONTypes

/-!
# Logging in and through

The login handler, and the middleware in front of the routes that ask for a session.  The
comparison of bcrypt is a parameter.
-/

namespace LodelineManager
namespace Api

open Foundation Go JSON Auth

/-- The handlers' own share of {lit}`Server` and its {lit}`AuthConfig`. -/
structure AuthServer extends CallbackServer where
  adminUsername : String
  adminPasswordBcrypt : String
  /-- {lit}`bcrypt.CompareHashAndPassword` of a hash and a text is {lit}`nil`. -/
  compareHashAndPassword : String -> String -> Bool

namespace Password

/-- {lit}`auth.Verify`. -/
def verify (compareHashAndPassword : String -> String -> Bool) (plaintext hash : String) : Bool :=
  if plaintext = "" || hash = "" then false else compareHashAndPassword hash plaintext

end Password

/-!
## Bodies and answers
-/

/-- The body of {lit}`POST /auth/login`. -/
structure Credentials where
  username : String
  password : String

def loginRequestFields : List (Field Text Credentials) :=
  [field "username" Credentials.username (fun r x => { r with username := x }) decodeString,
    field "password" Credentials.password (fun r x => { r with password := x }) decodeString]

def loginRequest (body : Option Document) : Option Credentials :=
  body.bind (fun v => decodeStruct loginRequestFields v { username := "", password := "" })

/-- The body of {lit}`loginResponse`. -/
structure SessionAnswer where
  username : String
  expiresAt : Int

/-- The cookie that an answer sets, what the handler sleeps before it, and its body. -/
structure SessionResponse (answer : Type) where
  cookie : Option Cookie
  sleeps : Int
  body : Except ErrorResponse answer

def loginFailDelay : Int := 250 * millisecond

def malformedBody : ErrorResponse := invalidQuery "malformed JSON body"

def invalidCredentials : ErrorResponse :=
  { status := 401, code := "invalid_credentials", message := "username or password is wrong" }

def sessionNotIssued : ErrorResponse :=
  { status := 500, code := "internal", message := "failed to issue session" }

def sessionMissing : ErrorResponse :=
  { status := 401, code := "unauthorized", message := "session cookie missing" }

def sessionExpired : ErrorResponse :=
  { status := 401, code := "session_expired"
    message := "session expired, please log in again" }

def sessionInvalid : ErrorResponse :=
  { status := 401, code := "unauthorized", message := "invalid session" }

/-!
## The handlers
-/

section

variable (jwt : Jwt) (srv : AuthServer)

/-- {lit}`Signer.Sign` at a clock reading. -/
def sign (s : Signer) (now : Int) (subject : String) : Except AuthError (String × Int) :=
  signUntil jwt s now subject zeroTime

/-- The two checks of {lit}`handleLogin`, which always both run. -/
def AuthServer.knows (c : Credentials) : Bool :=
  let usernameOK := decide (c.username = srv.adminUsername)
  let passwordOK := Password.verify srv.compareHashAndPassword c.password srv.adminPasswordBcrypt
  usernameOK && passwordOK

def AuthServer.loginCookie (token : String) (exp : Int) : Cookie :=
  { name := cookieName, value := token, path := "/", expires := some exp
    maxAge := srv.seconds srv.signer.ttl, httpOnly := true, secure := srv.cookieSecure }

def handleLogin (now : Int) (body : Option Document) : SessionResponse SessionAnswer :=
  match loginRequest body with
  | none => { cookie := none, sleeps := 0, body := .error malformedBody }
  | some req =>
      if srv.knows req = false then
        { cookie := none, sleeps := loginFailDelay, body := .error invalidCredentials }
      else
        match sign jwt srv.signer now srv.adminUsername with
        | .error _ => { cookie := none, sleeps := 0, body := .error sessionNotIssued }
        | .ok (token, exp) =>
            { cookie := some (srv.loginCookie token exp), sleeps := 0
              body := .ok { username := srv.adminUsername, expiresAt := exp } }

def authRefusal : AuthError -> ErrorResponse
  | .expiredToken => sessionExpired
  | _ => sessionInvalid

/-- {lit}`RequireAuth`: the subject that the handlers behind it see, or its 401. -/
def requireAuth (s : Signer) (now : Int) (cookie : Option String) :
    Except ErrorResponse String :=
  match cookie with
  | none => .error sessionMissing
  | some value =>
      if value = "" then .error sessionMissing
      else (verify jwt s now value).mapError authRefusal

end

/-!
## What they come to
-/

section

variable {jwt : Jwt} {srv : AuthServer}

def SessionResponse.token {answer : Type} (r : SessionResponse answer) : Option String :=
  r.cookie.map (·.value)

theorem handleLogin_token {now : Int} {body : Option Document} {token : String}
    (h : (handleLogin jwt srv now body).token = some token) :
    exists req exp, loginRequest body = some req ∧ srv.knows req = true ∧
      sign jwt srv.signer now srv.adminUsername = .ok (token, exp) := by
  unfold handleLogin at h
  split at h
  · cases h
  · rename_i req hreq
    split at h
    · cases h
    · rename_i hknows
      split at h
      · cases h
      · rename_i signed exp hsign
        cases h
        exact ⟨req, exp, hreq, Bool.eq_true_of_not_eq_false hknows, hsign⟩

theorem knows_iff {c : Credentials} :
    srv.knows c = true <-> c.username = srv.adminUsername ∧
      Password.verify srv.compareHashAndPassword c.password srv.adminPasswordBcrypt = true := by
  unfold AuthServer.knows
  rw [Bool.and_eq_true, decide_eq_true_eq]

theorem password_ne_empty {compare : String -> String -> Bool} {plaintext hash : String}
    (h : Password.verify compare plaintext hash = true) :
    plaintext ≠ "" ∧ hash ≠ "" ∧ compare hash plaintext = true := by
  unfold Password.verify at h
  split at h
  · cases h
  · rename_i hempty
    rw [Bool.or_eq_true, decide_eq_true_eq, decide_eq_true_eq, not_or] at hempty
    exact ⟨hempty.left, hempty.right, h⟩

/-- What {lit}`RequireAuth` makes of a cookie, by the claims it reads as. -/
theorem requireAuth_verdict {read : String -> Option SignedToken} (hjwt : jwt.Reads read)
    (s : Signer) (now : Int) (value : String) :
    requireAuth jwt s now (some value) =
      if value = "" then .error sessionMissing
      else
        match authentic s.secret (read value) with
        | none => .error sessionInvalid
        | some claims =>
            if Past now claims.expiresAt then .error sessionExpired
            else if claims.issuer = defaultIssuer ∧ claims.subject ≠ "" ∧
                ¬ Ahead now claims.notBefore then .ok claims.subject
            else .error sessionInvalid := by
  simp only [requireAuth]
  by_cases hempty : value = ""
  · rw [if_pos hempty, if_pos hempty]
  · rw [if_neg hempty, if_neg hempty, verify, verifyWithExp_verdict hjwt]
    cases authentic s.secret (read value) with
    | none => rfl
    | some claims =>
        unfold verdict
        dsimp only
        split
        · rfl
        · split
          · rfl
          · rfl

theorem requireAuth_session {read : String -> Option SignedToken} (hjwt : jwt.Reads read)
    {s : Signer} {now deadline exp t : Int} {subject token : String}
    (h : signUntil jwt s now subject deadline = .ok (token, exp)) (ht : now <= t) :
    requireAuth jwt s t (some token) =
      if exp / second * second <= t then .error sessionExpired else .ok subject := by
  have hne : token ≠ "" := by
    intro hempty
    have hverify := verifyWithExp_session hjwt h ht
    rw [verifyWithExp, if_pos hempty] at hverify
    split at hverify
    · cases hverify
    · cases hverify
  rw [requireAuth, if_neg hne, verify, verifyWithExp_session hjwt h ht]
  by_cases hover : exp / second * second <= t
  · rw [if_pos hover, if_pos hover]
    rfl
  · rw [if_neg hover, if_neg hover]
    rfl

end

end Api
end LodelineManager
