import LodelineManager.Foundation.MapDeletion
import LodelineManager.Go.Time

/-!
# OIDC login attempts

{lit}`OIDC.Begin`, {lit}`consume` and {lit}`Complete`.  The authorization URL, the digest of
an identity and the answers of the provider come from other packages and are
parameters; the values of {lit}`oauth2.GenerateVerifier` are arguments.
-/

namespace LodelineManager
namespace Auth

open Foundation Go

structure OIDCConfig where
  clientID : String
  allowedSubjects : List String

/-- {lit}`AuthCodeURL` of a state, nonce and verifier, and the hex digest of the JSON of an
issuer and a subject. -/
structure OIDCEnv where
  authCodeURL : String -> String -> String -> String
  identityDigest : String -> String -> String

structure LoginAttempt where
  binding : String
  nonce : String
  verifier : String
  expires : Int
  deriving DecidableEq

abbrev Attempts := AList (fun _ : String => LoginAttempt)

def loginAttemptTTL : Int := 5 * minute

def maxLoginAttempts : Nat := 1024

def errOIDCLogin : String := "OIDC login failed"

/-- The loop of {lit}`Begin` that drops the attempts which have expired. -/
def sweep (now : Int) (attempts : Attempts) : Attempts :=
  deleteWhere (fun a => decide (a.expires <= now)) attempts

/-- {lit}`Begin` under the lock: the authorization URL and the binding. -/
def beginLogin (env : OIDCEnv) (attempts : Attempts) (now : Int)
    (state binding nonce verifier : String) : Attempts × Except String (String × String) :=
  if maxLoginAttempts <= (sweep now attempts).entries.length then
    (sweep now attempts, .error "too many pending OIDC logins")
  else
    ((sweep now attempts).insert state
        { binding := binding, nonce := nonce, verifier := verifier
          expires := now + loginAttemptTTL },
      .ok (env.authCodeURL state nonce verifier, binding))

def consume (attempts : Attempts) (now : Int) (state binding : String) :
    Attempts × Except String LoginAttempt :=
  match attempts.lookup state with
  | none => (attempts, .error errOIDCLogin)
  | some a =>
      if binding = "" ∨ a.binding ≠ binding then (attempts, .error errOIDCLogin)
      else if a.expires <= now then (attempts.erase state, .error errOIDCLogin)
      else (attempts.erase state, .ok a)

/-- The token of an exchange, with its {lit}`id_token` when that is a text. -/
structure Token where
  accessToken : String
  idToken : Option String

structure IDToken where
  issuer : String
  subject : String
  audience : List String
  expiry : Int
  nonce : String
  accessTokenHash : String

/-- What one call of {lit}`Complete` hears from the provider and its libraries: the exchange
of a code with a verifier, the verified token of a text, the {lit}`azp` claim, and the
check of an access token. -/
structure Provider where
  exchange : String -> String -> Option Token
  verify : String -> Option IDToken
  authorizedParty : IDToken -> Option String
  verifyAccessToken : IDToken -> String -> Bool

/-- {lit}`Complete` after its {lit}`consume`: the name of the session and its deadline. -/
def finishLogin (cfg : OIDCConfig) (env : OIDCEnv) (p : Provider) (code : String)
    (consumed : Except String LoginAttempt) : Except String (String × Int) :=
  match consumed with
  | .error _ => .error errOIDCLogin
  | .ok a =>
      if code = "" then .error errOIDCLogin
      else
        match p.exchange code a.verifier with
        | none => .error errOIDCLogin
        | some token =>
            match token.idToken.bind p.verify with
            | none => .error errOIDCLogin
            | some id =>
                if id.subject = "" ∨ id.nonce ≠ a.nonce ∨ id.subject ∉ cfg.allowedSubjects then
                  .error errOIDCLogin
                else
                  match p.authorizedParty id with
                  | none => .error errOIDCLogin
                  | some azp =>
                      if (1 < id.audience.length ∧ azp = "") ∨
                          (azp ≠ "" ∧ azp ≠ cfg.clientID) then .error errOIDCLogin
                      else if id.accessTokenHash ≠ "" ∧
                          p.verifyAccessToken id token.accessToken = false then
                        .error errOIDCLogin
                      else .ok ("oidc:" ++ env.identityDigest id.issuer id.subject, id.expiry)

/-!
## What the operations do
-/

theorem lookup_sweep {now : Int} {attempts : Attempts} {state : String} {a : LoginAttempt} :
    (sweep now attempts).lookup state = some a <->
      attempts.lookup state = some a ∧ now < a.expires := by
  unfold sweep
  rw [lookup_deleteWhere, decide_eq_false_iff_not, Int.not_le]

/-- A {lit}`consume` that does not match its attempt. -/
def Mismatched (attempts : Attempts) (state binding : String) : Prop :=
  binding = "" ∨ forall a, attempts.lookup state = some a -> a.binding ≠ binding

theorem consume_mismatched {attempts : Attempts} {now : Int} {state binding : String}
    (h : Mismatched attempts state binding) :
    consume attempts now state binding = (attempts, .error errOIDCLogin) := by
  unfold consume
  cases hlookup : attempts.lookup state with
  | none => rfl
  | some a =>
      refine if_pos ?_
      rcases h with hempty | hwrong
      · exact Or.inl hempty
      · exact Or.inr (hwrong a hlookup)

/-- A {lit}`consume` that matches its attempt takes it out of the map, and yields it before
it expires. -/
theorem consume_matched {attempts : Attempts} {now : Int} {state binding : String}
    {a : LoginAttempt} (hlookup : attempts.lookup state = some a) (hne : binding ≠ "")
    (hbinding : a.binding = binding) :
    consume attempts now state binding =
      (attempts.erase state, if a.expires <= now then .error errOIDCLogin else .ok a) := by
  have hmatch : ¬ (binding = "" ∨ a.binding ≠ binding) := by
    rw [not_or]
    exact ⟨hne, fun h => h hbinding⟩
  unfold consume
  rw [hlookup]
  show (if _ then _ else _) = _
  rw [if_neg hmatch]
  by_cases hover : a.expires <= now
  · rw [if_pos hover, if_pos hover]
  · rw [if_neg hover, if_neg hover]

theorem finishLogin_ok {cfg : OIDCConfig} {env : OIDCEnv} {p : Provider} {code : String}
    {consumed : Except String LoginAttempt} {out : String × Int}
    (h : finishLogin cfg env p code consumed = .ok out) :
    exists a token raw id, consumed = .ok a ∧ p.exchange code a.verifier = some token ∧
      token.idToken = some raw ∧ p.verify raw = some id ∧ id.nonce = a.nonce ∧
      id.subject ≠ "" ∧ id.subject ∈ cfg.allowedSubjects ∧
      out = ("oidc:" ++ env.identityDigest id.issuer id.subject, id.expiry) := by
  unfold finishLogin at h
  cases consumed with
  | error e => cases h
  | ok a =>
      simp only at h
      split at h
      · cases h
      · split at h
        · cases h
        · rename_i token htoken
          split at h
          · cases h
          · rename_i id hid
            split at h
            · cases h
            · rename_i hchecks
              rw [not_or, not_or] at hchecks
              rcases Option.bind_eq_some_iff.mp hid with ⟨raw, hraw, hverify⟩
              split at h
              · cases h
              · split at h
                · cases h
                · split at h
                  · cases h
                  · cases h
                    exact ⟨a, token, raw, id, rfl, htoken, hraw, hverify,
                      not_not.mp hchecks.right.left, hchecks.left,
                      not_not.mp hchecks.right.right, rfl⟩

end Auth
end LodelineManager
