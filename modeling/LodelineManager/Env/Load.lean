import LodelineManager.Fleet.Retry
import LodelineManager.Go.Strings

/-!
# The configuration

{lit}`Load` reads the environment variables in order and stops at the first that it cannot
use.  Files, certificates, {lit}`url.Parse` and {lit}`json.Unmarshal` are parameters.
-/

namespace LodelineManager
namespace Env

open Go Fleet

/-- What {lit}`url.Parse` finds in an absolute URL. -/
structure ParsedURL where
  scheme : ByteString
  host : ByteString
  hasUser : Bool
  path : ByteString
  rawQuery : ByteString
  fragment : ByteString

/-- The process that {lit}`Load` runs in; an unset variable is empty. -/
structure Process where
  getenv : String -> ByteString
  unmarshalStrings : ByteString -> Option (List ByteString)
  parseURL : ByteString -> Option ParsedURL
  readFile : ByteString -> Option ByteString
  certsFromPEM : ByteString -> Bool
  loadKeyPair : ByteString -> ByteString -> Bool

inductive LoadError where
  | subjectsNotJSON
  | oidcIncomplete
  | oidcNotHTTPS
  | oidcRedirectPath
  | oidcEmptySubject
  | certificateWithoutKey
  | unreadableCA
  | noCertificate
  | unusableKeyPair
  | serverNotHTTPS
  | notAnInteger (key : String)
  | missingRequired (names : List String)
  | shortSecret (length : Nat)
  | notBcrypt
  | notPositive (key : String) (got : Int)
  deriving DecidableEq

structure OIDCSettings where
  issuer : ByteString
  clientID : ByteString
  clientSecret : ByteString
  redirectURL : ByteString
  allowedSubjects : List ByteString

/-- A CA of its own, and a client certificate with its key. -/
structure ServerTLS where
  rootCAs : Option ByteString
  certificate : Option (ByteString × ByteString)

structure Config where
  oidc : OIDCSettings
  listenAddr : ByteString
  lodelineServerBaseURL : ByteString
  lodelineServerReadToken : ByteString
  mockFleet : Bool
  lodelineServerTLS : Option ServerTLS
  triageDBPath : ByteString
  adminUsername : ByteString
  adminPasswordBcrypt : ByteString
  jwtSecret : ByteString
  jwtTTL : Int
  fleetPollInterval : Int
  fleetCacheDisabled : Bool
  fleetCacheMaxEntries : Int

def hour : Int := 60 * minute

section

variable (p : Process)

def trimmedEnv (key : String) : ByteString := trimSpace (p.getenv key)

def isOne (key : String) : Bool := decide (p.getenv key = bytesOf "1")

def strDefault (key : String) (fallback : ByteString) : ByteString :=
  if trimmedEnv p key = [] then fallback else trimmedEnv p key

def intDefault (key : String) (fallback : Int) : Except LoadError Int :=
  if trimmedEnv p key = [] then .ok fallback
  else
    match atoi (trimmedEnv p key) with
    | none => .error (.notAnInteger key)
    | some n => .ok n

/-!
## OIDC
-/

def OIDCSettings.unset (c : OIDCSettings) : Bool :=
  c.issuer.isEmpty && c.clientID.isEmpty && c.clientSecret.isEmpty && c.redirectURL.isEmpty &&
    c.allowedSubjects.isEmpty

def OIDCSettings.complete (c : OIDCSettings) : Bool :=
  !(c.issuer.isEmpty || c.clientID.isEmpty || c.clientSecret.isEmpty || c.redirectURL.isEmpty ||
    c.allowedSubjects.isEmpty)

def isPlainHTTPS (raw : ByteString) : Bool :=
  match p.parseURL raw with
  | none => false
  | some u =>
      decide (u.scheme = bytesOf "https") && !u.host.isEmpty && !u.hasUser && u.rawQuery.isEmpty &&
        u.fragment.isEmpty

/-- {lit}`OIDCConfig.Validate`. -/
def OIDCSettings.validate (c : OIDCSettings) : Except LoadError Unit :=
  if c.unset then .ok ()
  else if !c.complete then .error .oidcIncomplete
  else if !(isPlainHTTPS p c.issuer && isPlainHTTPS p c.redirectURL) then .error .oidcNotHTTPS
  else if (p.parseURL c.redirectURL).map ParsedURL.path ≠
      some (bytesOf "/api/v1/auth/oidc/callback") then .error .oidcRedirectPath
  else if c.allowedSubjects.any (fun sub => (trimSpace sub).isEmpty) then .error .oidcEmptySubject
  else .ok ()

def allowedSubjects : Except LoadError (List ByteString) :=
  if p.getenv "OIDC_ALLOWED_SUBJECTS" = [] then .ok []
  else
    match p.unmarshalStrings (p.getenv "OIDC_ALLOWED_SUBJECTS") with
    | none => .error .subjectsNotJSON
    | some subjects => .ok subjects

/-!
## TLS
-/

def loadCA (caPath : ByteString) : Except LoadError (Option ByteString) :=
  if caPath = [] then .ok none
  else
    match p.readFile caPath with
    | none => .error .unreadableCA
    | some pem => if p.certsFromPEM pem then .ok (some pem) else .error .noCertificate

def loadCertificate (certPath keyPath : ByteString) :
    Except LoadError (Option (ByteString × ByteString)) :=
  if certPath = [] then .ok none
  else if p.loadKeyPair certPath keyPath then .ok (some (certPath, keyPath))
  else .error .unusableKeyPair

def loadServerTLS : Except LoadError (Option ServerTLS) :=
  let caPath := trimmedEnv p "LODELINE_SERVER_CA_PATH"
  let certPath := trimmedEnv p "LODELINE_SERVER_CLIENT_CERT_PATH"
  let keyPath := trimmedEnv p "LODELINE_SERVER_CLIENT_KEY_PATH"
  if caPath = [] ∧ certPath = [] ∧ keyPath = [] then .ok none
  else if decide (certPath = []) ≠ decide (keyPath = []) then .error .certificateWithoutKey
  else do
    let rootCAs <- loadCA p caPath
    let certificate <- loadCertificate p certPath keyPath
    pure (some { rootCAs := rootCAs, certificate := certificate })

/-- {lit}`strings.EqualFold` with a text of lower case letters. -/
def equalFold (s lower : ByteString) : Bool :=
  decide (s.map (fun c => if 65 <= c ∧ c <= 90 then c + 32 else c) = lower)

def serverTLS (mockFleet : Bool) (baseURL : ByteString) : Except LoadError (Option ServerTLS) :=
  if mockFleet then .ok none
  else do
    let tls <- loadServerTLS p
    if tls.isSome && !((p.parseURL baseURL).any (fun u => equalFold u.scheme (bytesOf "https"))) then
      .error .serverNotHTTPS
    else pure tls

/-!
## Load
-/

/-- {lit}`isBcryptHash` looks at the length and the prefix only. -/
def isBcryptHash (s : ByteString) : Bool :=
  decide (60 <= s.length) &&
    (["$2a$", "$2b$", "$2y$"].any (fun start => (bytesOf start).isPrefixOf s))

def Config.missing (c : Config) : List String :=
  (if c.mockFleet then []
    else (if c.lodelineServerBaseURL = [] then ["LODELINE_SERVER_BASE_URL"] else []) ++
      if c.lodelineServerReadToken = [] then ["LODELINE_SERVER_READ_TOKEN"] else []) ++
    ((if c.adminUsername = [] then ["ADMIN_USERNAME"] else []) ++
      ((if c.adminPasswordBcrypt = [] then ["ADMIN_PASSWORD_BCRYPT"] else []) ++
        if c.jwtSecret = [] then ["JWT_SECRET"] else []))

/-- {lit}`Config.validate`; the durations have been multiplied before. -/
def Config.validate (c : Config) : Except LoadError Unit :=
  if c.missing ≠ [] then .error (.missingRequired c.missing)
  else if c.jwtSecret.length < 32 then .error (.shortSecret c.jwtSecret.length)
  else if !isBcryptHash c.adminPasswordBcrypt then .error .notBcrypt
  else if c.jwtTTL <= 0 then .error (.notPositive "JWT_TTL_HOURS" c.jwtTTL)
  else if c.fleetPollInterval <= 0 then
    .error (.notPositive "FLEET_POLL_INTERVAL_SECONDS" c.fleetPollInterval)
  else .ok ()

def oidcSettings (subjects : List ByteString) : OIDCSettings :=
  { issuer := trimmedEnv p "OIDC_ISSUER_URL"
    clientID := trimmedEnv p "OIDC_CLIENT_ID"
    clientSecret := p.getenv "OIDC_CLIENT_SECRET"
    redirectURL := trimmedEnv p "OIDC_REDIRECT_URL"
    allowedSubjects := subjects }

/-- What {lit}`Load` has put together before it validates. -/
def configOf (oidc : OIDCSettings) (tls : Option ServerTLS)
    (ttlHours pollSeconds maxEntries : Int) : Config :=
  { oidc := oidc
    listenAddr := strDefault p "LISTEN_ADDR" (bytesOf ":8080")
    lodelineServerBaseURL := trimmedEnv p "LODELINE_SERVER_BASE_URL"
    lodelineServerReadToken := trimmedEnv p "LODELINE_SERVER_READ_TOKEN"
    mockFleet := isOne p "MOCK_FLEET"
    lodelineServerTLS := tls
    triageDBPath := strDefault p "TRIAGE_DB_PATH" (bytesOf "./var/triage.sqlite")
    adminUsername := trimmedEnv p "ADMIN_USERNAME"
    adminPasswordBcrypt := trimmedEnv p "ADMIN_PASSWORD_BCRYPT"
    jwtSecret := trimmedEnv p "JWT_SECRET"
    jwtTTL := wrap64 (ttlHours * hour)
    fleetPollInterval := wrap64 (pollSeconds * second)
    fleetCacheDisabled := isOne p "FLEET_CACHE_DISABLED"
    fleetCacheMaxEntries := maxEntries }

def load : Except LoadError Config := do
  let subjects <- allowedSubjects p
  (oidcSettings p subjects).validate p
  let tls <- serverTLS p (isOne p "MOCK_FLEET") (trimmedEnv p "LODELINE_SERVER_BASE_URL")
  let ttlHours <- intDefault p "JWT_TTL_HOURS" 12
  let pollSeconds <- intDefault p "FLEET_POLL_INTERVAL_SECONDS" 5
  let maxEntries <- intDefault p "FLEET_CACHE_MAX_ENTRIES" 512
  let c := configOf p (oidcSettings p subjects) tls ttlHours pollSeconds maxEntries
  c.validate
  pure c

end

/-!
## What an accepted environment has passed
-/

theorem bind_eq_ok {error first result : Type} {x : Except error first}
    {f : first -> Except error result} {r : result} (h : (x >>= f) = .ok r) :
    exists a, x = .ok a ∧ f a = .ok r := by
  cases x with
  | error e => cases h
  | ok a => exact ⟨a, rfl, h⟩

theorem Config.validate_ok {c : Config} (h : c.validate = .ok ()) :
    c.missing = [] ∧ 32 <= c.jwtSecret.length ∧ isBcryptHash c.adminPasswordBcrypt = true ∧
      0 < c.jwtTTL ∧ 0 < c.fleetPollInterval := by
  unfold Config.validate at h
  split at h
  · cases h
  · rename_i hmissing
    split at h
    · cases h
    · rename_i hsecret
      split at h
      · cases h
      · rename_i hbcrypt
        split at h
        · cases h
        · rename_i httl
          split at h
          · cases h
          · rename_i hpoll
            exact ⟨Decidable.not_not.mp hmissing, Nat.le_of_not_lt hsecret, by simpa using hbcrypt,
              Int.not_le.mp httl, Int.not_le.mp hpoll⟩

theorem load_ok {p : Process} {c : Config} (h : load p = .ok c) :
    exists ttlHours pollSeconds,
      intDefault p "JWT_TTL_HOURS" 12 = .ok ttlHours ∧
      intDefault p "FLEET_POLL_INTERVAL_SECONDS" 5 = .ok pollSeconds ∧
      c.jwtTTL = wrap64 (ttlHours * hour) ∧ c.fleetPollInterval = wrap64 (pollSeconds * second) ∧
      c.fleetCacheDisabled = isOne p "FLEET_CACHE_DISABLED" ∧ c.validate = .ok () := by
  unfold load at h
  rcases bind_eq_ok h with ⟨subjects, _, h⟩
  rcases bind_eq_ok h with ⟨_, _, h⟩
  rcases bind_eq_ok h with ⟨tls, _, h⟩
  rcases bind_eq_ok h with ⟨ttlHours, httl, h⟩
  rcases bind_eq_ok h with ⟨pollSeconds, hpoll, h⟩
  rcases bind_eq_ok h with ⟨maxEntries, _, h⟩
  rcases bind_eq_ok h with ⟨_, hvalid, h⟩
  cases h
  exact ⟨ttlHours, pollSeconds, httl, hpoll, rfl, rfl, rfl, hvalid⟩

end Env
end LodelineManager
