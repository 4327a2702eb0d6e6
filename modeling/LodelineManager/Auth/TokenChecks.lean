import LodelineManager.Auth.Session

/-!
# What a token must say

{lit}`Signer.Verify` against its contract, and the expiry that {lit}`SignUntil` returns
against the one that {lit}`VerifyWithExp` reads back.  The token library is still a
parameter; here it is taken to follow its documentation step by step: the method and the
signature are checked before the claims, dates count where they are present, {lit}`iat` is
not looked at without its option, and the failures of the claims are joined.
-/

namespace LodelineManager
namespace Auth

open Go

/-- The content of a compact token that decodes, with the secrets it verifies under. -/
structure SignedToken where
  alg : String
  claims : RegisteredClaims
  signedWith : String -> Bool

/-- A date that is present and not later than the clock. -/
def Past (now : Int) (date : Option Int) : Prop :=
  exists t, t ∈ date ∧ t <= now

/-- A date that is present and later than the clock. -/
def Ahead (now : Int) (date : Option Int) : Prop :=
  exists t, t ∈ date ∧ now < t

instance decidablePast (now : Int) (date : Option Int) : Decidable (Past now date) :=
  inferInstanceAs (Decidable (exists t, t ∈ date ∧ t <= now))

instance decidableAhead (now : Int) (date : Option Int) : Decidable (Ahead now date) :=
  inferInstanceAs (Decidable (exists t, t ∈ date ∧ now < t))

@[simp]
theorem past_some (now t : Int) : Past now (some t) <-> t <= now := by
  simp [Past]

@[simp]
theorem ahead_some (now t : Int) : Ahead now (some t) <-> now < t := by
  simp [Ahead]

@[simp]
theorem not_past_none (now : Int) : ¬ Past now none := by
  simp [Past]

@[simp]
theorem not_ahead_none (now : Int) : ¬ Ahead now none := by
  simp [Ahead]

theorem not_past_of_ahead {now : Int} {date : Option Int} (h : Ahead now date) :
    ¬ Past now date := by
  cases date with
  | none => exact not_past_none now
  | some t =>
      rw [past_some]
      exact Int.not_le.mpr ((ahead_some now t).mp h)

theorem ahead_iff_of_not_past {now : Int} {date : Option Int} (h : ¬ Past now date) :
    Ahead now date <-> date ≠ none := by
  cases date with
  | none => simp
  | some t =>
      rw [past_some] at h
      simp [Int.not_le.mp h]

/-!
## The library
-/

inductive ClaimFailure where
  | expired
  | notValidYet
  | invalidIssuer
  deriving DecidableEq

def claimFailures (issuer : String) (now : Int) (claims : RegisteredClaims) :
    List ClaimFailure :=
  (if Past now claims.expiresAt then [.expired] else []) ++
    (if Ahead now claims.notBefore then [.notValidYet] else []) ++
    (if claims.issuer = issuer then [] else [.invalidIssuer])

/-- A parse of what a token decodes to, for a parser without {lit}`WithIssuedAt` and
{lit}`WithExpirationRequired`. -/
def parsed (methods : List String) (issuer : String) (now : Int) (secret : String) :
    Option SignedToken -> Except ParseError (RegisteredClaims × Bool)
  | none => .error .other
  | some token =>
      if token.alg ∉ methods then .error .other
      else if token.signedWith secret = false then .error .other
      else if claimFailures issuer now token.claims = [] then .ok (token.claims, true)
      else if .expired ∈ claimFailures issuer now token.claims then .error .tokenExpired
      else .error .other

/-- The dates of a claim set are whole seconds. -/
def WholeSeconds (claims : RegisteredClaims) : Prop :=
  forall t, t ∈ claims.issuedAt ∨ t ∈ claims.notBefore ∨ t ∈ claims.expiresAt -> t % second = 0

/-- The library reads tokens as {lit}`read` decodes them. -/
structure Jwt.Reads (jwt : Jwt) (read : String -> Option SignedToken) : Prop where
  truncates : forall t, jwt.newNumericDate t = t / second * second
  parses : forall methods issuer now secret token,
    jwt.parseWithClaims methods issuer now secret token =
      parsed methods issuer now secret (read token)
  /-- The empty string has no three parts. -/
  malformed : read "" = none
  /-- A token is signed under its secret and carries its claims. -/
  signs : forall claims secret token, WholeSeconds claims ->
    jwt.signedString claims secret = .ok token ->
      exists signed, read token = some signed ∧ signed.alg = signingMethod ∧
        signed.claims = claims ∧ signed.signedWith secret = true

/-!
## Verify
-/

def verify (jwt : Jwt) (s : Signer) (now : Int) (token : String) : Except AuthError String :=
  (verifyWithExp jwt s now token).map Prod.fst

def authentic (secret : String) (token : Option SignedToken) : Option RegisteredClaims :=
  token.bind (fun tok =>
    if tok.alg = signingMethod ∧ tok.signedWith secret = true then some tok.claims else none)

def verdict (now : Int) (claims : RegisteredClaims) : Except AuthError (String × Int) :=
  if Past now claims.expiresAt then .error .expiredToken
  else if claims.issuer = defaultIssuer ∧ claims.subject ≠ "" ∧ ¬ Ahead now claims.notBefore then
    .ok (claims.subject, claims.expiresAt.getD zeroTime)
  else .error .invalidToken

theorem claimFailures_nil (issuer : String) (now : Int) (claims : RegisteredClaims) :
    claimFailures issuer now claims = [] <->
      ¬ Past now claims.expiresAt ∧ ¬ Ahead now claims.notBefore ∧ claims.issuer = issuer := by
  unfold claimFailures
  split <;> split <;> split <;> simp_all

theorem expired_mem_claimFailures (issuer : String) (now : Int) (claims : RegisteredClaims) :
    .expired ∈ claimFailures issuer now claims <-> Past now claims.expiresAt := by
  unfold claimFailures
  split <;> split <;> split <;> simp_all

/-- The parse that {lit}`VerifyWithExp` asks for. -/
theorem parsed_authentic (now : Int) (secret : String) (token : Option SignedToken) :
    parsed [signingMethod] defaultIssuer now secret token =
      match authentic secret token with
      | none => .error .other
      | some claims =>
          if Past now claims.expiresAt then .error .tokenExpired
          else if ¬ Ahead now claims.notBefore ∧ claims.issuer = defaultIssuer then
            .ok (claims, true)
          else .error .other := by
  cases token with
  | none => rfl
  | some tok =>
      unfold parsed authentic
      simp only [claimFailures_nil, expired_mem_claimFailures, List.mem_singleton,
        Option.bind_some]
      by_cases halg : tok.alg = signingMethod
      · cases hsigned : tok.signedWith secret with
        | false => simp
        | true =>
            by_cases hpast : Past now tok.claims.expiresAt
            · simp [halg, hpast]
            · simp [halg, hpast]
      · simp [halg]

theorem verifyWithExp_verdict {jwt : Jwt} {read : String -> Option SignedToken}
    (hjwt : jwt.Reads read) (s : Signer) (now : Int) (token : String) :
    verifyWithExp jwt s now token =
      match authentic s.secret (read token) with
      | none => .error .invalidToken
      | some claims => verdict now claims := by
  unfold verifyWithExp
  by_cases hempty : token = ""
  · rw [if_pos hempty, hempty, hjwt.malformed]
    rfl
  · rw [if_neg hempty, hjwt.parses, parsed_authentic]
    cases authentic s.secret (read token) with
    | none => rfl
    | some claims =>
        unfold verdict
        by_cases hpast : Past now claims.expiresAt
        · simp [hpast]
        · by_cases hahead : Ahead now claims.notBefore
          · simp [hpast, hahead]
          · by_cases hissuer : claims.issuer = defaultIssuer
            · by_cases hsubject : claims.subject = ""
              · simp [hpast, hahead, hissuer, hsubject]
              · simp [hpast, hahead, hissuer, hsubject]
            · simp [hpast, hahead, hissuer]

def tableRead (secret : String) (table : List (String × RegisteredClaims)) (token : String) :
    Option SignedToken :=
  (table.lookup token).map (fun claims =>
    { alg := signingMethod, claims := claims, signedWith := fun key => decide (key = secret) })

def tableJwt (secret : String) (table : List (String × RegisteredClaims)) : Jwt where
  newNumericDate t := t / second * second
  signedString claims key :=
    match table.find? (fun entry => decide (entry.2 = claims)) with
    | none => .error "unknown claims"
    | some entry => if key = secret then .ok entry.1 else .error "unknown key"
  parseWithClaims methods issuer now key token :=
    parsed methods issuer now key (tableRead secret table token)

theorem tableJwt_reads {secret : String} {table : List (String × RegisteredClaims)}
    (hempty : table.lookup "" = none)
    (hnames : forall entry, entry ∈ table -> table.lookup entry.1 = some entry.2) :
    (tableJwt secret table).Reads (tableRead secret table) where
  truncates := fun _ => rfl
  parses := fun _ _ _ _ _ => rfl
  malformed := by
    unfold tableRead
    rw [hempty]
    rfl
  signs := by
    intro claims key token _ hsigned
    simp only [tableJwt] at hsigned
    split at hsigned
    · cases hsigned
    · rename_i entry hentry
      split at hsigned
      · rename_i hkey
        cases hsigned
        have hclaims : entry.2 = claims := by
          simpa using List.find?_some hentry
        refine ⟨_, congrArg (Option.map _) (hnames entry (List.mem_of_find?_eq_some hentry)), rfl,
          hclaims, ?_⟩
        exact decide_eq_true hkey
      · cases hsigned

/-!
## The expiry of a session
-/

theorem floor_mod_second (t : Int) : t / second * second % second = 0 :=
  Int.mul_emod_left _ _

theorem sessionClaims_wholeSeconds {jwt : Jwt} {read : String -> Option SignedToken}
    (hjwt : jwt.Reads read) (subject : String) (now exp : Int) :
    WholeSeconds (sessionClaims jwt subject now exp) := by
  have hdate : forall t date, date ∈ some (jwt.newNumericDate t) -> date % second = 0 := by
    intro t date hdate
    rw [← Option.some.inj hdate, hjwt.truncates]
    exact floor_mod_second t
  intro t ht
  rcases ht with hissued | hnotBefore | hexpires
  · exact hdate now t hissued
  · exact hdate now t hnotBefore
  · exact hdate exp t hexpires

theorem verifyWithExp_session {jwt : Jwt} {read : String -> Option SignedToken}
    (hjwt : jwt.Reads read) {s : Signer} {now deadline exp t : Int} {subject token : String}
    (h : signUntil jwt s now subject deadline = .ok (token, exp)) (ht : now <= t) :
    verifyWithExp jwt s t token =
      if exp / second * second <= t then .error .expiredToken
      else .ok (subject, exp / second * second) := by
  rcases signUntil_ok h with ⟨_, _, hsubject, hsigned⟩
  rcases hjwt.signs _ _ _ (sessionClaims_wholeSeconds hjwt subject now exp) hsigned with
    ⟨tok, hread, halg, hclaims, hkey⟩
  have hauthentic : authentic s.secret (read token) = some (sessionClaims jwt subject now exp) := by
    unfold authentic
    rw [hread, Option.bind_some, if_pos ⟨halg, hkey⟩, hclaims]
  have hstarted : ¬ Ahead t (some (jwt.newNumericDate now)) := by
    rw [ahead_some, hjwt.truncates]
    exact Int.not_lt.mpr (Int.le_trans (second_floor_le now) ht)
  rw [verifyWithExp_verdict hjwt, hauthentic]
  simp [verdict, sessionClaims, hjwt.truncates exp, hstarted, hsubject]

/-- A session is accepted with its expiry until then exactly when it ends on a whole
second. -/
theorem session_agrees_iff {jwt : Jwt} {read : String -> Option SignedToken}
    (hjwt : jwt.Reads read) {s : Signer} {now deadline exp : Int} {subject token : String}
    (h : signUntil jwt s now subject deadline = .ok (token, exp)) :
    (forall t, now <= t -> t < exp -> verifyWithExp jwt s t token = .ok (subject, exp)) <->
      sessionEnd s.ttl deadline now % second = 0 := by
  rcases signUntil_ok h with ⟨hend, hafter, _, _⟩
  rw [← hend]
  constructor
  · intro hagrees
    -- the answer at the moment of signing names the expiry that was cut
    have hnow := hagrees now (Int.le_refl now) hafter
    rw [verifyWithExp_session hjwt h (Int.le_refl now)] at hnow
    split at hnow
    · cases hnow
    · have hexp : exp / second * second = exp := congrArg Prod.snd (Except.ok.inj hnow)
      rw [← hexp]
      exact floor_mod_second exp
  · intro hwhole t ht hbefore
    have hexp : exp / second * second = exp := Int.ediv_mul_cancel (Int.dvd_of_emod_eq_zero hwhole)
    rw [verifyWithExp_session hjwt h ht, hexp, if_neg (Int.not_le.mpr hbefore)]

def halfDaySigner : Signer where
  secret := "01234567890123456789012345678901"
  ttl := 720 * minute
  longSecret := by decide
  positive := by decide

def halfDaySessions : List (String × RegisteredClaims) :=
  let session exp : RegisteredClaims :=
    { issuer := defaultIssuer, subject := "admin", issuedAt := some 0, notBefore := some 0
      expiresAt := some exp }
  [("long", session (720 * minute)), ("short", session 0)]

def halfDayJwt : Jwt := tableJwt halfDaySigner.secret halfDaySessions

theorem halfDayJwt_reads :
    halfDayJwt.Reads (tableRead halfDaySigner.secret halfDaySessions) :=
  tableJwt_reads (by decide) (by decide)

/-- A session from the hour on ends on a whole second, and is read back the same to its
last nanosecond. -/
theorem session_agrees_iff_whole :
    verifyWithExp halfDayJwt halfDaySigner (720 * minute - 1) "long" =
      .ok ("admin", 720 * minute) :=
  (@session_agrees_iff halfDayJwt _ halfDayJwt_reads halfDaySigner 0 zeroTime _ "admin" "long"
    rfl).mpr (by decide) _ (by decide) (by decide)

/-- Half a second past the hour, the login's expiry is not the one that is read back, the
session is over before it, and with a deadline within the second it is over at once. -/
theorem session_ends_early :
    signUntil halfDayJwt halfDaySigner (500 * millisecond) "admin" zeroTime =
        .ok ("long", 720 * minute + 500 * millisecond) ∧
      verifyWithExp halfDayJwt halfDaySigner (500 * millisecond) "long" =
        .ok ("admin", 720 * minute) ∧
      verifyWithExp halfDayJwt halfDaySigner (720 * minute + 200 * millisecond) "long" =
        .error .expiredToken ∧
      signUntil halfDayJwt halfDaySigner (500 * millisecond) "admin" (900 * millisecond) =
        .ok ("short", 900 * millisecond) ∧
      verifyWithExp halfDayJwt halfDaySigner (500 * millisecond) "short" =
        .error .expiredToken := by
  refine ⟨?_, ?_, ?_, ?_, ?_⟩ <;> decide +kernel

/-!
## The contract of Verify
-/

/-- What the contract asks of the claims beside their expiry. -/
structure Sound (now : Int) (claims : RegisteredClaims) : Prop where
  issuer : claims.issuer = defaultIssuer
  subject : claims.subject ≠ ""
  notBefore : ¬ Ahead now claims.notBefore
  issuedAt : ¬ Ahead now claims.issuedAt

/-- The contract of {lit}`Verify` for the outcome at a clock reading. -/
structure MeetsContract (secret : String) (now : Int) (token : Option SignedToken)
    (outcome : Except AuthError String) : Prop where
  succeeds : forall subject, outcome = .ok subject <->
    exists claims, authentic secret token = some claims ∧ Sound now claims ∧
      Ahead now claims.expiresAt ∧ claims.subject = subject
  expires : outcome = .error .expiredToken <->
    exists claims, authentic secret token = some claims ∧ Sound now claims ∧
      Past now claims.expiresAt
  rejects : (forall subject, outcome ≠ .ok subject) -> outcome ≠ .error .expiredToken ->
    outcome = .error .invalidToken

/-- Where {lit}`Verify` and the contract come to the same. -/
structure Conforms (now : Int) (claims : RegisteredClaims) : Prop where
  /-- A token that has expired has no other defect. -/
  expired : Past now claims.expiresAt -> Sound now claims
  /-- One that has not, and is accepted, has an expiry and was issued before. -/
  current : ¬ Past now claims.expiresAt -> claims.issuer = defaultIssuer -> claims.subject ≠ "" ->
    ¬ Ahead now claims.notBefore -> claims.expiresAt ≠ none ∧ ¬ Ahead now claims.issuedAt

theorem meetsContract_none {secret : String} {now : Int} {token : Option SignedToken}
    (h : authentic secret token = none) :
    MeetsContract secret now token (.error .invalidToken) where
  succeeds := fun _ => by simp [h]
  expires := by simp [h]
  rejects := fun _ _ => rfl

theorem meetsContract_expired {secret : String} {now : Int} {token : Option SignedToken}
    {claims : RegisteredClaims} (h : authentic secret token = some claims)
    (hpast : Past now claims.expiresAt) :
    MeetsContract secret now token (.error .expiredToken) <-> Sound now claims := by
  constructor
  · intro hmeets
    rcases hmeets.expires.mp rfl with ⟨claims', hclaims, hsound, _⟩
    rw [h] at hclaims
    cases hclaims
    exact hsound
  · intro hsound
    constructor
    · intro subject
      simp only [h, Option.some.injEq, reduceCtorEq, false_iff]
      rintro ⟨_, rfl, _, hahead, _⟩
      exact not_past_of_ahead hahead hpast
    · exact ⟨fun _ => ⟨claims, h, hsound, hpast⟩, fun _ => rfl⟩
    · exact fun _ hexpired => absurd rfl hexpired

theorem meetsContract_ok {secret : String} {now : Int} {token : Option SignedToken}
    {claims : RegisteredClaims} (h : authentic secret token = some claims)
    (hpast : ¬ Past now claims.expiresAt) (hissuer : claims.issuer = defaultIssuer)
    (hsubject : claims.subject ≠ "") (hstarted : ¬ Ahead now claims.notBefore) :
    MeetsContract secret now token (.ok claims.subject) <->
      claims.expiresAt ≠ none ∧ ¬ Ahead now claims.issuedAt := by
  constructor
  · intro hmeets
    rcases (hmeets.succeeds claims.subject).mp rfl with ⟨claims', hclaims, hsound, hahead, _⟩
    rw [h] at hclaims
    cases hclaims
    exact ⟨(ahead_iff_of_not_past hpast).mp hahead, hsound.issuedAt⟩
  · rintro ⟨hexpires, hissued⟩
    have hsound : Sound now claims := ⟨hissuer, hsubject, hstarted, hissued⟩
    have hahead := (ahead_iff_of_not_past hpast).mpr hexpires
    constructor
    · intro subject
      simp [h, hsound, hahead]
    · simp [h, hpast]
    · exact fun hother _ => absurd rfl (hother claims.subject)

theorem meetsContract_invalid {secret : String} {now : Int} {token : Option SignedToken}
    {claims : RegisteredClaims} (h : authentic secret token = some claims)
    (hpast : ¬ Past now claims.expiresAt)
    (hdefect : ¬ (claims.issuer = defaultIssuer ∧ claims.subject ≠ "" ∧
      ¬ Ahead now claims.notBefore)) :
    MeetsContract secret now token (.error .invalidToken) where
  succeeds := by
    intro subject
    simp only [h, Option.some.injEq, reduceCtorEq, false_iff]
    rintro ⟨_, rfl, hsound, _⟩
    exact hdefect ⟨hsound.issuer, hsound.subject, hsound.notBefore⟩
  expires := by simp [h, hpast]
  rejects := fun _ _ => rfl

/-- {lit}`Verify` keeps its contract on a token exactly when its claims, where it is
authentic, conform. -/
theorem verify_contract_iff {jwt : Jwt} {read : String -> Option SignedToken}
    (hjwt : jwt.Reads read) (s : Signer) (now : Int) (token : String) :
    MeetsContract s.secret now (read token) (verify jwt s now token) <->
      forall claims, authentic s.secret (read token) = some claims -> Conforms now claims := by
  unfold verify
  rw [verifyWithExp_verdict hjwt]
  cases hauthentic : authentic s.secret (read token) with
  | none =>
      constructor
      · intro _ claims hclaims
        cases hclaims
      · exact fun _ => meetsContract_none hauthentic
  | some claims =>
      simp only [Option.some.injEq, forall_eq']
      unfold verdict
      by_cases hpast : Past now claims.expiresAt
      · rw [if_pos hpast]
        constructor
        · intro hmeets
          have hsound := (meetsContract_expired hauthentic hpast).mp hmeets
          exact ⟨fun _ => hsound, fun hcurrent => absurd hpast hcurrent⟩
        · exact fun hconforms =>
            (meetsContract_expired hauthentic hpast).mpr (hconforms.expired hpast)
      · rw [if_neg hpast]
        split
        · rename_i haccepted
          rcases haccepted with ⟨hissuer, hsubject, hstarted⟩
          have hok := meetsContract_ok hauthentic hpast hissuer hsubject hstarted
          constructor
          · intro hmeets
            exact ⟨fun hexpired => absurd hexpired hpast, fun _ _ _ _ => hok.mp hmeets⟩
          · exact fun hconforms => hok.mpr (hconforms.current hpast hissuer hsubject hstarted)
        · rename_i hdefect
          constructor
          · intro _
            exact ⟨fun hexpired => absurd hexpired hpast, fun _ hissuer hsubject hstarted =>
              absurd ⟨hissuer, hsubject, hstarted⟩ hdefect⟩
          · exact fun _ => meetsContract_invalid hauthentic hpast hdefect

/-- Tokens under the secret of the signer: one without defect, one without an expiry, one
issued in the future, and one that has expired for another issuer. -/
def oddTokens : List (String × RegisteredClaims) :=
  let base : RegisteredClaims :=
    { issuer := defaultIssuer, subject := "admin", issuedAt := none, notBefore := none
      expiresAt := some minute }
  [("plain", base), ("endless", { base with expiresAt := none }),
    ("future", { base with issuedAt := some (2 * second) }),
    ("foreign", { base with issuer := "someone-else", expiresAt := some 0 })]

def oddJwt : Jwt := tableJwt halfDaySigner.secret oddTokens

theorem oddJwt_reads : oddJwt.Reads (tableRead halfDaySigner.secret oddTokens) :=
  tableJwt_reads (by decide) (by decide)

theorem verify_contract_iff_plain :
    MeetsContract halfDaySigner.secret second
      (tableRead halfDaySigner.secret oddTokens "plain")
      (verify oddJwt halfDaySigner second "plain") := by
  apply (verify_contract_iff oddJwt_reads halfDaySigner second "plain").mpr
  intro claims hclaims
  cases hclaims
  exact ⟨fun hpast => absurd hpast (by decide), fun _ _ _ _ => by decide⟩

/-- {lit}`Verify` accepts the token without an expiry and the one issued in the future, and
calls the one for another issuer expired. -/
theorem verify_breaks_contract :
    verify oddJwt halfDaySigner second "endless" = .ok "admin" ∧
      verify oddJwt halfDaySigner second "future" = .ok "admin" ∧
      verify oddJwt halfDaySigner second "foreign" = .error .expiredToken ∧
      forall token, token ∈ ["endless", "future", "foreign"] ->
        ¬ MeetsContract halfDaySigner.secret second
          (tableRead halfDaySigner.secret oddTokens token)
          (verify oddJwt halfDaySigner second token) := by
  have hendless : verify oddJwt halfDaySigner second "endless" = .ok "admin" := by decide +kernel
  have hfuture : verify oddJwt halfDaySigner second "future" = .ok "admin" := by decide +kernel
  have hforeign : verify oddJwt halfDaySigner second "foreign" = .error .expiredToken := by
    decide +kernel
  refine ⟨hendless, hfuture, hforeign, ?_⟩
  intro token htoken hmeets
  simp only [List.mem_cons, List.not_mem_nil, or_false] at htoken
  rcases htoken with rfl | rfl | rfl
  · rcases (hmeets.succeeds "admin").mp hendless with ⟨claims, hclaims, _, hahead, _⟩
    cases hclaims
    exact not_ahead_none second hahead
  · rcases (hmeets.succeeds "admin").mp hfuture with ⟨claims, hclaims, hsound, _⟩
    cases hclaims
    exact hsound.issuedAt (by decide)
  · rcases hmeets.expires.mp hforeign with ⟨claims, hclaims, hsound, _⟩
    cases hclaims
    exact absurd hsound.issuer (by decide)

end Auth
end LodelineManager
