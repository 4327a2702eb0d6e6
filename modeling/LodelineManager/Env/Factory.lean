import LodelineManager.Env.Load
import LodelineManager.Fleet.Cache

/-!
# The fleet client of a configuration

{lit}`NewFromConfig` derives the freshness windows of the cache from the poll interval.  All
of them are products of 64-bit durations, and nothing but a sign is checked.
-/

namespace LodelineManager
namespace Env

open Go Fleet

def cacheConfigFrom (c : Config) : CacheConfig :=
  { ttl := c.fleetPollInterval
    maxStale := wrap64 (12 * c.fleetPollInterval)
    maxEntries := c.fleetCacheMaxEntries }

/-- {lit}`NewFromConfig`: the tuning of the caching client, when there is one. -/
def newFromConfig (c : Config) : Option CacheConfig :=
  if c.fleetCacheDisabled then none else some (cacheConfigFrom c).withDefaults

def slowTier : List String := ["meta", "policy_meta", "event_by_id"]

def liveTier : List String := ["events", "hosts", "host_by_id", "risk", "compliance"]

/-- The windows that the cache was designed for. -/
structure Windows (cfg : CacheConfig) : Prop where
  window : forall endpoint, 0 < (cfg.policyFor endpoint).ttl ∧
    (cfg.policyFor endpoint).ttl < (cfg.policyFor endpoint).maxStale ∧
    (cfg.policyFor endpoint).maxStale = 12 * (cfg.policyFor endpoint).ttl
  tiers : forall slow live, slow ∈ slowTier -> live ∈ liveTier ->
    (cfg.policyFor slow).ttl = 12 * (cfg.policyFor live).ttl ∧
    (cfg.policyFor slow).maxStale = 12 * (cfg.policyFor live).maxStale

/-- The durations are the products as integers. -/
structure Exact (c : Config) (ttlHours pollSeconds : Int) : Prop where
  session : c.jwtTTL = ttlHours * hour
  poll : c.fleetPollInterval = pollSeconds * second
  windows : forall cfg, newFromConfig c = some cfg -> Windows cfg

/-- Positive numbers whose products fit into 64 bits; the slow tier multiplies the poll
interval by 144. -/
structure Fits (cacheDisabled : Bool) (ttlHours pollSeconds : Int) : Prop where
  hours : 0 < ttlHours ∧ ttlHours * hour < 2 ^ 63
  seconds : 0 < pollSeconds ∧ pollSeconds * second < 2 ^ 63
  stale : cacheDisabled = false -> 144 * (pollSeconds * second) < 2 ^ 63

/-!
## The policies
-/

section

variable (cfg : CacheConfig)

def livePolicy : CachePolicy := { ttl := cfg.ttl, maxStale := cfg.maxStale }

def slowPolicy : CachePolicy :=
  { ttl := wrap64 (slowTierMultiplier * cfg.ttl)
    maxStale := wrap64 (slowTierMultiplier * cfg.maxStale) }

theorem policyFor_slow {endpoint : String} (h : endpoint ∈ slowTier) :
    cfg.policyFor endpoint = slowPolicy cfg := by
  simp only [slowTier, List.mem_cons, List.not_mem_nil, or_false] at h
  rcases h with rfl | rfl | rfl <;> rfl

theorem policyFor_live {endpoint : String} (h : endpoint ∈ liveTier) :
    cfg.policyFor endpoint = livePolicy cfg := by
  simp only [liveTier, List.mem_cons, List.not_mem_nil, or_false] at h
  rcases h with rfl | rfl | rfl | rfl | rfl <;> rfl

theorem policyFor_cases (endpoint : String) :
    cfg.policyFor endpoint = slowPolicy cfg ∨ cfg.policyFor endpoint = livePolicy cfg := by
  unfold CacheConfig.policyFor
  show ((buildPolicies (livePolicy cfg)).lookup endpoint).getD (livePolicy cfg) = _ ∨
    ((buildPolicies (livePolicy cfg)).lookup endpoint).getD (livePolicy cfg) = _
  cases hfound : (buildPolicies (livePolicy cfg)).lookup endpoint with
  | none => exact Or.inr rfl
  | some policy =>
      rcases List.lookup_eq_some_iff.mp hfound with ⟨front, back, hsplit, _⟩
      have hmem : (endpoint, policy) ∈ buildPolicies (livePolicy cfg) := by
        rw [hsplit]
        exact List.mem_append_right front List.mem_cons_self
      have hvalue := List.mem_map_of_mem (f := Prod.snd) hmem
      simp only [buildPolicies, List.map_cons, List.map_nil, List.mem_cons, List.not_mem_nil,
        or_false, or_self] at hvalue
      rw [Option.getD_some]
      rcases hvalue with hslow | hslow | hslow | hlive
      · exact Or.inl hslow
      · exact Or.inl hslow
      · exact Or.inl hslow
      · exact Or.inr hlive

end

theorem windows_of_fits {c : Config} (hpos : 0 < c.fleetPollInterval)
    (hfits : 144 * c.fleetPollInterval < 2 ^ 63) : Windows (cacheConfigFrom c).withDefaults := by
  have hstale : wrap64 (12 * c.fleetPollInterval) = 12 * c.fleetPollInterval :=
    wrap64_of_range (by omega) (by omega)
  have hslow : wrap64 (12 * (12 * c.fleetPollInterval)) = 12 * (12 * c.fleetPollInterval) :=
    wrap64_of_range (by omega) (by omega)
  have httl : (cacheConfigFrom c).withDefaults.ttl = c.fleetPollInterval :=
    if_neg (Int.not_le.mpr hpos)
  have hmax : (cacheConfigFrom c).withDefaults.maxStale = 12 * c.fleetPollInterval := by
    show (if wrap64 (12 * c.fleetPollInterval) <= 0 then 60 * second
      else wrap64 (12 * c.fleetPollInterval)) = _
    rw [hstale, if_neg (by omega)]
  have hlivePolicy : livePolicy (cacheConfigFrom c).withDefaults =
      { ttl := c.fleetPollInterval, maxStale := 12 * c.fleetPollInterval } := by
    unfold livePolicy
    rw [httl, hmax]
  have hslowPolicy : slowPolicy (cacheConfigFrom c).withDefaults =
      { ttl := 12 * c.fleetPollInterval, maxStale := 12 * (12 * c.fleetPollInterval) } := by
    unfold slowPolicy slowTierMultiplier
    rw [httl, hmax, hstale, hslow]
  constructor
  · intro endpoint
    rcases policyFor_cases (cacheConfigFrom c).withDefaults endpoint with h | h
    · rw [h, hslowPolicy]
      simp only [and_true]
      omega
    · rw [h, hlivePolicy]
      simp only [and_true]
      omega
  · intro slow live hin hin'
    rw [policyFor_slow _ hin, policyFor_live _ hin', hslowPolicy, hlivePolicy]
    exact ⟨rfl, rfl⟩

theorem fits_of_windows {c : Config} (hpos : 0 < c.fleetPollInterval)
    (h : Windows (cacheConfigFrom c).withDefaults) : 144 * c.fleetPollInterval < 2 ^ 63 := by
  have hlive : "events" ∈ liveTier := List.mem_cons_self
  have hslow : "meta" ∈ slowTier := List.mem_cons_self
  have httl : (cacheConfigFrom c).withDefaults.ttl = c.fleetPollInterval :=
    if_neg (Int.not_le.mpr hpos)
  have hwindow := (h.window "events").right.right
  have htiers := (h.tiers "meta" "events" hslow hlive).right
  rw [policyFor_live _ hlive] at hwindow htiers
  rw [policyFor_slow _ hslow] at htiers
  have hlt := wrap64_lt (slowTierMultiplier * (cacheConfigFrom c).withDefaults.maxStale)
  change (cacheConfigFrom c).withDefaults.maxStale =
    12 * (cacheConfigFrom c).withDefaults.ttl at hwindow
  change wrap64 (slowTierMultiplier * (cacheConfigFrom c).withDefaults.maxStale) =
    12 * (cacheConfigFrom c).withDefaults.maxStale at htiers
  rw [httl] at hwindow
  omega

theorem windows_iff_fits {c : Config} (hpos : 0 < c.fleetPollInterval) :
    (forall cfg, newFromConfig c = some cfg -> Windows cfg) <->
      (c.fleetCacheDisabled = false -> 144 * c.fleetPollInterval < 2 ^ 63) := by
  unfold newFromConfig
  cases c.fleetCacheDisabled with
  | true =>
      apply iff_of_true
      · intro cfg hcfg
        cases hcfg
      · intro hdisabled
        cases hdisabled
  | false =>
      constructor
      · intro hwindows _
        exact fits_of_windows hpos (hwindows _ rfl)
      · intro hfits cfg hcfg
        cases hcfg
        exact windows_of_fits hpos (hfits rfl)

/-- For an accepted environment the durations are what was asked for exactly when nothing
wraps on the way. -/
theorem durations_exact_iff {p : Process} {c : Config} (h : load p = .ok c) :
    exists ttlHours pollSeconds,
      intDefault p "JWT_TTL_HOURS" 12 = .ok ttlHours ∧
      intDefault p "FLEET_POLL_INTERVAL_SECONDS" 5 = .ok pollSeconds ∧
      (Exact c ttlHours pollSeconds <->
        Fits (isOne p "FLEET_CACHE_DISABLED") ttlHours pollSeconds) := by
  rcases load_ok h with ⟨ttlHours, pollSeconds, httl, hpoll, hsession, hinterval, hdisabled, hvalid⟩
  rcases Config.validate_ok hvalid with ⟨_, _, _, hsessionPos, hintervalPos⟩
  refine ⟨ttlHours, pollSeconds, httl, hpoll, ?_⟩
  have hhour : hour = 3600000000000 := by decide
  have hsecond : second = 1000000000 := by decide
  rw [hhour] at hsession
  rw [hsecond] at hinterval
  have hcache := windows_iff_fits hintervalPos
  rw [hdisabled] at hcache
  constructor
  · rintro ⟨hexact, hpollExact, hwindows⟩
    rw [hhour] at hexact
    rw [hsecond] at hpollExact
    have hfitsHours := eq_of_wrap64 (hsession.symm.trans hexact)
    have hfitsPoll := eq_of_wrap64 (hinterval.symm.trans hpollExact)
    constructor
    · rw [hhour]
      omega
    · rw [hsecond]
      omega
    · intro henabled
      have hfits := hcache.mp hwindows henabled
      rw [hsecond]
      omega
  · rintro ⟨hhours, hseconds, hstale⟩
    rw [hhour] at hhours
    rw [hsecond] at hseconds hstale
    have hpollExact : c.fleetPollInterval = pollSeconds * 1000000000 :=
      hinterval.trans (wrap64_of_range (by omega) hseconds.right)
    constructor
    · rw [hhour]
      exact hsession.trans (wrap64_of_range (by omega) hhours.right)
    · rw [hsecond]
      exact hpollExact
    · apply hcache.mpr
      intro henabled
      have hfits := hstale henabled
      omega

def sampleProcess (hours seconds : String) : Process :=
  { getenv := fun key => bytesOf (([("MOCK_FLEET", "1"), ("ADMIN_USERNAME", "admin"),
      ("ADMIN_PASSWORD_BCRYPT", "$2a$10$abcdefghijklmnopqrstuvABCDEFGHIJKLMNOPQRSTUVWXYZ01234"),
      ("JWT_SECRET", "0123456789abcdef0123456789abcdef"), ("JWT_TTL_HOURS", hours),
      ("FLEET_POLL_INTERVAL_SECONDS", seconds)].lookup key).getD "")
    unmarshalStrings := fun _ => none
    parseURL := fun _ => none
    readFile := fun _ => none
    certsFromPEM := fun _ => false
    loadKeyPair := fun _ _ => false }

def sampleConfig (hours seconds : String) (ttlHours pollSeconds : Int) : Config :=
  configOf (sampleProcess hours seconds) (oidcSettings (sampleProcess hours seconds) []) none
    ttlHours pollSeconds 512

theorem durations_exact_twelve :
    exists ttlHours pollSeconds,
      intDefault (sampleProcess "12" "5") "JWT_TTL_HOURS" 12 = .ok ttlHours ∧
      intDefault (sampleProcess "12" "5") "FLEET_POLL_INTERVAL_SECONDS" 5 = .ok pollSeconds ∧
      (Exact (sampleConfig "12" "5" 12 5) ttlHours pollSeconds <->
        Fits (isOne (sampleProcess "12" "5") "FLEET_CACHE_DISABLED") ttlHours pollSeconds) :=
  durations_exact_iff rfl

/-- 5124096 hours wrap to 25 minutes and a half, and 100000000 seconds leave the slow tier
with a window that ends before it begins. -/
theorem not_durations_exact :
    (load (sampleProcess "5124096" "5") = .ok (sampleConfig "5124096" "5" 5124096 5) ∧
      (sampleConfig "5124096" "5" 5124096 5).jwtTTL = 1526290448384) ∧
    (exists cfg, load (sampleProcess "12" "100000000") =
        .ok (sampleConfig "12" "100000000" 12 100000000) ∧
      newFromConfig (sampleConfig "12" "100000000" 12 100000000) = some cfg ∧
      (cfg.policyFor "meta").maxStale < (cfg.policyFor "meta").ttl) ∧
    ¬ forall p c ttlHours pollSeconds, load p = .ok c ->
      intDefault p "JWT_TTL_HOURS" 12 = .ok ttlHours ->
      intDefault p "FLEET_POLL_INTERVAL_SECONDS" 5 = .ok pollSeconds ->
      Exact c ttlHours pollSeconds := by
  refine ⟨⟨rfl, by decide⟩, ⟨_, rfl, rfl, by decide⟩, ?_⟩
  intro h
  have hsession := (h (sampleProcess "5124096" "5") _ 5124096 5 rfl rfl rfl).session
  exact absurd hsession (by decide)

end Env
end LodelineManager
