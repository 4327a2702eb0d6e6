import LodelineManager.Fleet.Timeouts

/-!
# What the texts of errors decide

Redaction takes the texts out of an error and leaves what {lit}`errors.Is`,
{lit}`errors.As` and the {lit}`Timeout` methods answer to the questions the package asks.
The cache and the retry loop commute with it, so the texts decide nothing there.
-/

namespace LodelineManager
namespace Fleet

open Foundation

variable {value : Type}

def Sentinel.known (s : Sentinel) : Bool :=
  decide (s ∈ [.canceled, .deadlineExceeded, errNotFound, errReadAPIDisabled, errUnauthorized,
    errServiceUnavailable])

namespace GoErr

def redact : GoErr -> GoErr
  | sentinel s => if s.known then sentinel s else foreign "" [] none
  | wrap _ cause => wrap "" cause.redact
  | url _ _ cause => url "" "" cause.redact
  | serviceUnavailable retryAfter => serviceUnavailable retryAfter
  | api status code _ => api status code ""
  | foreign _ matching timeout => foreign "" (matching.filter Sentinel.known) timeout

def plain : GoErr := foreign "" [] none

/-- {lit}`errors.As(err, &apiErr)`: the {lit}`Code` of an {lit}`*APIError`. -/
def asAPIError : GoErr -> Option String
  | api _ code _ => some code
  | wrap _ cause => cause.asAPIError
  | url _ _ cause => cause.asAPIError
  | _ => none

theorem is_redact {target : Sentinel} (h : target.known = true) (err : GoErr) :
    err.redact.is target = err.is target := by
  induction err with
  | sentinel s =>
      cases hs : s.known with
      | true => simp only [redact, hs, if_true]
      | false =>
          have hne : s ≠ target := by
            intro heq
            rw [heq, h] at hs
            cases hs
          simp only [redact, hs, Bool.false_eq_true, if_false, is, List.not_mem_nil,
            decide_false, hne]
  | wrap context cause ih => exact ih
  | url op addr cause ih => exact ih
  | serviceUnavailable retryAfter => rfl
  | api status code message => rfl
  | foreign text matching timeout => simp only [redact, is, List.mem_filter, h, and_true]

theorem timeout_redact (err : GoErr) : err.redact.timeout? = err.timeout? := by
  induction err with
  | sentinel s =>
      cases s with
      | canceled => rfl
      | deadlineExceeded => rfl
      | var text =>
          cases hs : (Sentinel.var text).known with
          | true => simp only [redact, hs, if_true]
          | false => simp only [redact, hs, Bool.false_eq_true, if_false, timeout?]
  | wrap context cause ih => rfl
  | url op addr cause ih => simp only [redact, timeout?, ih]
  | serviceUnavailable retryAfter => rfl
  | api status code message => rfl
  | foreign text matching timeout => rfl

theorem asNetError_redact (err : GoErr) : err.redact.asNetError = err.asNetError := by
  induction err with
  | wrap context cause ih => exact ih
  | sentinel s =>
      have h := timeout_redact (sentinel s)
      cases hs : s.known with
      | true => simp only [redact, hs, if_true]
      | false =>
          simp only [redact, hs, Bool.false_eq_true, if_false] at h ⊢
          exact h
  | url op addr cause ih => exact timeout_redact (url op addr cause)
  | serviceUnavailable retryAfter => rfl
  | api status code message => rfl
  | foreign text matching timeout => rfl

theorem asServiceUnavailable_redact (err : GoErr) :
    err.redact.asServiceUnavailable = err.asServiceUnavailable := by
  induction err with
  | wrap context cause ih => exact ih
  | url op addr cause ih => exact ih
  | sentinel s => cases hs : s.known <;> simp only [redact, hs] <;> rfl
  | serviceUnavailable retryAfter => rfl
  | api status code message => rfl
  | foreign text matching timeout => rfl

theorem asAPIError_redact (err : GoErr) : err.redact.asAPIError = err.asAPIError := by
  induction err with
  | wrap context cause ih => exact ih
  | url op addr cause ih => exact ih
  | sentinel s => cases hs : s.known <;> simp only [redact, hs] <;> rfl
  | serviceUnavailable retryAfter => rfl
  | api status code message => rfl
  | foreign text matching timeout => rfl

end GoErr

theorem isRetryable_redact (err : GoErr) : isRetryable err.redact = isRetryable err := by
  unfold isRetryable
  rw [GoErr.is_redact (by decide), GoErr.is_redact (by decide), GoErr.is_redact (by decide),
    GoErr.asNetError_redact]

theorem isRetryable_congr {err err' : GoErr} (h : err.redact = err'.redact) :
    isRetryable err = isRetryable err' := by
  rw [← isRetryable_redact, h, isRetryable_redact]

def redactResult (r : Except GoErr value) : Except GoErr value := r.mapError GoErr.redact

/-!
## The retry loop
-/

theorem backoffFor_redact (p : RetryPolicy) (attempt : Nat) (err : GoErr) (jitter : Int) :
    p.backoffFor attempt err.redact jitter = p.backoffFor attempt err jitter := by
  unfold RetryPolicy.backoffFor
  rw [GoErr.asServiceUnavailable_redact]

/-- Two worlds that differ in the texts of errors only. -/
structure WorldsAlike (w w' : RetryWorld value) : Prop where
  fn : forall n, redactResult (w.fn n) = redactResult (w'.fn n)
  jitter : w.jitter = w'.jitter
  sleepFor : w.sleepFor = w'.sleepFor

theorem redactResult_cases {r r' : Except GoErr value} (h : redactResult r = redactResult r') :
    (exists v, r = .ok v ∧ r' = .ok v) ∨
      exists err err', r = .error err ∧ r' = .error err' ∧ err.redact = err'.redact := by
  cases r with
  | ok v =>
      cases r' with
      | ok v' =>
          injection h with hv
          exact Or.inl ⟨v, rfl, by rw [hv]⟩
      | error err' => cases h
  | error err =>
      cases r' with
      | ok v' => cases h
      | error err' =>
          injection h with herr
          exact Or.inr ⟨err, err', rfl, rfl, herr⟩

theorem doFrom_alike {p : RetryPolicy} {w w' : RetryWorld value} (h : WorldsAlike w w')
    (remaining attempt : Nat) {lastErr lastErr' : GoErr}
    (hlast : lastErr.redact = lastErr'.redact) :
    redactResult (doFrom p w remaining attempt lastErr).1 =
      redactResult (doFrom p w' remaining attempt lastErr').1 := by
  induction remaining generalizing attempt lastErr lastErr' with
  | zero => exact congrArg Except.error hlast
  | succ remaining ih =>
      rcases redactResult_cases (h.fn attempt) with ⟨v, hv, hv'⟩ | ⟨err, err', herr, herr', hsame⟩
      · simp only [doFrom, hv, hv']
      · have hbackoff : p.backoffFor attempt err (w.jitter attempt) =
            p.backoffFor attempt err' (w'.jitter attempt) := by
          rw [← backoffFor_redact, hsame, backoffFor_redact, h.jitter]
        simp only [doFrom, herr, herr', isRetryable_congr hsame, hbackoff, h.sleepFor]
        split
        · exact congrArg Except.error hsame
        · cases w'.sleepFor attempt (p.backoffFor attempt err' (w'.jitter attempt)) with
          | some ctxErr => rfl
          | none => exact ih (attempt + 1) hsame

theorem doRetry_alike (p : RetryPolicy) {w w' : RetryWorld value} (h : WorldsAlike w w') :
    redactResult (doRetry p w).1 = redactResult (doRetry p w').1 :=
  doFrom_alike h _ _ rfl

/-!
## The cache
-/

def FetchPhase.redact : FetchPhase value -> FetchPhase value
  | .running => .running
  | .answered r => .answered (redactResult r)
  | .stored v => .stored v
  | .done r => .done (redactResult r)

def Fetch.redact (c : Fetch value) : Fetch value := { c with phase := c.phase.redact }

def CallPhase.redact : CallPhase value -> CallPhase value
  | .returned r => .returned { r with result := redactResult r.result }
  | phase => phase

def Thread.redact : Thread value -> Thread value
  | .call endpoint suffix phase => .call endpoint suffix phase.redact
  | .refresh key phase => .refresh key phase

def Sys.redact (s : Sys value) : Sys value :=
  { s with fetches := Option.map Fetch.redact ∘ s.fetches
           threads := Option.map Thread.redact ∘ s.threads }

def Label.redact : Label value -> Label value
  | .answer f r => .answer f (redactResult r)
  | l => l

namespace Sys

variable (s : Sys value)

theorem redact_setThread {i : Nat} {t u : Thread value} (h : t.redact = u) :
    s.redact.setThread i u = (s.setThread i t).redact := by
  unfold setThread redact
  simp only [Function.comp_update, Option.map_some, h]

theorem redact_addThread {t u : Thread value} (h : t.redact = u) :
    s.redact.addThread u = (s.addThread t).redact := by
  unfold addThread redact
  simp only [Function.comp_update, Option.map_some, h]

theorem redact_setFetch {f : Nat} {c d : Fetch value} (h : c.redact = d) :
    s.redact.setFetch f d = (s.setFetch f c).redact := by
  unfold setFetch redact
  simp only [Function.comp_update, Option.map_some, h]

theorem redact_startFetch (key : String) : s.redact.startFetch key = (s.startFetch key).redact := by
  unfold startFetch redact
  simp only [Function.comp_update, Option.map_some]
  rfl

theorem redact_joinOrStart (key : String) :
    s.redact.joinOrStart key = ((s.joinOrStart key).1.redact, (s.joinOrStart key).2) := by
  have hgroup : s.redact.group key = s.group key := rfl
  unfold joinOrStart
  rw [hgroup]
  cases s.group key with
  | some f => rfl
  | none =>
      rw [redact_startFetch]
      rfl

theorem redact_forgetFetch (f : Nat) (key : String) (r : Except GoErr value) :
    s.redact.forgetFetch f key (redactResult r) = (s.forgetFetch f key r).redact := by
  unfold forgetFetch setFetch redact
  simp only [Function.comp_update, Option.map_some]
  rfl

theorem redact_storeFetch (maxEntries : Int) (f : Nat) (key : String) (v : value) :
    s.redact.storeFetch maxEntries f key v = (s.storeFetch maxEntries f key v).redact := by
  unfold storeFetch setFetch redact
  simp only [Function.comp_update, Option.map_some]
  rfl

theorem redact_enterRefresh (key : String) :
    s.redact.enterRefresh key = (s.enterRefresh key).redact := by
  unfold enterRefresh addThread redact
  simp only [Function.comp_update, Option.map_some]
  rfl

theorem redact_spawnRefresh (key : String) :
    s.redact.spawnRefresh key = (s.spawnRefresh key).redact := by
  have hguard : s.redact.refreshing key = s.refreshing key := rfl
  unfold spawnRefresh
  rw [hguard]
  split
  · rfl
  · exact redact_enterRefresh s key

theorem redact_leaveRefresh (i : Nat) (key : String) :
    s.redact.leaveRefresh i key = (s.leaveRefresh i key).redact := by
  unfold leaveRefresh redact
  simp only [Function.comp_update, Option.map_none]

theorem redact_serveOrFetch (cfg : CacheConfig) (i : Nat) (endpoint suffix : String) (now : Int)
    (entry : Option (Copied value)) :
    s.redact.serveOrFetch cfg i endpoint suffix now entry =
      (s.serveOrFetch cfg i endpoint suffix now entry).redact := by
  simp only [serveOrFetch, redact_joinOrStart]
  cases entry with
  | none => exact redact_setThread _ rfl
  | some e =>
      simp only
      cases freshness (cfg.policyFor endpoint) (ageOf now e.fetchedAt) with
      | fresh => exact redact_setThread _ rfl
      | stale =>
          simp only
          rw [← redact_spawnRefresh]
          exact congrArg (spawnRefresh · _) (redact_setThread _ rfl)
      | tooStale => exact redact_setThread _ rfl

end Sys

theorem afterDo_redact (entry : Option (Copied value)) (f : Nat) (r : Except GoErr value) :
    afterDo entry f (redactResult r) = redactResult (afterDo entry f r) := by
  cases r with
  | ok v => rfl
  | error err =>
      cases entry with
      | none => rfl
      | some e =>
          cases hretry : isRetryable err with
          | true =>
              have hredacted := (isRetryable_redact err).trans hretry
              rw [afterDo_retryable hretry]
              exact afterDo_retryable hredacted e f
          | false =>
              have hredacted := (isRetryable_redact err).trans hretry
              rw [afterDo_terminal hretry]
              exact afterDo_terminal hredacted e f

theorem threadStep_redact (cfg : CacheConfig) (s : Sys value) (i : Nat) (l : Label value)
    (t : Thread value) :
    threadStep cfg s.redact i l.redact t.redact = (threadStep cfg s i l t).map Sys.redact := by
  cases t with
  | call endpoint suffix phase =>
      cases phase with
      | started =>
          cases l with
          | readClock _ => exact congrArg some (s.redact_setThread rfl)
          | _ => rfl
      | clocked now =>
          cases l with
          | readEntry _ => exact congrArg some (s.redact_setThread rfl)
          | _ => rfl
      | copied now entry =>
          cases l with
          | act _ => exact congrArg some (s.redact_serveOrFetch cfg i endpoint suffix now entry)
          | _ => rfl
      | waiting now entry f =>
          cases l with
          | wake _ =>
              have hfetch : s.redact.fetches f = (s.fetches f).map Fetch.redact := rfl
              simp only [Label.redact, Thread.redact, CallPhase.redact, threadStep, hfetch]
              cases s.fetches f with
              | none => rfl
              | some c =>
                  rcases c with ⟨key, phase⟩
                  cases phase with
                  | done r =>
                      simp only [Option.map_some, Fetch.redact, FetchPhase.redact, afterDo_redact]
                      exact congrArg some (s.redact_setThread rfl)
                  | _ => rfl
          | _ => rfl
      | returned r => cases l <;> rfl
  | refresh key phase =>
      cases phase with
      | started =>
          cases l with
          | refreshDo _ =>
              simp only [Label.redact, Thread.redact, threadStep, Sys.redact_joinOrStart]
              exact congrArg some ((s.joinOrStart key).1.redact_setThread rfl)
          | _ => rfl
      | waiting f =>
          cases l with
          | refreshWake _ =>
              have hfetch : s.redact.fetches f = (s.fetches f).map Fetch.redact := rfl
              simp only [Label.redact, Thread.redact, threadStep, hfetch]
              cases s.fetches f with
              | none => rfl
              | some c =>
                  rcases c with ⟨key', phase⟩
                  cases phase with
                  | done r => exact congrArg some (s.redact_setThread rfl)
                  | _ => rfl
          | _ => rfl
      | ending =>
          cases l with
          | refreshDelete _ => exact congrArg some (s.redact_leaveRefresh i key)
          | _ => rfl

theorem fetchStep_redact (cfg : CacheConfig) (s : Sys value) (f : Nat) (l : Label value)
    (c : Fetch value) :
    fetchStep cfg s.redact f l.redact c.redact = (fetchStep cfg s f l c).map Sys.redact := by
  rcases c with ⟨key, phase⟩
  cases phase with
  | running =>
      cases l with
      | answer _ r => exact congrArg some (s.redact_setFetch rfl)
      | _ => rfl
  | answered r =>
      cases r with
      | ok v =>
          cases l with
          | storeFetched _ => exact congrArg some (s.redact_storeFetch cfg.maxEntries f key v)
          | _ => rfl
      | error err =>
          cases l with
          | forget _ => exact congrArg some (s.redact_forgetFetch f key (.error err))
          | _ => rfl
  | stored v =>
      cases l with
      | forget _ => exact congrArg some (s.redact_forgetFetch f key (.ok v))
      | _ => rfl
  | done r => cases l <;> rfl

theorem step_onThread (cfg : CacheConfig) (s : Sys value) {l : Label value} {i : Nat}
    (h : l.thread? = some i) :
    step cfg s l = (s.threads i).bind (threadStep cfg s i l) := by
  cases l <;> cases h <;>
  · unfold step
    simp only [Label.thread?]
    cases s.threads i <;> rfl

theorem step_onFetch (cfg : CacheConfig) (s : Sys value) {l : Label value} {f : Nat}
    (h : l.fetch? = some f) :
    step cfg s l = (s.fetches f).bind (fetchStep cfg s f l) := by
  cases l <;> cases h <;>
  · unfold step
    simp only [Label.thread?, Label.fetch?]
    cases s.fetches f <;> rfl

theorem step_redact (cfg : CacheConfig) (s : Sys value) (l : Label value) :
    step cfg s.redact l.redact = (step cfg s l).map Sys.redact := by
  have hthread : forall i, l.thread? = some i -> l.redact.thread? = some i ->
      step cfg s.redact l.redact = (step cfg s l).map Sys.redact := by
    intro i hi hi'
    have hti : s.redact.threads i = (s.threads i).map Thread.redact := rfl
    rw [step_onThread cfg _ hi', step_onThread cfg _ hi, hti]
    cases s.threads i with
    | none => rfl
    | some t => exact threadStep_redact cfg s i l t
  have hfetch : forall f, l.fetch? = some f -> l.redact.fetch? = some f ->
      step cfg s.redact l.redact = (step cfg s l).map Sys.redact := by
    intro f hf hf'
    have hcf : s.redact.fetches f = (s.fetches f).map Fetch.redact := rfl
    rw [step_onFetch cfg _ hf', step_onFetch cfg _ hf, hcf]
    cases s.fetches f with
    | none => rfl
    | some c => exact fetchStep_redact cfg s f l c
  cases l with
  | tick clock =>
      show (if s.clock <= clock then _ else none) = (if s.clock <= clock then _ else none).map _
      split
      · rfl
      · rfl
  | invoke endpoint suffix => exact congrArg some (s.redact_addThread rfl)
  | readClock i => exact hthread i rfl rfl
  | readEntry i => exact hthread i rfl rfl
  | act i => exact hthread i rfl rfl
  | wake i => exact hthread i rfl rfl
  | refreshDo i => exact hthread i rfl rfl
  | refreshWake i => exact hthread i rfl rfl
  | refreshDelete i => exact hthread i rfl rfl
  | answer f r => exact hfetch f rfl rfl
  | storeFetched f => exact hfetch f rfl rfl
  | forget f => exact hfetch f rfl rfl

theorem runSteps_redact (cfg : CacheConfig) (s : Sys value) (labels : List (Label value)) :
    runSteps (step cfg) s.redact (labels.map Label.redact) =
      (runSteps (step cfg) s labels).map Sys.redact := by
  induction labels generalizing s with
  | nil => rfl
  | cons l rest ih =>
      simp only [List.map_cons, runSteps, step_redact]
      cases step cfg s l with
      | none => rfl
      | some mid => exact ih mid

end Fleet
end LodelineManager
