import LodelineManager.Fleet.Retry

/-!
# What a run of Do calls

The loop of {lit}`Do` with what it does on the way: each call of the function, each wait,
and the statement after the loop.  The waits are those of {lit}`sleepFor` on a context that
may end at any instant.
-/

namespace LodelineManager
namespace Fleet

open Go

variable {result : Type}

/-!
## The loop and its steps
-/

inductive DoStep where
  | call (attempt : Nat)
  | wait (attempt : Nat) (d : Int)
  | afterLoop
  deriving DecidableEq

/-- The loop of {lit}`Do` from an attempt on, with its steps. -/
def doTrace (p : RetryPolicy) (w : RetryWorld result) :
    Nat -> Nat -> GoErr -> Except GoErr result × List DoStep
  | 0, _, lastErr => (.error lastErr, [.afterLoop])
  | remaining + 1, attempt, _ =>
      match w.fn attempt with
      | .ok out => (.ok out, [.call attempt])
      | .error err =>
          if !isRetryable err || decide ((attempt : Int) = p.maxAttempts) then
            (.error err, [.call attempt])
          else
            let d := p.backoffFor attempt err (w.jitter attempt)
            match w.sleepFor attempt d with
            | some ctxErr => (.error ctxErr, [.call attempt, .wait attempt d])
            | none =>
                let rest := doTrace p w remaining (attempt + 1) err
                (rest.1, .call attempt :: .wait attempt d :: rest.2)

/-- The run of {lit}`Do` with its defaults in place. -/
def doSteps (p : RetryPolicy) (w : RetryWorld result) : Except GoErr result × List DoStep :=
  doTrace p.withDefaults w p.withDefaults.maxAttempts.toNat 1 (.sentinel (.var ""))

def callsOf : List DoStep -> List Nat
  | [] => []
  | .call attempt :: rest => attempt :: callsOf rest
  | .wait _ _ :: rest => callsOf rest
  | .afterLoop :: rest => callsOf rest

/-- A success, or an error that is not transient. -/
def Settled (out : Except GoErr result) : Prop :=
  forall err, out = .error err -> isRetryable err = false

def Transient (out : Except GoErr result) : Prop :=
  exists err, out = .error err ∧ isRetryable err = true

theorem not_settled_of_transient {out : Except GoErr result} (h : Transient out) :
    ¬ Settled out := by
  intro hsettled
  rcases h with ⟨err, hout, hretry⟩
  rw [hsettled err hout] at hretry
  cases hretry

/-- What one pass of the loop does with the outcome of its call. -/
theorem doTrace_succ (p : RetryPolicy) (w : RetryWorld result) (remaining attempt : Nat)
    (lastErr : GoErr) :
    ((Settled (w.fn attempt) ∨ (attempt : Int) = p.maxAttempts) ∧
        doTrace p w (remaining + 1) attempt lastErr = (w.fn attempt, [.call attempt])) ∨
      exists err, w.fn attempt = .error err ∧ isRetryable err = true ∧
        (attempt : Int) ≠ p.maxAttempts ∧
        ((exists ctxErr,
            w.sleepFor attempt (p.backoffFor attempt err (w.jitter attempt)) = some ctxErr ∧
            doTrace p w (remaining + 1) attempt lastErr =
              (.error ctxErr, [.call attempt,
                .wait attempt (p.backoffFor attempt err (w.jitter attempt))])) ∨
          (w.sleepFor attempt (p.backoffFor attempt err (w.jitter attempt)) = none ∧
            doTrace p w (remaining + 1) attempt lastErr =
              ((doTrace p w remaining (attempt + 1) err).1,
                .call attempt :: .wait attempt (p.backoffFor attempt err (w.jitter attempt)) ::
                  (doTrace p w remaining (attempt + 1) err).2))) := by
  rw [doTrace]
  cases hfn : w.fn attempt with
  | ok out =>
      refine Or.inl ⟨Or.inl ?_, rfl⟩
      intro err h
      cases h
  | error err =>
      by_cases hlast : (attempt : Int) = p.maxAttempts
      · exact Or.inl ⟨Or.inr hlast, by simp only [hlast, decide_true, Bool.or_true, if_true]⟩
      · cases hretry : isRetryable err with
        | false =>
            refine Or.inl ⟨Or.inl ?_, by simp only [hretry, Bool.not_false, Bool.true_or, if_true]⟩
            intro err' h
            cases h
            exact hretry
        | true =>
            refine Or.inr ⟨err, rfl, hretry, hlast, ?_⟩
            simp only [hretry, hlast, decide_false, Bool.not_true, Bool.or_false,
              Bool.false_eq_true, if_false]
            cases w.sleepFor attempt (p.backoffFor attempt err (w.jitter attempt)) with
            | some ctxErr => exact Or.inl ⟨ctxErr, rfl, rfl⟩
            | none => exact Or.inr ⟨rfl, rfl⟩

theorem doFrom_eq_doTrace (p : RetryPolicy) (w : RetryWorld result) (remaining attempt : Nat)
    (lastErr : GoErr) (hpos : 1 <= attempt) :
    doFrom p w remaining attempt lastErr =
      ((doTrace p w remaining attempt lastErr).1,
        attempt - 1 + (callsOf (doTrace p w remaining attempt lastErr).2).length) := by
  induction remaining generalizing attempt lastErr with
  | zero => rfl
  | succ remaining ih =>
      have hone : attempt = attempt - 1 + 1 := by omega
      rw [doFrom]
      rw [doTrace]
      cases w.fn attempt with
      | ok out => exact Prod.ext rfl hone
      | error err =>
          simp only
          split
          · exact Prod.ext rfl hone
          · cases w.sleepFor attempt (p.backoffFor attempt err (w.jitter attempt)) with
            | some ctxErr => exact Prod.ext rfl hone
            | none =>
                simp only [ih (attempt + 1) err (by omega), callsOf, List.length_cons]
                exact Prod.ext rfl (by simp only; omega)

theorem doRetry_eq_doSteps (p : RetryPolicy) (w : RetryWorld result) :
    doRetry p w = ((doSteps p w).1, (callsOf (doSteps p w).2).length) := by
  unfold doRetry doSteps
  rw [doFrom_eq_doTrace _ _ _ _ _ (Nat.le_refl 1), Nat.sub_self, Nat.zero_add]

/-!
## Where the loop ends
-/

/-- The loop ends with call {lit}`n` of at most {lit}`last`: on its outcome, or in the wait
after it. -/
structure EndsAt (p : RetryPolicy) (w : RetryWorld result) (first last n : Nat)
    (run : Except GoErr result × List DoStep) : Prop where
  bounds : first <= n ∧ n <= last
  calls : callsOf run.2 = List.range' first (n + 1 - first)
  inLoop : DoStep.afterLoop ∉ run.2
  before : forall k, first <= k -> k < n -> exists err, w.fn k = .error err ∧
    isRetryable err = true ∧ w.sleepFor k (p.backoffFor k err (w.jitter k)) = none
  outcome : ((Settled (w.fn n) ∨ n = last) ∧ run.1 = w.fn n) ∨
    (n < last ∧ exists err ctxErr, w.fn n = .error err ∧ isRetryable err = true ∧
      w.sleepFor n (p.backoffFor n err (w.jitter n)) = some ctxErr ∧ run.1 = .error ctxErr)

theorem EndsAt.cons {p : RetryPolicy} {w : RetryWorld result} {attempt last n : Nat}
    {run : Except GoErr result × List DoStep} (h : EndsAt p w (attempt + 1) last n run)
    {err : GoErr} (hfn : w.fn attempt = .error err) (hretry : isRetryable err = true)
    (hslept : w.sleepFor attempt (p.backoffFor attempt err (w.jitter attempt)) = none) (d : Int) :
    EndsAt p w attempt last n (run.1, .call attempt :: .wait attempt d :: run.2) where
  bounds := ⟨by have := h.bounds; omega, h.bounds.right⟩
  calls := by
    have hlen : n + 1 - attempt = (n + 1 - (attempt + 1)) + 1 := by
      have := h.bounds
      omega
    rw [callsOf, callsOf, h.calls, hlen, List.range'_succ]
  inLoop := by
    intro hmem
    rcases List.mem_cons.mp hmem with hcall | hmem
    · cases hcall
    · rcases List.mem_cons.mp hmem with hwait | hmem
      · cases hwait
      · exact h.inLoop hmem
  before := by
    intro k hfirst hlast
    by_cases hk : k = attempt
    · subst hk
      exact ⟨err, hfn, hretry, hslept⟩
    · exact h.before k (by omega) hlast
  outcome := h.outcome

theorem callsOf_single (attempt : Nat) (rest : List DoStep) (h : callsOf rest = []) :
    callsOf (.call attempt :: rest) = List.range' attempt (attempt + 1 - attempt) := by
  rw [callsOf, h, Nat.add_sub_cancel_left]
  rfl

theorem doTrace_ends (p : RetryPolicy) (w : RetryWorld result) (remaining attempt : Nat)
    (lastErr : GoErr) (hleft : attempt + remaining = p.maxAttempts.toNat + 1)
    (hpos : 0 < remaining) (hfirst : 1 <= attempt) :
    exists n, EndsAt p w attempt p.maxAttempts.toNat n
      (doTrace p w remaining attempt lastErr) := by
  induction remaining generalizing attempt lastErr with
  | zero => exact absurd hpos (Nat.lt_irrefl 0)
  | succ remaining ih =>
      have hmax : p.maxAttempts = (p.maxAttempts.toNat : Int) := by omega
      rcases doTrace_succ p w remaining attempt lastErr with
        ⟨hstop, hrun⟩ | ⟨err, hfn, hretry, hnot, ⟨ctxErr, hsleep, hrun⟩ | ⟨hsleep, hrun⟩⟩
      · rw [hrun]
        refine ⟨attempt, ⟨Nat.le_refl _, by omega⟩, callsOf_single attempt [] rfl, ?_, ?_, ?_⟩
        · simp
        · intro k hk hlt
          exact absurd hlt (Nat.not_lt.mpr hk)
        · refine Or.inl ⟨hstop.imp_right ?_, rfl⟩
          intro hlast
          omega
      · rw [hrun]
        refine ⟨attempt, ⟨Nat.le_refl _, by omega⟩, callsOf_single attempt [_] rfl, ?_, ?_, ?_⟩
        · simp
        · intro k hk hlt
          exact absurd hlt (Nat.not_lt.mpr hk)
        · exact Or.inr ⟨by omega, err, ctxErr, hfn, hretry, hsleep, rfl⟩
      · -- the attempts are not used up, so the loop goes round
        rcases ih (attempt + 1) err (by omega) (by omega) (by omega) with ⟨n, hends⟩
        rw [hrun]
        exact ⟨n, hends.cons hfn hretry hsleep _⟩

/-!
## Contexts
-/

/-- A context with the instant at which it is done, if it ever is. -/
structure Context where
  doneAt : Option Int
  err : GoErr

/-- {lit}`sleepFor`: the timer is ready after the wait, the context once it is done, and the
{lit}`select` picks at random when both are ready at once. -/
def sleepFor (ctx : Context) (now d : Int) (pickDone : Bool) : Option GoErr :=
  match ctx.doneAt with
  | none => none
  | some done =>
      if max now done < now + max d 0 then some ctx.err
      else if max now done = now + max d 0 && pickDone then some ctx.err
      else none

/-- The outcomes of the function, the draws, the context, the clock when the wait after an
attempt begins, and the picks of the {lit}`select`. -/
structure DoRun (result : Type) where
  fn : Nat -> Except GoErr result
  jitter : Nat -> Int
  ctx : Context
  clock : Nat -> Int
  pickDone : Nat -> Bool

def DoRun.world (r : DoRun result) : RetryWorld result :=
  { fn := r.fn, jitter := r.jitter
    sleepFor := fun n d => sleepFor r.ctx (r.clock n) d (r.pickDone n) }

def DoRun.waitAfter (r : DoRun result) (p : RetryPolicy) (n : Nat) (err : GoErr) : Int :=
  p.withDefaults.backoffFor n err (r.jitter n)

/-- The context is done before the timer of a wait fires. -/
def Context.EndsWithin (ctx : Context) (now d : Int) : Prop :=
  exists done, ctx.doneAt = some done ∧ done < now + d ∧ 0 < d

theorem sleepFor_of_endsWithin {ctx : Context} {now d : Int} (h : ctx.EndsWithin now d)
    (pickDone : Bool) : sleepFor ctx now d pickDone = some ctx.err := by
  rcases h with ⟨done, hdone, hbefore, hpos⟩
  have hfirst : max now done < now + max d 0 := by omega
  simp only [sleepFor, hdone, if_pos hfirst]

theorem sleepFor_eq_some {ctx : Context} {now d : Int} {pickDone : Bool} {err : GoErr}
    (h : sleepFor ctx now d pickDone = some err) :
    err = ctx.err ∧ exists done, ctx.doneAt = some done ∧ done <= now + max d 0 := by
  unfold sleepFor at h
  cases hdone : ctx.doneAt with
  | none =>
      rw [hdone] at h
      cases h
  | some done =>
      simp only [hdone] at h
      by_cases hfirst : max now done < now + max d 0
      · rw [if_pos hfirst] at h
        cases h
        exact ⟨rfl, done, rfl, by omega⟩
      · rw [if_neg hfirst] at h
        split at h
        · rename_i hboth
          have hsame : max now done = now + max d 0 := by
            simpa using (Bool.and_eq_true_iff.mp hboth).left
          cases h
          exact ⟨rfl, done, rfl, by omega⟩
        · cases h

def RetryPolicy.allowed (p : RetryPolicy) : Nat :=
  if p.maxAttempts <= 0 then 3 else p.maxAttempts.toNat

theorem allowed_eq (p : RetryPolicy) : p.withDefaults.maxAttempts.toNat = p.allowed := by
  unfold RetryPolicy.allowed RetryPolicy.withDefaults
  simp only
  split
  · rfl
  · rfl

/-- The contract of a run of {lit}`Do` whose last call is that for attempt {lit}`n`. -/
structure DoContract (p : RetryPolicy) (r : DoRun result) (n : Nat) : Prop where
  bounds : 1 <= n ∧ n <= p.allowed
  calls : callsOf (doSteps p r.world).2 = List.range' 1 n
  counted : doRetry p r.world = ((doSteps p r.world).1, n)
  inLoop : DoStep.afterLoop ∉ (doSteps p r.world).2
  before : forall k, 1 <= k -> k < n -> Transient (r.fn k)
  returned : Settled (r.fn n) ∨ n = p.allowed -> (doSteps p r.world).1 = r.fn n
  interrupted : ¬ (Settled (r.fn n) ∨ n = p.allowed) ->
    (doSteps p r.world).1 = .error r.ctx.err ∧
      exists err done, r.fn n = .error err ∧ r.ctx.doneAt = some done ∧
        done <= r.clock n + max (r.waitAfter p n err) 0
  stopped : forall k err, 1 <= k -> k <= n -> k < p.allowed -> r.fn k = .error err ->
    isRetryable err = true -> r.ctx.EndsWithin (r.clock k) (r.waitAfter p k err) ->
    n = k ∧ (doSteps p r.world).1 = .error r.ctx.err

theorem doSteps_ends (p : RetryPolicy) (w : RetryWorld result) :
    exists n, EndsAt p.withDefaults w 1 p.allowed n (doSteps p w) := by
  have hpos := withDefaults_maxAttempts_pos p
  rw [← allowed_eq]
  exact doTrace_ends p.withDefaults w p.withDefaults.maxAttempts.toNat 1
    (.sentinel (.var "")) (Nat.add_comm 1 _) (by omega) (Nat.le_refl 1)

section

variable {p : RetryPolicy} {r : DoRun result} {n : Nat}

theorem EndsAt.returned (h : EndsAt p.withDefaults r.world 1 p.allowed n (doSteps p r.world))
    (hstop : Settled (r.fn n) ∨ n = p.allowed) : (doSteps p r.world).1 = r.fn n := by
  rcases h.outcome with ⟨_, hresult⟩ | ⟨hlt, err, _, hfn, hretry, _, _⟩
  · exact hresult
  · rcases hstop with hsettled | hlast
    · exact absurd hsettled (not_settled_of_transient ⟨err, hfn, hretry⟩)
    · exact absurd hlast (Nat.ne_of_lt hlt)

theorem EndsAt.interrupted (h : EndsAt p.withDefaults r.world 1 p.allowed n (doSteps p r.world))
    (hgo : ¬ (Settled (r.fn n) ∨ n = p.allowed)) :
    (doSteps p r.world).1 = .error r.ctx.err ∧
      exists err done, r.fn n = .error err ∧ r.ctx.doneAt = some done ∧
        done <= r.clock n + max (r.waitAfter p n err) 0 := by
  rcases h.outcome with ⟨hstop, _⟩ | ⟨_, err, ctxErr, hfn, _, hsleep, hresult⟩
  · exact absurd hstop hgo
  · rcases sleepFor_eq_some hsleep with ⟨hctx, done, hdone, hle⟩
    rw [hctx] at hresult
    exact ⟨hresult, err, done, hfn, hdone, hle⟩

theorem EndsAt.stopped (h : EndsAt p.withDefaults r.world 1 p.allowed n (doSteps p r.world))
    {k : Nat} {err : GoErr} (hfirst : 1 <= k) (hle : k <= n) (hlt : k < p.allowed)
    (hfn : r.fn k = .error err) (hretry : isRetryable err = true)
    (hover : r.ctx.EndsWithin (r.clock k) (r.waitAfter p k err)) :
    n = k ∧ (doSteps p r.world).1 = .error r.ctx.err := by
  have hcut : r.world.sleepFor k (p.withDefaults.backoffFor k err (r.world.jitter k)) =
      some r.ctx.err := sleepFor_of_endsWithin hover (r.pickDone k)
  rcases Nat.lt_or_eq_of_le hle with hk | hk
  · rcases h.before k hfirst hk with ⟨err', hfn', _, hslept⟩
    have hsame : (Except.error err : Except GoErr result) = .error err' := hfn.symm.trans hfn'
    cases hsame
    rw [hcut] at hslept
    cases hslept
  · subst hk
    refine ⟨rfl, (h.interrupted ?_).left⟩
    rintro (hsettled | hlast)
    · exact not_settled_of_transient ⟨err, hfn, hretry⟩ hsettled
    · exact Nat.ne_of_lt hlt hlast

end

/-- For any policy, outcomes and context, {lit}`Do` calls its function up to the first
settled outcome within its attempts and returns that outcome or the last error, unless
the context ends in a wait. -/
theorem do_contract (p : RetryPolicy) (r : DoRun result) : exists n, DoContract p r n := by
  rcases doSteps_ends p r.world with ⟨n, hends⟩
  have hcalls : callsOf (doSteps p r.world).2 = List.range' 1 n := by
    rw [hends.calls, Nat.add_sub_cancel]
  refine ⟨n, hends.bounds, hcalls, ?_, hends.inLoop, ?_, hends.returned, hends.interrupted, ?_⟩
  · rw [doRetry_eq_doSteps, hcalls, List.length_range']
  · intro k hfirst hlast
    rcases hends.before k hfirst hlast with ⟨err, hfn, hretry, _⟩
    exact ⟨err, hfn, hretry⟩
  · intro k err hfirst hle hlt hfn hretry hover
    exact hends.stopped hfirst hle hlt hfn hretry hover

/-- A context that ends in the second wait. -/
example : doRetry ⟨0, 0, 0⟩
    (⟨fun _ => .error (.serviceUnavailable second), fun _ => 0,
      ⟨some (2 * second), .sentinel .canceled⟩, fun n => n * second, fun _ => false⟩ :
        DoRun Nat).world = (.error (.sentinel .canceled), 2) := by
  decide

end Fleet
end LodelineManager
