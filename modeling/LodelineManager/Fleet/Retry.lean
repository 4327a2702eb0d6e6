import LodelineManager.Fleet.Errors

/-!
# Bounded retry

{lit}`Do` calls an idempotent function until it succeeds, fails for good, or has used
its attempts.  Durations are 64-bit nanosecond counts and wrap.
-/

namespace LodelineManager
namespace Fleet

open Go

def wrap64 (n : Int) : Int := n.bmod (2 ^ 64)

theorem wrap64_of_range {n : Int} (hlow : -2 ^ 63 <= n) (hhigh : n < 2 ^ 63) : wrap64 n = n := by
  unfold wrap64
  exact Int.bmod_eq_of_le (by omega) (by omega)

theorem wrap64_of_over {n : Int} (hlow : 2 ^ 63 <= n) (hhigh : n < 2 ^ 64) : wrap64 n < 0 := by
  unfold wrap64
  have hsub : (n - 2 ^ 64).bmod (2 ^ 64) = n.bmod (2 ^ 64) := Int.sub_bmod_right n (2 ^ 64)
  rw [← hsub, Int.bmod_eq_of_le (by omega) (by omega)]
  omega

theorem wrap64_lt (n : Int) : wrap64 n < 2 ^ 63 :=
  Int.bmod_lt (by decide)

theorem eq_of_wrap64 {n : Int} (h : wrap64 n = n) : n < 2 ^ 63 := by
  rw [← h]
  exact wrap64_lt n

structure RetryPolicy where
  maxAttempts : Int
  baseDelay : Int
  maxDelay : Int

def defaultRetryPolicy : RetryPolicy :=
  { maxAttempts := 3, baseDelay := 200 * millisecond, maxDelay := 5 * second }

/-- The defaults that {lit}`Do` puts in place of zero and negative fields. -/
def RetryPolicy.withDefaults (p : RetryPolicy) : RetryPolicy :=
  { maxAttempts := if p.maxAttempts <= 0 then 3 else p.maxAttempts
    baseDelay := if p.baseDelay <= 0 then 200 * millisecond else p.baseDelay
    maxDelay := if p.maxDelay <= 0 then 5 * second else p.maxDelay }

/-- The wait before attempt {lit}`attempt + 1`; {lit}`jitter` is the draw of
{lit}`rand.Int64N(BaseDelay)`. -/
def RetryPolicy.backoffFor (p : RetryPolicy) (attempt : Nat) (err : GoErr) (jitter : Int) : Int :=
  match err.asServiceUnavailable with
  | some d => if d <= 0 || d > p.maxDelay then p.maxDelay else d
  | none =>
      let d := wrap64 (p.baseDelay * wrap64 (2 ^ (attempt - 1)))
      let d := if d > p.maxDelay then p.maxDelay else d
      wrap64 (d + jitter)

/-- What surrounds a run of {lit}`Do`: the outcome of each attempt, the draws of the
random source, and the error of the context when it ends during a sleep. -/
structure RetryWorld (result : Type) where
  fn : Nat -> Except GoErr result
  jitter : Nat -> Int
  sleepFor : Nat -> Int -> Option GoErr

/-- The loop from an attempt on; {lit}`remaining` counts the attempts left.  Returns the
result and the number of calls made. -/
def doFrom {result : Type} (p : RetryPolicy) (w : RetryWorld result) :
    Nat -> Nat -> GoErr -> Except GoErr result × Nat
  | 0, attempt, lastErr => (.error lastErr, attempt - 1)
  | remaining + 1, attempt, _ =>
      match w.fn attempt with
      | .ok out => (.ok out, attempt)
      | .error err =>
          if !isRetryable err || decide ((attempt : Int) = p.maxAttempts) then
            (.error err, attempt)
          else
            match w.sleepFor attempt (p.backoffFor attempt err (w.jitter attempt)) with
            | some ctxErr => (.error ctxErr, attempt)
            | none => doFrom p w remaining (attempt + 1) err

/-- {lit}`Do`: the result, and how often the function was called. -/
def doRetry {result : Type} (p : RetryPolicy) (w : RetryWorld result) :
    Except GoErr result × Nat :=
  doFrom p.withDefaults w p.withDefaults.maxAttempts.toNat 1 (.sentinel (.var ""))

theorem withDefaults_maxAttempts_pos (p : RetryPolicy) : 0 < p.withDefaults.maxAttempts := by
  show 0 < if p.maxAttempts <= 0 then 3 else p.maxAttempts
  split
  · decide
  · rename_i h
    exact Int.not_le.mp h

theorem doRetry_terminal {result : Type} (p : RetryPolicy) {w : RetryWorld result} {err : GoErr}
    (hfn : w.fn 1 = .error err) (hterm : isRetryable err = false) :
    doRetry p w = (.error err, 1) := by
  have hpos := withDefaults_maxAttempts_pos p
  rcases Nat.exists_eq_succ_of_ne_zero (n := p.withDefaults.maxAttempts.toNat) (by omega) with
    ⟨k, hk⟩
  unfold doRetry
  rw [hk, doFrom, hfn]
  simp only [hterm, Bool.not_false, Bool.true_or, if_true]

end Fleet
end LodelineManager
