import LodelineManager.Fleet.HTTP
import LodelineManager.Fleet.RetryRuns

/-!
# The length of a wait

What {lit}`backoffFor` makes of a {lit}`Retry-After` header and of the attempts, against the
wait in exact integers.  Durations of 64 bits, a clamp that takes zero for no answer and
a jitter that is added behind the clamp set the two apart.
-/

namespace LodelineManager
namespace Fleet

open Go

variable {result : Type}

/-- The fields of a policy are positive 64-bit durations. -/
structure RetryPolicy.Positive (p : RetryPolicy) : Prop where
  maxAttempts : 0 < p.maxAttempts
  baseDelay : 0 < p.baseDelay ∧ p.baseDelay < 2 ^ 63
  maxDelay : 0 < p.maxDelay ∧ p.maxDelay < 2 ^ 63

/-!
## The waits of a run
-/

theorem wait_of_doTrace {p : RetryPolicy} {w : RetryWorld result} {n : Nat} {d : Int}
    {remaining attempt : Nat} {lastErr : GoErr}
    (h : DoStep.wait n d ∈ (doTrace p w remaining attempt lastErr).2) :
    exists err, w.fn n = .error err ∧ d = p.backoffFor n err (w.jitter n) := by
  induction remaining generalizing attempt lastErr with
  | zero => simp [doTrace] at h
  | succ remaining ih =>
      rcases doTrace_succ p w remaining attempt lastErr with
        ⟨_, hrun⟩ | ⟨err, hfn, _, _, ⟨_, _, hrun⟩ | ⟨_, hrun⟩⟩
      · rw [hrun] at h
        simp at h
      · rw [hrun] at h
        simp only [List.mem_cons, reduceCtorEq, DoStep.wait.injEq, List.not_mem_nil, or_false,
          false_or] at h
        rcases h with ⟨rfl, rfl⟩
        exact ⟨err, hfn, rfl⟩
      · rw [hrun] at h
        simp only [List.mem_cons, reduceCtorEq, DoStep.wait.injEq, false_or] at h
        rcases h with ⟨rfl, rfl⟩ | hrest
        · exact ⟨err, hfn, rfl⟩
        · exact ih hrest

theorem wait_of_doSteps {p : RetryPolicy} {w : RetryWorld result} {n : Nat} {d : Int}
    {err : GoErr} (h : DoStep.wait n d ∈ (doSteps p w).2) (hfn : w.fn n = .error err) :
    d = p.withDefaults.backoffFor n err (w.jitter n) := by
  rcases wait_of_doTrace h with ⟨err', hfn', hd⟩
  rw [hfn] at hfn'
  cases hfn'
  exact hd

theorem withDefaults_maxDelay {p : RetryPolicy} (h : 0 < p.maxDelay) :
    p.withDefaults.maxDelay = p.maxDelay :=
  if_neg (Int.not_le.mpr h)

/-!
## Retry-After
-/

def askedSeconds (v : String) : Option Int :=
  match atoi (trimSpace v.toList) with
  | none => none
  | some n => if n < 0 then none else some n

def askedWait (v : String) (maxDelay : Int) : Int :=
  match askedSeconds v with
  | some n => min (n * second) maxDelay
  | none => min (5 * second) maxDelay

/-- The wait of {lit}`Do` after a 503 with the header. -/
def waitFor503 (p : RetryPolicy) (v : String) (attempt : Nat) (jitter : Int) : Int :=
  p.withDefaults.backoffFor attempt (.serviceUnavailable (parseRetryAfter v)) jitter

theorem parseRetryAfter_eq (v : String) :
    parseRetryAfter v =
      match askedSeconds v with
      | some n => wrap64 (n * second)
      | none => 5 * second := by
  unfold parseRetryAfter askedSeconds
  by_cases hempty : v = ""
  · subst hempty
    rfl
  · rw [if_neg hempty]
    cases atoi (trimSpace v.toList) with
    | none => rfl
    | some n =>
        by_cases hneg : n < 0
        · simp only [if_pos hneg]
        · simp only [if_neg hneg]

theorem askedSeconds_nonneg {v : String} {n : Int} (h : askedSeconds v = some n) : 0 <= n := by
  unfold askedSeconds at h
  split at h
  · cases h
  · split at h
    · cases h
    · rename_i hneg
      cases h
      exact Int.not_lt.mp hneg

/-- A positive delay whose nanoseconds fit in 64 bits, or come out of the wrap at zero or
less, or not below the bound. -/
def KeptSeconds (maxDelay n : Int) : Prop :=
  0 < n ∧ (n * second < 2 ^ 63 ∨ (n * second).bmod (2 ^ 64) <= 0 ∨
    maxDelay <= (n * second).bmod (2 ^ 64))

theorem waitFor503_eq {p : RetryPolicy} (hmax : 0 < p.maxDelay) (v : String) (attempt : Nat)
    (jitter : Int) :
    waitFor503 p v attempt jitter =
      if parseRetryAfter v <= 0 || parseRetryAfter v > p.maxDelay then p.maxDelay
      else parseRetryAfter v := by
  unfold waitFor503 RetryPolicy.backoffFor
  rw [withDefaults_maxDelay hmax]
  rfl

theorem clamp_seconds_iff {maxDelay n : Int} (hmax : 0 < maxDelay ∧ maxDelay < 2 ^ 63)
    (hn : 0 <= n) :
    (if wrap64 (n * second) <= 0 || wrap64 (n * second) > maxDelay then maxDelay
      else wrap64 (n * second)) = min (n * second) maxDelay <-> KeptSeconds maxDelay n := by
  have hasked : 0 <= n * second ∧ (0 < n <-> 0 < n * second) := by
    rw [show second = 1000000000 from rfl]
    omega
  unfold KeptSeconds
  rw [hasked.right]
  change _ <-> 0 < n * second ∧ (n * second < 2 ^ 63 ∨ wrap64 (n * second) <= 0 ∨
    maxDelay <= wrap64 (n * second))
  generalize n * second = x at hasked ⊢
  by_cases hfits : x < 2 ^ 63
  · rw [wrap64_of_range (by omega) hfits]
    by_cases hclamp : (x <= 0 || x > maxDelay) = true
    · rw [if_pos hclamp]
      simp only [Bool.or_eq_true, decide_eq_true_eq] at hclamp
      omega
    · rw [if_neg hclamp]
      simp only [Bool.or_eq_true, decide_eq_true_eq] at hclamp
      omega
  · generalize wrap64 x = d
    by_cases hclamp : (d <= 0 || d > maxDelay) = true
    · rw [if_pos hclamp]
      simp only [Bool.or_eq_true, decide_eq_true_eq] at hclamp
      omega
    · rw [if_neg hclamp]
      simp only [Bool.or_eq_true, decide_eq_true_eq] at hclamp
      omega

/-- {lit}`Do` waits as long as a 503 asks exactly where the header is no delay, or a delay
of at least a second that the product with a second keeps. -/
theorem retryAfter_kept_iff {p : RetryPolicy} (hmax : 0 < p.maxDelay ∧ p.maxDelay < 2 ^ 63) :
    (forall (w : RetryWorld result) v n d,
      w.fn n = .error (.serviceUnavailable (parseRetryAfter v)) ->
      DoStep.wait n d ∈ (doSteps p w).2 -> d = waitFor503 p v n (w.jitter n)) ∧
    (forall v attempt jitter, waitFor503 p v attempt jitter = askedWait v p.maxDelay <->
      forall n, askedSeconds v = some n -> KeptSeconds p.maxDelay n) ∧
    (forall v v' n n' attempt jitter jitter', askedSeconds v = some n -> askedSeconds v' = some n' ->
      n <= n' -> KeptSeconds p.maxDelay n -> KeptSeconds p.maxDelay n' ->
      waitFor503 p v attempt jitter <= waitFor503 p v' attempt jitter') := by
  have hkept : forall v attempt jitter, waitFor503 p v attempt jitter = askedWait v p.maxDelay <->
      forall n, askedSeconds v = some n -> KeptSeconds p.maxDelay n := by
    intro v attempt jitter
    rw [waitFor503_eq hmax.left, parseRetryAfter_eq, askedWait]
    cases hasked : askedSeconds v with
    | none =>
        have hsecond : second = 1000000000 := by decide
        simp only [reduceCtorEq, false_implies, implies_true, iff_true, Bool.or_eq_true,
          decide_eq_true_eq]
        split
        · omega
        · omega
    | some n =>
        simp only [Option.some.injEq, forall_eq']
        exact clamp_seconds_iff hmax (askedSeconds_nonneg hasked)
  refine ⟨?_, hkept, ?_⟩
  · intro w v n d hfn hwait
    exact wait_of_doSteps hwait hfn
  · intro v v' n n' attempt jitter jitter' hv hv' hle hn hn'
    have hwait := (hkept v attempt jitter).mpr (fun m hm => by
      rw [hv] at hm
      cases hm
      exact hn)
    have hwait' := (hkept v' attempt jitter').mpr (fun m hm => by
      rw [hv'] at hm
      cases hm
      exact hn')
    rw [hwait, hwait', askedWait, askedWait, hv, hv']
    exact min_le_min_right _ (Int.mul_le_mul_of_nonneg_right hle (by decide))

theorem retryAfter_kept_seven :
    waitFor503 defaultRetryPolicy "3" 1 0 = askedWait "3" (5 * second) ∧
      waitFor503 defaultRetryPolicy "3" 1 0 <= waitFor503 defaultRetryPolicy "7" 1 0 := by
  rcases @retryAfter_kept_iff Unit defaultRetryPolicy (by decide) with ⟨_, hkept, hmono⟩
  have hthree : askedSeconds "3" = some 3 := by decide
  have hseven : askedSeconds "7" = some 7 := by decide
  refine ⟨(hkept "3" 1 0).mpr ?_, ?_⟩
  · intro n hn
    rw [hthree] at hn
    cases hn
    unfold KeptSeconds
    decide
  · refine hmono "3" "7" 3 7 1 0 0 hthree hseven (by decide) ?_ ?_
    · unfold KeptSeconds
      decide
    · unfold KeptSeconds
      decide

/-- A server that asks for no delay gets the longest one, and so does not one that asks
for a second; a very long delay wraps to less than a second. -/
theorem retryAfter_not_kept :
    ¬ (forall (p : RetryPolicy) (v : String) (attempt : Nat) (jitter : Int),
      0 < p.maxDelay -> p.maxDelay < 2 ^ 63 ->
      waitFor503 p v attempt jitter = askedWait v p.maxDelay) ∧
    waitFor503 defaultRetryPolicy "0" 1 0 = 5 * second ∧
    waitFor503 defaultRetryPolicy "1" 1 0 = second ∧
    waitFor503 defaultRetryPolicy "18446744074" 1 0 = 290448384 := by
  have hzero : waitFor503 defaultRetryPolicy "0" 1 0 = 5 * second := by decide
  refine ⟨?_, hzero, by decide, by decide⟩
  intro h
  have hasked := h defaultRetryPolicy "0" 1 0 (by decide) (by decide)
  rw [hzero] at hasked
  exact absurd hasked (by decide)

/-!
## Transient errors
-/

/-- What the comment on {lit}`backoffFor` promises of a draw: a positive wait within the
bound, on top of the exact exponential. -/
structure Bounded (p : RetryPolicy) (attempt : Nat) (err : GoErr) (jitter : Int) : Prop where
  positive : 0 < p.backoffFor attempt err jitter
  bounded : p.backoffFor attempt err jitter <= p.maxDelay
  exact : p.backoffFor attempt err 0 = min (p.baseDelay * 2 ^ (attempt - 1)) p.maxDelay
  shift : wrap64 (2 ^ (attempt - 1)) = 2 ^ (attempt - 1)
  product : wrap64 (p.baseDelay * wrap64 (2 ^ (attempt - 1))) = p.baseDelay * 2 ^ (attempt - 1)

theorem backoffFor_transient (p : RetryPolicy) (attempt : Nat) {err : GoErr} (jitter : Int)
    (herr : err.asServiceUnavailable = none) :
    p.backoffFor attempt err jitter =
      wrap64 (min (wrap64 (p.baseDelay * wrap64 (2 ^ (attempt - 1)))) p.maxDelay + jitter) := by
  unfold RetryPolicy.backoffFor
  rw [herr]
  simp only
  congr 2
  by_cases h : wrap64 (p.baseDelay * wrap64 (2 ^ (attempt - 1))) > p.maxDelay
  · rw [if_pos h]
    omega
  · rw [if_neg h]
    omega

theorem jittered_iff {base wait maxDelay jitter : Int} (hmax : maxDelay < 2 ^ 63)
    (hbase : base < 2 ^ 63) (hwait : 0 < wait) (hpos : 0 < maxDelay)
    (hjitter : 0 <= jitter ∧ jitter < base) :
    (0 < wrap64 (min wait maxDelay + jitter) ∧ wrap64 (min wait maxDelay + jitter) <= maxDelay) <->
      jitter = 0 ∨ wait + jitter <= maxDelay := by
  by_cases hfits : min wait maxDelay + jitter < 2 ^ 63
  · rw [wrap64_of_range (by omega) hfits]
    omega
  · have hneg := wrap64_of_over (n := min wait maxDelay + jitter) (by omega) (by omega)
    omega

/-- The wait of a transient error keeps the promise exactly where the exponential does not
overflow and the draw is zero or fits under the bound. -/
theorem backoff_bounded_iff {p : RetryPolicy} (hp : p.Positive) {attempt : Nat} {err : GoErr}
    {jitter : Int} (herr : err.asServiceUnavailable = none)
    (hjitter : 0 <= jitter ∧ jitter < p.baseDelay) :
    Bounded p attempt err jitter <->
      p.baseDelay * 2 ^ (attempt - 1) < 2 ^ 63 ∧
        (jitter = 0 ∨ p.baseDelay * 2 ^ (attempt - 1) + jitter <= p.maxDelay) := by
  rcases hp with ⟨_, hbase, hmax⟩
  have hpow : (0 : Int) < 2 ^ (attempt - 1) := Int.pow_pos (by decide)
  have hwait : 0 < p.baseDelay * 2 ^ (attempt - 1) := Int.mul_pos hbase.left hpow
  have hle : 2 ^ (attempt - 1) <= p.baseDelay * 2 ^ (attempt - 1) :=
    le_mul_of_one_le_left (Int.le_of_lt hpow) hbase.left
  have hiff := jittered_iff hmax.right hbase.right hwait hmax.left hjitter
  constructor
  · rintro ⟨hpositive, hbounded, _, hshift, hproduct⟩
    rw [hshift] at hproduct
    rw [backoffFor_transient p attempt jitter herr, hshift, hproduct] at hpositive hbounded
    exact ⟨eq_of_wrap64 hproduct, hiff.mp ⟨hpositive, hbounded⟩⟩
  · rintro ⟨hfits, hroom⟩
    have hshift : wrap64 (2 ^ (attempt - 1)) = 2 ^ (attempt - 1) :=
      wrap64_of_range (by omega) (by omega)
    have hproduct : wrap64 (p.baseDelay * wrap64 (2 ^ (attempt - 1))) =
        p.baseDelay * 2 ^ (attempt - 1) := by
      rw [hshift]
      exact wrap64_of_range (by omega) hfits
    have hjittered := hiff.mpr hroom
    rw [← hproduct, ← backoffFor_transient p attempt jitter herr] at hjittered
    refine ⟨hjittered.left, hjittered.right, ?_, hshift, hproduct⟩
    rw [backoffFor_transient p attempt 0 herr, hproduct, Int.add_zero]
    exact wrap64_of_range (by omega) (by omega)

/-- The network timeout that {lit}`Do` retries. -/
def ioTimeout : GoErr := .foreign "i/o timeout" [] (some true)

theorem backoff_bounded_second :
    Bounded defaultRetryPolicy 2 ioTimeout (199 * millisecond) :=
  (backoff_bounded_iff (p := defaultRetryPolicy) ⟨by decide, by decide, by decide⟩ rfl
    (by decide)).mpr ⟨by decide, by decide⟩

/-- The sixth wait of the shipped delays is past their bound by its jitter. -/
theorem backoff_not_bounded :
    ¬ (forall (p : RetryPolicy) (attempt : Nat) (err : GoErr) (jitter : Int), p.Positive ->
      1 <= attempt -> (attempt : Int) <= p.maxAttempts -> err.asServiceUnavailable = none ->
      0 <= jitter -> jitter < p.baseDelay -> Bounded p attempt err jitter) ∧
    RetryPolicy.backoffFor { defaultRetryPolicy with maxAttempts := 7 } 6 ioTimeout
      (100 * millisecond) = 5 * second + 100 * millisecond := by
  have hwait : RetryPolicy.backoffFor { defaultRetryPolicy with maxAttempts := 7 } 6 ioTimeout
      (100 * millisecond) = 5 * second + 100 * millisecond := by
    decide
  refine ⟨?_, hwait⟩
  intro h
  have hbounded := (h { defaultRetryPolicy with maxAttempts := 7 } 6 ioTimeout
    (100 * millisecond) ⟨by decide, by decide, by decide⟩ (by decide) (by decide) rfl (by decide)
    (by decide)).bounded
  rw [hwait] at hbounded
  exact absurd hbounded (by decide)

end Fleet
end LodelineManager
