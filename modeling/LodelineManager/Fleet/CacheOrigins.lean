import LodelineManager.Fleet.CacheReads

/-!
# Where threads and fetches come from

A step adds at most one thread and one fetch.  A new thread is a call that was
invoked or the refresh that a call spawned for its key, and a new fetch is one
that a thread started for its own key because single-flight had none.
-/

namespace LodelineManager
namespace Fleet

open Foundation

variable {value : Type}

/-- What a thread was started for. -/
inductive Role where
  | call (endpoint suffix : String)
  | refresh (key : String)

def Role.key : Role -> String
  | .call endpoint suffix => cacheKey endpoint suffix
  | .refresh key => key

def Thread.role : Thread value -> Role
  | .call endpoint suffix _ => .call endpoint suffix
  | .refresh key _ => .refresh key

/-- The thread that takes a step. -/
def ActsAs (s : Sys value) (l : Label value) (t : Thread value) : Prop :=
  exists i, l.thread? = some i ∧ s.threads i = some t

/-- A thread after a step was there before, or the step has added it. -/
inductive ThreadOrigin (s : Sys value) (l : Label value) (s' : Sys value) (j : Nat)
    (u : Thread value) : Prop where
  | old {t : Thread value} : s.threads j = some t -> t.role = u.role ->
      ThreadOrigin s l s' j u
  | invoked {endpoint suffix : String} : l = .invoke endpoint suffix -> j = s.nextThread ->
      s'.nextThread = s.nextThread + 1 -> u = .call endpoint suffix .started ->
      ThreadOrigin s l s' j u
  | spawned {t : Thread value} : ActsAs s l t -> j = s.nextThread ->
      s'.nextThread = s.nextThread + 1 -> u = .refresh t.role.key .started ->
      ThreadOrigin s l s' j u

/-- A fetch after a step was there before, or the step has started it. -/
inductive FetchOrigin (s : Sys value) (l : Label value) (s' : Sys value) (f : Nat)
    (d : Fetch value) : Prop where
  | old {c : Fetch value} : s.fetches f = some c -> d.key = c.key -> Advance c.phase d.phase ->
      FetchOrigin s l s' f d
  | started {t : Thread value} : ActsAs s l t -> f = s.nextFetch ->
      s'.nextFetch = s.nextFetch + 1 -> s.group t.role.key = none ->
      d = { key := t.role.key, phase := .running } -> FetchOrigin s l s' f d

theorem threadOrigin_update {s s' : Sys value} {l : Label value} {i j : Nat}
    {t u : Thread value} {new : Option (Thread value)} (ht : s.threads i = some t)
    (hnew : forall v, new = some v -> t.role = v.role)
    (hthreads : s'.threads = Function.update s.threads i new) (hu : s'.threads j = some u) :
    ThreadOrigin s l s' j u := by
  rw [hthreads] at hu
  by_cases hj : j = i
  · rw [hj, Function.update_self] at hu
    rw [hj]
    exact ThreadOrigin.old ht (hnew u hu)
  · rw [Function.update_of_ne hj] at hu
    exact ThreadOrigin.old hu rfl

theorem Step.threadOrigin {cfg : CacheConfig} {s s' : Sys value} {l : Label value} {j : Nat}
    {u : Thread value} (h : Step cfg s l s') (hu : s'.threads j = some u) :
    ThreadOrigin s l s' j u := by
  have hmove : forall {i : Nat} {t v : Thread value}, s.threads i = some t ->
      s'.threads = Function.update s.threads i (some v) -> t.role = v.role ->
      ThreadOrigin s l s' j u := by
    intro i t v ht hthreads hrole
    refine threadOrigin_update ht ?_ hthreads hu
    intro w hw
    cases hw
    exact hrole
  cases h with
  | tick _ => exact ThreadOrigin.old hu rfl
  | invoke =>
      rw [Sys.addThread_threads] at hu
      by_cases hj : j = s.nextThread
      · rw [hj, Function.update_self] at hu
        cases hu
        exact ThreadOrigin.invoked rfl hj rfl rfl
      · rw [Function.update_of_ne hj] at hu
        exact ThreadOrigin.old hu rfl
  | readClock ht => exact hmove ht rfl rfl
  | readEntry ht => exact hmove ht rfl rfl
  | fresh ht _ => exact hmove ht rfl rfl
  | @stale i endpoint suffix now e s' ht _ hguard =>
      cases hguard with
      | already _ => exact hmove ht rfl rfl
      | spawn _ =>
          rw [Sys.enterRefresh_threads] at hu
          by_cases hj : j = s.nextThread
          · have hnew := hu
            rw [hj] at hnew
            have heq := (Function.update_self s.nextThread _ _).symm.trans hnew
            cases heq
            exact ThreadOrigin.spawned ⟨i, rfl, ht⟩ hj rfl rfl
          · have hold := (Function.update_of_ne hj _ _).symm.trans hu
            rw [Sys.setThread_threads] at hold
            by_cases hji : j = i
            · rw [hji, Function.update_self] at hold
              cases hold
              rw [hji]
              exact ThreadOrigin.old ht rfl
            · rw [Function.update_of_ne hji] at hold
              exact ThreadOrigin.old hold rfl
  | @block i endpoint suffix now entry mid f ht _ hjoin =>
      have hset : (mid.setThread i (.call endpoint suffix (.waiting now entry f))).threads =
          Function.update s.threads i
            (some (.call endpoint suffix (.waiting now entry f))) := by
        rw [Sys.setThread_threads, hjoin.frame.right.left]
      exact hmove ht hset rfl
  | wake ht _ => exact hmove ht rfl rfl
  | @refreshDo i key mid f ht hjoin =>
      have hset : (mid.setThread i (.refresh key (.waiting f))).threads =
          Function.update s.threads i (some (.refresh key (.waiting f))) := by
        rw [Sys.setThread_threads, hjoin.frame.right.left]
      exact hmove ht hset rfl
  | refreshWake ht _ => exact hmove ht rfl rfl
  | refreshDelete ht =>
      refine threadOrigin_update ht ?_ rfl hu
      intro v hv
      cases hv
  | answer _ => exact ThreadOrigin.old hu rfl
  | storeFetched _ => exact ThreadOrigin.old hu rfl
  | forgetStored _ => exact ThreadOrigin.old hu rfl
  | forgetFailed _ => exact ThreadOrigin.old hu rfl

theorem Step.nextThread_le {cfg : CacheConfig} {s s' : Sys value} {l : Label value}
    (h : Step cfg s l s') : s.nextThread <= s'.nextThread := by
  cases h with
  | invoke => exact Nat.le_succ _
  | stale _ _ hguard =>
      cases hguard with
      | already _ => exact Nat.le_refl _
      | spawn _ => exact Nat.le_succ _
  | @block i endpoint suffix now entry mid f _ _ hjoin =>
      show s.nextThread <= mid.nextThread
      rw [hjoin.frame.right.right.left]
  | @refreshDo i key mid f _ hjoin =>
      show s.nextThread <= mid.nextThread
      rw [hjoin.frame.right.right.left]
  | _ => exact Nat.le_refl _

theorem Joined.fetchOrigin {s mid s' : Sys value} {l : Label value} {t : Thread value} {g f : Nat}
    {d : Fetch value} (hjoin : Joined s t.role.key mid g) (hacts : ActsAs s l t)
    (hfetches : s'.fetches = mid.fetches) (hnext : s'.nextFetch = mid.nextFetch)
    (hd : s'.fetches f = some d) : FetchOrigin s l s' f d := by
  rw [hfetches] at hd
  cases hjoin with
  | join _ => exact FetchOrigin.old hd rfl (Advance.refl _)
  | start hfree =>
      rw [Sys.startFetch_fetches] at hd
      by_cases hf : f = s.nextFetch
      · rw [hf, Function.update_self] at hd
        cases hd
        exact FetchOrigin.started hacts hf hnext hfree rfl
      · rw [Function.update_of_ne hf] at hd
        exact FetchOrigin.old hd rfl (Advance.refl _)

theorem fetchOrigin_update {s s' : Sys value} {l : Label value} {f g : Nat}
    {c c' d : Fetch value} (hc : s.fetches g = some c)
    (hfetches : s'.fetches = Function.update s.fetches g (some c')) (hkey : c'.key = c.key)
    (hadv : Advance c.phase c'.phase) (hd : s'.fetches f = some d) : FetchOrigin s l s' f d := by
  rw [hfetches] at hd
  by_cases hf : f = g
  · rw [hf, Function.update_self] at hd
    cases hd
    rw [hf]
    exact FetchOrigin.old hc hkey hadv
  · rw [Function.update_of_ne hf] at hd
    exact FetchOrigin.old hd rfl (Advance.refl _)

theorem Step.fetchOrigin {cfg : CacheConfig} {s s' : Sys value} {l : Label value} {f : Nat}
    {d : Fetch value} (h : Step cfg s l s') (hd : s'.fetches f = some d) :
    FetchOrigin s l s' f d := by
  cases h with
  | stale _ _ hguard =>
      rw [hguard.frame.left] at hd
      exact FetchOrigin.old hd rfl (Advance.refl _)
  | @block i endpoint suffix now entry mid g ht _ hjoin =>
      exact Joined.fetchOrigin (t := .call endpoint suffix (.copied now entry)) hjoin
        ⟨i, rfl, ht⟩ rfl rfl hd
  | @refreshDo i key mid g ht hjoin =>
      exact Joined.fetchOrigin (t := .refresh key .started) hjoin ⟨i, rfl, ht⟩ rfl rfl hd
  | answer hf => exact fetchOrigin_update hf rfl rfl (Advance.answer _) hd
  | storeFetched hf => exact fetchOrigin_update hf rfl rfl (Advance.store _) hd
  | forgetStored hf => exact fetchOrigin_update hf rfl rfl (Advance.succeed _) hd
  | forgetFailed hf => exact fetchOrigin_update hf rfl rfl (Advance.fail _) hd
  | _ => exact FetchOrigin.old hd rfl (Advance.refl _)

end Fleet
end LodelineManager
