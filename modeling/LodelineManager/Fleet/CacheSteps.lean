import LodelineManager.Fleet.Cache

/-!
# What a step of the cache can do

Every step is one of a few moves, with its guard.  Fetches only ever advance, so
what a thread has learnt about a fetch stays true while others move.
-/

namespace LodelineManager
namespace Fleet

open Foundation

variable {value : Type}

/-- The outcome of {lit}`sf.Do` up to where it blocks. -/
inductive Joined (s : Sys value) (key : String) : Sys value -> Nat -> Prop where
  | join {f : Nat} : s.group key = some f -> Joined s key s f
  | start : s.group key = none -> Joined s key (s.startFetch key) s.nextFetch

theorem joined_joinOrStart (s : Sys value) (key : String) :
    Joined s key (s.joinOrStart key).1 (s.joinOrStart key).2 := by
  unfold Sys.joinOrStart
  cases h : s.group key with
  | some f => exact Joined.join h
  | none => exact Joined.start h

/-- The outcome of the guard that caps refreshes at one for a key. -/
inductive Guarded (s : Sys value) (key : String) : Sys value -> Prop where
  | already : s.refreshing key = true -> Guarded s key s
  | spawn : s.refreshing key = false -> Guarded s key (s.enterRefresh key)

theorem guarded_spawnRefresh (s : Sys value) (key : String) :
    Guarded s key (s.spawnRefresh key) := by
  unfold Sys.spawnRefresh
  cases h : s.refreshing key with
  | true => exact Guarded.already h
  | false => exact Guarded.spawn h

/-- The age at which a policy no longer serves an entry. -/
def TooStale (pol : CachePolicy) (now : Int) (e : Copied value) : Prop :=
  pol.ttl <= ageOf now e.fetchedAt ∧ pol.maxStale <= ageOf now e.fetchedAt

/-- The ages at which a policy serves an entry at once. -/
def Servable (pol : CachePolicy) (now : Int) (e : Copied value) : Prop :=
  ageOf now e.fetchedAt < pol.ttl ∨ ageOf now e.fetchedAt < pol.maxStale

def served (now : Int) (e : Copied value) : Return value :=
  { now := now, entry := some e, waitedOn := none, result := .ok e.ptr }

inductive Step (cfg : CacheConfig) (s : Sys value) : Label value -> Sys value -> Prop where
  | tick {clock : Int} : s.clock <= clock -> Step cfg s (.tick clock) { s with clock := clock }
  | invoke {endpoint suffix : String} :
      Step cfg s (.invoke endpoint suffix) (s.addThread (.call endpoint suffix .started))
  | readClock {i : Nat} {endpoint suffix : String} :
      s.threads i = some (.call endpoint suffix .started) ->
      Step cfg s (.readClock i) (s.setThread i (.call endpoint suffix (.clocked s.clock)))
  | readEntry {i : Nat} {endpoint suffix : String} {now : Int} :
      s.threads i = some (.call endpoint suffix (.clocked now)) ->
      Step cfg s (.readEntry i) (s.setThread i (.call endpoint suffix (.copied now
        ((s.store.lookup (cacheKey endpoint suffix)).map
          (fun node => { ptr := node.val, fetchedAt := node.fetchedAt })))))
  | fresh {i : Nat} {endpoint suffix : String} {now : Int} {e : Copied value} :
      s.threads i = some (.call endpoint suffix (.copied now (some e))) ->
      Servable (cfg.policyFor endpoint) now e ->
      Step cfg s (.act i) (s.setThread i (.call endpoint suffix (.returned (served now e))))
  | stale {i : Nat} {endpoint suffix : String} {now : Int} {e : Copied value} {s' : Sys value} :
      s.threads i = some (.call endpoint suffix (.copied now (some e))) ->
      Servable (cfg.policyFor endpoint) now e ->
      Guarded (s.setThread i (.call endpoint suffix (.returned (served now e))))
        (cacheKey endpoint suffix) s' ->
      Step cfg s (.act i) s'
  | block {i : Nat} {endpoint suffix : String} {now : Int} {entry : Option (Copied value)}
      {s' : Sys value} {f : Nat} :
      s.threads i = some (.call endpoint suffix (.copied now entry)) ->
      (forall e, entry = some e -> TooStale (cfg.policyFor endpoint) now e) ->
      Joined s (cacheKey endpoint suffix) s' f ->
      Step cfg s (.act i) (s'.setThread i (.call endpoint suffix (.waiting now entry f)))
  | wake {i : Nat} {endpoint suffix : String} {now : Int} {entry : Option (Copied value)}
      {f : Nat} {key : String} {r : Except GoErr value} :
      s.threads i = some (.call endpoint suffix (.waiting now entry f)) ->
      s.fetches f = some ⟨key, .done r⟩ ->
      Step cfg s (.wake i) (s.setThread i (.call endpoint suffix (.returned
        { now := now, entry := entry, waitedOn := some f, result := afterDo entry f r })))
  | refreshDo {i : Nat} {key : String} {s' : Sys value} {f : Nat} :
      s.threads i = some (.refresh key .started) ->
      Joined s key s' f ->
      Step cfg s (.refreshDo i) (s'.setThread i (.refresh key (.waiting f)))
  | refreshWake {i : Nat} {key key' : String} {f : Nat} {r : Except GoErr value} :
      s.threads i = some (.refresh key (.waiting f)) ->
      s.fetches f = some ⟨key', .done r⟩ ->
      Step cfg s (.refreshWake i) (s.setThread i (.refresh key .ending))
  | refreshDelete {i : Nat} {key : String} :
      s.threads i = some (.refresh key .ending) ->
      Step cfg s (.refreshDelete i) (s.leaveRefresh i key)
  | answer {f : Nat} {key : String} {r : Except GoErr value} :
      s.fetches f = some ⟨key, .running⟩ ->
      Step cfg s (.answer f r) (s.setFetch f ⟨key, .answered r⟩)
  | storeFetched {f : Nat} {key : String} {v : value} :
      s.fetches f = some ⟨key, .answered (.ok v)⟩ ->
      Step cfg s (.storeFetched f) (s.storeFetch cfg.maxEntries f key v)
  | forgetStored {f : Nat} {key : String} {v : value} :
      s.fetches f = some ⟨key, .stored v⟩ ->
      Step cfg s (.forget f) (s.forgetFetch f key (.ok v))
  | forgetFailed {f : Nat} {key : String} {err : GoErr} :
      s.fetches f = some ⟨key, .answered (.error err)⟩ ->
      Step cfg s (.forget f) (s.forgetFetch f key (.error err))

theorem step_act {cfg : CacheConfig} {s : Sys value} {i : Nat} {endpoint suffix : String}
    {now : Int} {entry : Option (Copied value)}
    (ht : s.threads i = some (.call endpoint suffix (.copied now entry))) :
    Step cfg s (.act i) (s.serveOrFetch cfg i endpoint suffix now entry) := by
  unfold Sys.serveOrFetch
  cases entry with
  | none =>
      exact Step.block ht (fun e he => by cases he) (joined_joinOrStart s _)
  | some e =>
      simp only [Sys.freshness]
      by_cases hfresh : ageOf now e.fetchedAt < (cfg.policyFor endpoint).ttl
      · rw [if_pos hfresh]
        exact Step.fresh ht (Or.inl hfresh)
      · rw [if_neg hfresh]
        by_cases hstale : ageOf now e.fetchedAt < (cfg.policyFor endpoint).maxStale
        · rw [if_pos hstale]
          exact Step.stale ht (Or.inr hstale) (guarded_spawnRefresh _ _)
        · rw [if_neg hstale]
          refine Step.block ht ?_ (joined_joinOrStart s _)
          intro e' he'
          cases he'
          exact ⟨Int.not_lt.mp hfresh, Int.not_lt.mp hstale⟩

theorem step_thread {cfg : CacheConfig} {s s' : Sys value} {i : Nat} {l : Label value}
    {t : Thread value} (hl : l.thread? = some i) (ht : s.threads i = some t)
    (h : threadStep cfg s i l t = some s') : Step cfg s l s' := by
  unfold threadStep at h
  split at h
  · cases hl
    cases h
    exact Step.readClock ht
  · cases hl
    cases h
    exact Step.readEntry ht
  · cases hl
    cases h
    exact step_act ht
  · cases hl
    split at h
    · rename_i hf
      cases h
      exact Step.wake ht hf
    · cases h
  · cases hl
    cases h
    exact Step.refreshDo ht (joined_joinOrStart s _)
  · cases hl
    split at h
    · rename_i hf
      cases h
      exact Step.refreshWake ht hf
    · cases h
  · cases hl
    cases h
    exact Step.refreshDelete ht
  · cases h

theorem step_fetch {cfg : CacheConfig} {s s' : Sys value} {f : Nat} {l : Label value}
    {c : Fetch value} (hl : l.fetch? = some f) (hc : s.fetches f = some c)
    (h : fetchStep cfg s f l c = some s') : Step cfg s l s' := by
  unfold fetchStep at h
  split at h
  · cases hl
    cases h
    exact Step.answer hc
  · cases hl
    cases h
    exact Step.storeFetched hc
  · cases hl
    cases h
    exact Step.forgetStored hc
  · cases hl
    cases h
    exact Step.forgetFailed hc
  · cases h

theorem step_cases {cfg : CacheConfig} {s s' : Sys value} {l : Label value}
    (h : step cfg s l = some s') : Step cfg s l s' := by
  unfold step at h
  split at h
  · split at h
    · rename_i hle
      cases h
      exact Step.tick hle
    · cases h
  · cases h
    exact Step.invoke
  · split at h
    · rename_i hl
      split at h
      · rename_i ht
        exact step_thread hl ht h
      · cases h
    · rename_i hl
      split at h
      · rename_i hc
        exact step_fetch hl hc h
      · cases h
    · cases h

end Fleet
end LodelineManager
