import LodelineManager.Fleet.CacheKeys
import LodelineManager.Fleet.CacheMonotone
import Mathlib.Data.List.Induction

/-!
# Upstream load of one key

A reader looks at the age of an entry and enters single-flight in two steps.  While
it is between them, another fetch of its key can be stored and forgotten, and then
the reader starts one more fetch although the cache has a fresh entry.  Beside the
client runs an observer that notes which entry every reader has gone by.
-/

namespace LodelineManager
namespace Fleet

open Foundation

/-!
## What a step does to the entry of a key
-/

section

variable {value : Type}

theorem Step.clock_le {cfg : CacheConfig} {s s' : Sys value} {l : Label value}
    (h : Step cfg s l s') : s.clock <= s'.clock := by
  cases h with
  | tick hle => exact hle
  | stale _ _ hguard =>
      cases hguard with
      | already _ => exact Int.le_refl _
      | spawn _ => exact Int.le_refl _
  | @block i endpoint suffix now entry mid f _ _ hjoin =>
      show s.clock <= mid.clock
      rw [hjoin.frame.right.right.right.right]
  | @refreshDo i key mid f _ hjoin =>
      show s.clock <= mid.clock
      rw [hjoin.frame.right.right.right.right]
  | _ => exact Int.le_refl _

def cachedCopy (s : Sys value) (key : String) : Option (Copied value) :=
  (s.store.lookup key).map (fun node => { ptr := node.val, fetchedAt := node.fetchedAt })

def storesKey (key : String) (s : Sys value) : Label value -> Bool
  | .storeFetched f =>
      match s.fetches f with
      | some c => decide (c.key = key)
      | none => false
  | _ => false

theorem storesKey_iff {key : String} {s : Sys value} {l : Label value} :
    storesKey key s l = true <-> exists f, l = .storeFetched f ∧ FetchOf s key f := by
  cases l with
  | storeFetched f =>
      constructor
      · intro h
        unfold storesKey at h
        cases hc : s.fetches f with
        | none =>
            simp only [hc] at h
            cases h
        | some c =>
            simp only [hc] at h
            exact ⟨f, rfl, c, hc, of_decide_eq_true h⟩
      · intro h
        rcases h with ⟨g, heq, c, hc, hkey⟩
        cases heq
        simp only [storesKey, hc]
        exact decide_eq_true hkey
  | _ =>
      constructor
      · intro h
        cases h
      · intro h
        rcases h with ⟨g, heq, _⟩
        cases heq

theorem Step.lookup {cfg : CacheConfig} {s s' : Sys value} {l : Label value} {key : String}
    {node : CacheNode (Fetched value)} (h : Step cfg s l s')
    (hnode : s'.store.lookup key = some node) :
    storesKey key s l = true ∧ node.fetchedAt = s.clock ∨
      storesKey key s l = false ∧ s.store.lookup key = some node := by
  cases h with
  | stale _ _ hguard =>
      rw [hguard.frame.right.left] at hnode
      exact Or.inr ⟨rfl, hnode⟩
  | @block i endpoint suffix now entry mid f _ _ hjoin =>
      change mid.store.lookup key = some node at hnode
      rw [hjoin.frame.left] at hnode
      exact Or.inr ⟨rfl, hnode⟩
  | @refreshDo i key' mid f _ hjoin =>
      change mid.store.lookup key = some node at hnode
      rw [hjoin.frame.left] at hnode
      exact Or.inr ⟨rfl, hnode⟩
  | @storeFetched f key' v hf =>
      rw [Sys.storeFetch_store] at hnode
      rcases CacheStore.lookup_store hnode with ⟨hkey, heq⟩ | ⟨hkey, hold⟩
      · rw [heq]
        exact Or.inl ⟨storesKey_iff.mpr ⟨f, rfl, _, hf, hkey.symm⟩, rfl⟩
      · refine Or.inr ⟨?_, hold⟩
        simp only [storesKey, hf]
        exact decide_eq_false (fun heq => hkey heq.symm)
  | _ => exact Or.inr ⟨rfl, hnode⟩

/-- The step starts a fetch of the key. -/
def Starts (key : String) (s s' : Sys value) : Prop :=
  s'.nextFetch = s.nextFetch + 1 ∧ exists d, s'.fetches s.nextFetch = some d ∧ d.key = key

/-- A fetch is started by a reader that has found nothing to serve, or by the refresh
goroutine of a stale reader. -/
inductive Starter (cfg : CacheConfig) (key : String) : Thread value -> Prop where
  | call {endpoint suffix : String} {now : Int} {entry : Option (Copied value)} :
      (forall e, entry = some e -> TooStale (cfg.policyFor endpoint) now e) ->
      cacheKey endpoint suffix = key -> Starter cfg key (.call endpoint suffix (.copied now entry))
  | refresh : Starter cfg key (.refresh key .started)

/-- The thread enters single-flight for the key and finds no fetch there. -/
def EntersAlone (cfg : CacheConfig) (key : String) (s : Sys value) (i : Nat) : Prop :=
  s.group key = none ∧ exists t, s.threads i = some t ∧ Starter cfg key t

theorem Step.entersAlone {cfg : CacheConfig} {s s' : Sys value} {l : Label value} {key : String}
    (h : Step cfg s l s') (hstarts : Starts key s s') :
    exists i, l.thread? = some i ∧ EntersAlone cfg key s i := by
  rcases hstarts with ⟨hnext, d, hd, hkey⟩
  have hsame : s'.nextFetch ≠ s.nextFetch := by
    rw [hnext]
    exact Nat.succ_ne_self _
  cases h with
  | stale _ _ hguard => exact absurd hguard.frame.right.right.left hsame
  | @block i endpoint suffix now entry mid f ht hage hjoin =>
      cases hjoin with
      | join _ => exact absurd rfl hsame
      | start hfree =>
          have heq := (Function.update_self s.nextFetch _ _).symm.trans hd
          cases heq
          change cacheKey endpoint suffix = key at hkey
          rw [hkey] at hfree
          exact ⟨i, rfl, hfree, _, ht, Starter.call hage hkey⟩
  | @refreshDo i key' mid f ht hjoin =>
      cases hjoin with
      | join _ => exact absurd rfl hsame
      | start hfree =>
          have heq := (Function.update_self s.nextFetch _ _).symm.trans hd
          cases heq
          change key' = key at hkey
          rw [hkey] at ht hfree
          exact ⟨i, rfl, hfree, _, ht, Starter.refresh⟩
  | _ => exact absurd rfl hsame

theorem aged_of_spawn {cfg : CacheConfig} {s s' : Sys value} {i : Nat}
    {endpoint suffix : String} {now : Int} {e : Copied value}
    (ht : s.threads i = some (.call endpoint suffix (.copied now (some e))))
    (hstep : step cfg s (.act i) = some s') (hspawn : s'.nextThread ≠ s.nextThread) :
    (cfg.policyFor endpoint).ttl <= ageOf now e.fetchedAt := by
  by_contra hyoung
  apply hspawn
  have hfresh : Sys.freshness (cfg.policyFor endpoint) (ageOf now e.fetchedAt) = .fresh :=
    if_pos (Int.not_le.mp hyoung)
  simp only [step, Label.thread?, ht, threadStep, Sys.serveOrFetch, hfresh] at hstep
  cases hstep
  rfl

theorem expiry_le {ttl now clock fetchedAt : Int} (hnow : now <= clock)
    (hstamp : fetchedAt <= clock) (hage : ttl <= ageOf now fetchedAt) :
    fetchedAt + ttl <= clock := by
  unfold ageOf at hage
  omega

end

/-!
## The observer
-/

variable {T : Method -> Type}

/-- The client, and for every thread the copy that its reader has gone by. -/
structure Observed (T : Method -> Type) where
  client : CachingClient T
  seen : Nat -> Option (Copied (Answer T))

namespace Observed

def init (T : Method -> Type) (clock : Int) : Observed T :=
  { client := CachingClient.init T clock, seen := fun _ => none }

/-- A reader sees the entry when it copies it; a refresh goes by what the reader that
spawns it has seen. -/
def observe (o : Observed T) : ClientLabel T -> Nat -> Option (Copied (Answer T))
  | .internal (.readEntry i) =>
      match o.client.sys.threads i with
      | some t => Function.update o.seen i (cachedCopy o.client.sys t.role.key)
      | none => o.seen
  | .internal l => Function.update o.seen o.client.sys.nextThread (l.thread?.bind o.seen)
  | .invoke _ => o.seen

def step (cfg : CacheConfig) (o : Observed T) (l : ClientLabel T) : Option (Observed T) :=
  (CachingClient.step cfg o.client l).map (fun c => { client := c, seen := o.observe l })

theorem step_client {cfg : CacheConfig} {o o' : Observed T} {l : ClientLabel T}
    (h : step cfg o l = some o') :
    CachingClient.step cfg o.client l = some o'.client ∧ o'.seen = o.observe l := by
  rcases Option.map_eq_some_iff.mp h with ⟨c, hc, heq⟩
  rw [← heq]
  exact ⟨hc, rfl⟩

theorem run_of_client {cfg : CacheConfig} {o : Observed T} {c : CachingClient T}
    {labels : List (ClientLabel T)}
    (h : runSteps (CachingClient.step cfg) o.client labels = some c) :
    exists seen, runSteps (step cfg) o labels = some { client := c, seen := seen } := by
  induction labels generalizing o with
  | nil =>
      cases h
      exact ⟨o.seen, rfl⟩
  | cons l rest ih =>
      rcases runSteps_cons h with ⟨mid, hmid, hrest⟩
      have hstep : step cfg o l = some { client := mid, seen := o.observe l } := by
        unfold step
        rw [hmid]
        rfl
      rw [runSteps_cons_of_step hstep]
      exact ih hrest

/-!
## What the threads have seen
-/

/-- What a thread on its way into single-flight has seen. -/
def ThreadSeen (cfg : CacheConfig) (o : Observed T) (i : Nat) : Thread (Answer T) -> Prop
  | .call _ _ (.clocked now) => now <= o.client.sys.clock
  | .call _ _ (.copied now entry) => now <= o.client.sys.clock ∧ o.seen i = entry
  | .refresh _ .started =>
      exists c e now, o.client.callOf i = some c ∧ o.seen i = some e ∧
        now <= o.client.sys.clock ∧ (cfg.policyFor c.endpoint).ttl <= ageOf now e.fetchedAt
  | _ => True

structure Sighted (cfg : CacheConfig) (o : Observed T) : Prop where
  tracked : CachingClient.Tracked o.client
  orderly : Orderly o.client.sys
  stamped : forall key node, o.client.sys.store.lookup key = some node ->
    node.fetchedAt <= o.client.sys.clock
  threads : forall i t, o.client.sys.threads i = some t -> ThreadSeen cfg o i t

theorem sighted_init (cfg : CacheConfig) (clock : Int) : Sighted cfg (init T clock) where
  tracked := CachingClient.tracked_init clock
  orderly := orderly_init clock
  stamped := by
    intro key node h
    exact absurd ((lookup_init (Answer T) clock key).symm.trans h) nofun
  threads := by
    intro i t h
    cases h

theorem ThreadSeen.mono {cfg : CacheConfig} {o o' : Observed T} {i : Nat}
    {t : Thread (Answer T)} (hclock : o.client.sys.clock <= o'.client.sys.clock)
    (hcall : o'.client.callOf i = o.client.callOf i) (hseen : o'.seen i = o.seen i)
    (h : ThreadSeen cfg o i t) : ThreadSeen cfg o' i t := by
  cases t with
  | call endpoint suffix phase =>
      cases phase with
      | started => trivial
      | clocked now => exact Int.le_trans h hclock
      | copied now entry => exact ⟨Int.le_trans h.left hclock, hseen.trans h.right⟩
      | waiting now entry f => trivial
      | returned r => trivial
  | refresh key phase =>
      cases phase with
      | started =>
          rcases h with ⟨c, e, now, hc, he, hnow, hage⟩
          exact ⟨c, e, now, hcall.trans hc, hseen.trans he, Int.le_trans hnow hclock, hage⟩
      | waiting f => trivial
      | ending => trivial

theorem observe_old {o : Observed T} {l : Label (Answer T)} {j : Nat}
    (hj : j < o.client.sys.nextThread) (hread : l ≠ .readEntry j) :
    o.observe (.internal l) j = o.seen j := by
  cases l with
  | readEntry i =>
      have hji : j ≠ i := by
        intro heq
        rw [heq] at hread
        exact hread rfl
      simp only [observe]
      cases o.client.sys.threads i with
      | none => rfl
      | some t => exact Function.update_of_ne hji _ _
  | _ => exact Function.update_of_ne (Nat.ne_of_lt hj) _ _

def after (o : Observed T) (l : Label (Answer T)) (sys : Sys (Answer T)) :
    Observed T :=
  { client := o.client.capture (l.thread?.bind o.client.callOf) sys,
    seen := o.observe (.internal l) }

section

variable {cfg : CacheConfig} {o : Observed T} {l : Label (Answer T)} {sys : Sys (Answer T)}

theorem Sighted.keeps (h : Sighted cfg o) (hstep : Step cfg o.client.sys l sys) {j : Nat}
    {u : Thread (Answer T)} (hu : o.client.sys.threads j = some u) (hread : l ≠ .readEntry j) :
    ThreadSeen cfg (o.after l sys) j u := by
  have hj := h.tracked.threadNumbers j u hu
  exact ThreadSeen.mono hstep.clock_le (CachingClient.capture_callOf hj) (observe_old hj hread)
    (h.threads j u hu)

theorem Sighted.moves (h : Sighted cfg o) (hstep : Step cfg o.client.sys l sys) (i : Nat)
    (new : Option (Thread (Answer T)))
    (hthreads : sys.threads = Function.update o.client.sys.threads i new)
    (hread : forall k, l = .readEntry k -> k = i)
    (hnew : forall u, new = some u -> ThreadSeen cfg (o.after l sys) i u) :
    forall j u, sys.threads j = some u -> ThreadSeen cfg (o.after l sys) j u := by
  intro j u hu
  rw [hthreads] at hu
  by_cases hj : j = i
  · rw [hj, Function.update_self] at hu
    rw [hj]
    exact hnew u hu
  · rw [Function.update_of_ne hj] at hu
    exact h.keeps hstep hu (fun hl => hj (hread j hl))

theorem Sighted.spawns (h : Sighted cfg o) {i : Nat} {endpoint suffix : String} {now : Int}
    {e : Copied (Answer T)} (phase : Thread (Answer T))
    (ht : o.client.sys.threads i = some (.call endpoint suffix (.copied now (some e))))
    (hstep : Fleet.step cfg o.client.sys (.act i) =
      some ((o.client.sys.setThread i phase).enterRefresh (cacheKey endpoint suffix))) :
    ThreadSeen cfg
      (o.after (.act i) ((o.client.sys.setThread i phase).enterRefresh (cacheKey endpoint suffix)))
      o.client.sys.nextThread (.refresh (cacheKey endpoint suffix) .started) := by
  rcases h.tracked.threads i _ ht with ⟨c, hc, hcall | hrefresh⟩
  · injection hcall with hendpoint _
    have hage := aged_of_spawn ht hstep (Nat.succ_ne_self _)
    rw [hendpoint] at hage
    have hcopied := h.threads i _ ht
    refine ⟨c, e, now, ?_, ?_, hcopied.left, hage⟩
    · exact (Function.update_self o.client.sys.nextThread _ _).trans hc
    · exact (Function.update_self o.client.sys.nextThread _ _).trans hcopied.right
  · cases hrefresh

theorem Sighted.threads_step (h : Sighted cfg o) (hstep : Fleet.step cfg o.client.sys l = some sys)
    (hinvoke : forall endpoint suffix, l ≠ .invoke endpoint suffix) :
    forall j u, sys.threads j = some u -> ThreadSeen cfg (o.after l sys) j u := by
  have hmoves := step_cases hstep
  have hkeep := @Sighted.keeps _ _ _ _ _ h hmoves
  have hmove := h.moves hmoves
  cases hmoves with
  | tick _ => exact fun j u hu => hkeep hu nofun
  | invoke => exact absurd rfl (hinvoke _ _)
  | @readClock i endpoint suffix ht =>
      refine hmove i (some (.call endpoint suffix (.clocked o.client.sys.clock))) rfl nofun ?_
      intro u hu
      cases hu
      exact Int.le_refl _
  | @readEntry i endpoint suffix now ht =>
      refine hmove i _ rfl (fun k hk => by cases hk; rfl) ?_
      intro u hu
      cases hu
      refine ⟨h.threads i _ ht, ?_⟩
      simp only [after, observe, ht]
      exact Function.update_self _ _ _
  | @fresh i endpoint suffix now e ht _ =>
      refine hmove i (some (.call endpoint suffix (.returned (served now e)))) rfl nofun ?_
      intro u hu
      cases hu
      trivial
  | @stale i endpoint suffix now e _ ht _ hguard =>
      cases hguard with
      | already _ =>
          refine hmove i (some (.call endpoint suffix (.returned (served now e)))) rfl nofun ?_
          intro u hu
          cases hu
          trivial
      | spawn _ =>
          intro j u hu
          rw [Sys.enterRefresh_threads] at hu
          by_cases hj : j = o.client.sys.nextThread
          · rw [hj] at hu ⊢
            have hspawned := (Function.update_self o.client.sys.nextThread _ _).symm.trans hu
            cases hspawned
            exact h.spawns _ ht hstep
          · have hold := (Function.update_of_ne hj _ _).symm.trans hu
            rw [Sys.setThread_threads] at hold
            by_cases hji : j = i
            · rw [hji, Function.update_self] at hold
              cases hold
              trivial
            · rw [Function.update_of_ne hji] at hold
              exact hkeep hold nofun
  | @block i endpoint suffix now entry mid f ht _ hjoin =>
      refine hmove i (some (.call endpoint suffix (.waiting now entry f)))
        (hjoin.setThread_threads _ _) nofun ?_
      intro u hu
      cases hu
      trivial
  | @wake i endpoint suffix now entry f key r ht _ =>
      refine hmove i _ rfl nofun ?_
      intro u hu
      cases hu
      trivial
  | @refreshDo i key mid f ht hjoin =>
      refine hmove i (some (.refresh key (.waiting f))) (hjoin.setThread_threads _ _) nofun ?_
      intro u hu
      cases hu
      trivial
  | @refreshWake i key key' f r ht _ =>
      refine hmove i (some (.refresh key .ending)) rfl nofun ?_
      intro u hu
      cases hu
      trivial
  | @refreshDelete i key ht => exact hmove i none rfl nofun (fun u hu => by cases hu)
  | answer _ => exact fun j u hu => hkeep hu nofun
  | storeFetched _ => exact fun j u hu => hkeep hu nofun
  | forgetStored _ => exact fun j u hu => hkeep hu nofun
  | forgetFailed _ => exact fun j u hu => hkeep hu nofun

end

theorem Sighted.step {cfg : CacheConfig} {o o' : Observed T} {l : ClientLabel T}
    (h : Sighted cfg o) (hstep : step cfg o l = some o') : Sighted cfg o' := by
  rcases step_client hstep with ⟨hclient, hseen⟩
  have hmoves := step_cases (CachingClient.step_base hclient)
  refine ⟨h.tracked.step hclient, hmoves.orderly h.orderly, ?_, ?_⟩
  · intro key node hnode
    rcases hmoves.lookup hnode with ⟨_, hnow⟩ | ⟨_, hold⟩
    · rw [hnow]
      exact hmoves.clock_le
    · exact Int.le_trans (h.stamped key node hold) hmoves.clock_le
  · intro j u hu
    cases l with
    | invoke c =>
        rcases CachingClient.step_invoke hclient with ⟨sys, hsys, heq⟩
        rw [heq] at hu
        cases hsys
        rw [CachingClient.capture_sys, Sys.addThread_threads] at hu
        by_cases hj : j = o.client.sys.nextThread
        · rw [hj, Function.update_self] at hu
          cases hu
          trivial
        · rw [Function.update_of_ne hj] at hu
          refine ThreadSeen.mono hmoves.clock_le ?_ ?_ (h.threads j u hu)
          · rw [heq]
            exact CachingClient.capture_callOf (h.tracked.threadNumbers j u hu)
          · rw [hseen]
            rfl
    | internal l =>
        rcases CachingClient.step_internal hclient with ⟨hallows, sys, hsys, heq⟩
        have hinvoke : forall endpoint suffix, l ≠ .invoke endpoint suffix := by
          intro endpoint suffix hl
          rw [hl] at hallows
          cases hallows
        have ho : o' = o.after l sys := by
          unfold after
          rw [← heq, ← hseen]
        rw [ho] at hu ⊢
        exact h.threads_step hsys hinvoke j u hu

theorem sighted_run {cfg : CacheConfig} {clock : Int} {labels : List (ClientLabel T)}
    {o : Observed T} (hrun : runSteps (Observed.step cfg) (init T clock) labels = some o) :
    Sighted cfg o :=
  run_invariant (fun _ _ _ h hstep => h.step hstep) (sighted_init cfg clock) hrun

theorem endpoint_of_key {c c' : CachedCall} (h : c.key = c'.key) : c.endpoint = c'.endpoint := by
  rw [CachedCall.endpoint_eq, CachedCall.endpoint_eq, ((CachedCall.key_eq_iff c c').mp h).left]

theorem Sighted.starts {cfg : CacheConfig} {o : Observed T} {c : CachedCall} {i : Nat}
    {node : CacheNode (Fetched (Answer T))} (h : Sighted cfg o)
    (henters : EntersAlone cfg c.key o.client.sys i)
    (hnode : o.client.sys.store.lookup c.key = some node)
    (hseen : o.seen i = some { ptr := node.val, fetchedAt := node.fetchedAt }) :
    node.fetchedAt + (cfg.policyFor c.endpoint).ttl <= o.client.sys.clock := by
  rcases henters with ⟨_, t, ht, hstarter⟩
  rcases h.tracked.threads i t ht with ⟨c', hc', hfor⟩
  have hview := h.threads i t ht
  have hstamp := h.stamped c.key node hnode
  cases hstarter with
  | @call endpoint suffix now entry hage hkey =>
      rcases hfor with hcall | hrefresh
      · injection hcall with hendpoint hsuffix
        have hsame : c'.endpoint = c.endpoint := by
          apply endpoint_of_key
          rw [← hkey, hendpoint, hsuffix]
          rfl
        have hentry := hview.right.symm.trans hseen
        have haged := (hage _ hentry).left
        rw [hendpoint, hsame] at haged
        exact expiry_le hview.left hstamp haged
      · cases hrefresh
  | refresh =>
      rcases hview with ⟨c'', e, now, hc'', he, hnow, hage⟩
      rw [hc'] at hc''
      cases hc''
      rw [hseen] at he
      cases he
      rcases hfor with hcall | hrefresh
      · cases hcall
      · injection hrefresh with hkey
        rw [← endpoint_of_key hkey] at hage
        exact expiry_le hnow hstamp hage

end Observed

/-!
## The load of a key
-/

/-- Along the labels the key has been in the cache since a store at {lit}`t`, and has
been stored {lit}`n` more times since. -/
inductive CachedSince (cfg : CacheConfig) (clock : Int) (key : String) :
    List (ClientLabel T) -> Int -> Nat -> Prop where
  | stored {front : List (ClientLabel T)} {f : Nat} {s s' : CachingClient T} :
      runSteps (CachingClient.step cfg) (CachingClient.init T clock) front = some s ->
      FetchOf s.sys key f ->
      CachingClient.step cfg s (.internal (.storeFetched f)) = some s' ->
      (s'.sys.store.lookup key).isSome = true ->
      CachedSince cfg clock key (front ++ [.internal (.storeFetched f)]) s.sys.clock 0
  | later {front : List (ClientLabel T)} {l : ClientLabel T} {s s' : CachingClient T} {t : Int}
      {n : Nat} :
      CachedSince cfg clock key front t n ->
      runSteps (CachingClient.step cfg) (CachingClient.init T clock) front = some s ->
      CachingClient.step cfg s l = some s' -> (s'.sys.store.lookup key).isSome = true ->
      CachedSince cfg clock key (front ++ [l]) t (n + (storesKey key s.sys l.base).toNat)

/-- While the key of the call stays in the cache, no fetch of it starts before the
freshness window is over, and what is fetched for it is bounded by the time passed. -/
def LoadBounded (cfg : CacheConfig) (clock : Int) (c : CachedCall)
    (labels : List (ClientLabel T)) : Prop :=
  forall front s t n, front <+: labels ->
    runSteps (CachingClient.step cfg) (CachingClient.init T clock) front = some s ->
    CachedSince cfg clock c.key front t n ->
    t + n * (cfg.policyFor c.endpoint).ttl <= s.sys.clock ∧
    forall l s', front ++ [l] <+: labels -> CachingClient.step cfg s l = some s' ->
      Starts c.key s.sys s'.sys -> t + (cfg.policyFor c.endpoint).ttl <= s.sys.clock

/-- Whoever is about to start a fetch of the key goes by the entry that the cache holds. -/
def GoesByEntry (cfg : CacheConfig) (c : CachedCall) (o : Observed T) (l : ClientLabel T)
    (_ : Observed T) : Prop :=
  forall i, l.base.thread? = some i -> EntersAlone cfg c.key o.client.sys i ->
    forall node, o.client.sys.store.lookup c.key = some node ->
      o.seen i = some { ptr := node.val, fetchedAt := node.fetchedAt }

/-- No thread that starts a fetch of the key was overtaken by another one. -/
def NoneOvertaken (cfg : CacheConfig) (clock : Int) (c : CachedCall)
    (labels : List (ClientLabel T)) : Prop :=
  EveryStep (Observed.step cfg) (GoesByEntry cfg c) (Observed.init T clock) labels

theorem cachedSince_of_lookup {cfg : CacheConfig} {clock : Int} {key : String}
    {labels : List (ClientLabel T)} {s : CachingClient T} {node : CacheNode (Fetched (Answer T))}
    (hrun : runSteps (CachingClient.step cfg) (CachingClient.init T clock) labels = some s)
    (hnode : s.sys.store.lookup key = some node) :
    exists n, CachedSince cfg clock key labels node.fetchedAt n := by
  induction labels using List.reverseRecOn generalizing s with
  | nil =>
      cases hrun
      exact absurd ((lookup_init (Answer T) clock key).symm.trans hnode) nofun
  | append_singleton front l ih =>
      rcases runSteps_concat hrun with ⟨mid, hmid, hstep⟩
      have hsome : (s.sys.store.lookup key).isSome = true := by
        rw [hnode]
        rfl
      rcases (step_cases (CachingClient.step_base hstep)).lookup hnode with
        ⟨hstores, hnow⟩ | ⟨_, hold⟩
      · rcases storesKey_iff.mp hstores with ⟨f, hl, hf⟩
        cases l with
        | invoke c => cases hl
        | internal l =>
            change l = .storeFetched f at hl
            rw [hl] at hstep ⊢
            rw [hnow]
            exact ⟨0, CachedSince.stored hmid hf hstep hsome⟩
      · rcases ih hmid hold with ⟨n, hsince⟩
        exact ⟨_, CachedSince.later hsince hmid hstep hsome⟩

section

variable {value : Type}

/-- The fetch is for the key, and has neither stored a value nor returned. -/
def Unstored (s : Sys value) (key : String) (f : Nat) : Prop :=
  exists c, s.fetches f = some c ∧ c.key = key ∧
    (c.phase = .running ∨ exists r, c.phase = .answered r)

theorem Unstored.inFlight {s : Sys value} {key : String} {f : Nat} (h : Unstored s key f) :
    InFlight s key f := by
  rcases h with ⟨c, hc, hkey, hphase⟩
  refine ⟨c, hc, hkey, ?_⟩
  intro r hdone
  rw [hdone] at hphase
  rcases hphase with h1 | ⟨_, h1⟩ <;> cases h1

theorem unstored_of_store {cfg : CacheConfig} {s s' : Sys value} {key : String} {f : Nat}
    (hstep : Step cfg s (.storeFetched f) s') (hf : FetchOf s key f) : Unstored s key f := by
  cases hstep with
  | storeFetched hold =>
      rcases hf with ⟨c, hc, hkey⟩
      rw [hold] at hc
      cases hc
      exact ⟨_, hold, hkey, Or.inr ⟨_, rfl⟩⟩

theorem not_starts_of_store {cfg : CacheConfig} {s s' : Sys value} {f : Nat}
    (hstep : Step cfg s (.storeFetched f) s') : s'.nextFetch ≠ s.nextFetch + 1 := by
  cases hstep with
  | storeFetched _ => exact (Nat.succ_ne_self _).symm

theorem unstored_eq_stored {cfg : CacheConfig} {s s' : Sys value} {key : String} {f g : Nat}
    (h : Orderly s) (hstep : Step cfg s (.storeFetched f) s') (hf : FetchOf s key f)
    (hg : Unstored s key g) : (Label.storeFetched f : Label value) = .storeFetched g := by
  have hlive := h.live key g hg.inFlight
  rw [h.live key f (unstored_of_store hstep hf).inFlight] at hlive
  cases hlive
  rfl

theorem Step.unstored {cfg : CacheConfig} {s s' : Sys value} {l : Label value} {key : String}
    {f : Nat} (h : Step cfg s l s') (hf : Unstored s' key f) :
    Unstored s key f ∧ l ≠ .storeFetched f ∨ Starts key s s' := by
  rcases hf with ⟨d, hd, hkey, hphase⟩
  cases h.fetchOrigin hd with
  | @old c hc hsame hadv =>
      apply Or.inl
      constructor
      · refine ⟨c, hc, hsame.symm.trans hkey, ?_⟩
        rcases hphase with hrunning | ⟨r, hanswered⟩
        · rw [hrunning] at hadv
          cases hc' : c.phase <;> rw [hc'] at hadv <;> cases hadv
          exact Or.inl rfl
        · rw [hanswered] at hadv
          cases hc' : c.phase <;> rw [hc'] at hadv <;> cases hadv
          · exact Or.inl rfl
          · exact Or.inr ⟨r, rfl⟩
      · intro hl
        rw [hl] at h
        cases h with
        | storeFetched hold =>
            rw [Sys.storeFetch_fetches, Function.update_self] at hd
            cases hd
            rcases hphase with h1 | ⟨_, h1⟩ <;> cases h1
  | started _ hnew hnext _ heq =>
      rw [hnew] at hd
      exact Or.inr ⟨hnext, d, hd, hkey⟩

end

/-- No fetch of the key starts while its entry is in the freshness window. -/
def Spaced (cfg : CacheConfig) (clock : Int) (c : CachedCall)
    (labels : List (ClientLabel T)) : Prop :=
  forall front l s s', front ++ [l] <+: labels ->
    runSteps (CachingClient.step cfg) (CachingClient.init T clock) front = some s ->
    CachingClient.step cfg s l = some s' -> Starts c.key s.sys s'.sys ->
    forall node, s.sys.store.lookup c.key = some node ->
      node.fetchedAt + (cfg.policyFor c.endpoint).ttl <= s.sys.clock

theorem spaced_of_noneOvertaken {cfg : CacheConfig} {clock : Int} {c : CachedCall}
    {labels : List (ClientLabel T)} (h : NoneOvertaken cfg clock c labels) :
    Spaced cfg clock c labels := by
  intro front l s s' hfront hrun hstep hstarts node hnode
  rcases Observed.run_of_client (o := Observed.init T clock) hrun with ⟨seen, hobserved⟩
  have hnext : Observed.step cfg { client := s, seen := seen } l =
      some { client := s', seen := Observed.observe { client := s, seen := seen } l } := by
    unfold Observed.step
    rw [hstep]
    rfl
  rcases (step_cases (CachingClient.step_base hstep)).entersAlone hstarts with ⟨i, hi, henters⟩
  rcases hfront with ⟨back, hlabels⟩
  unfold NoneOvertaken at h
  rw [← hlabels, List.append_assoc] at h
  exact (Observed.sighted_run hobserved).starts henters hnode
    (everyStep_split h hobserved hnext i hi henters node hnode)

theorem orderly_of_run {cfg : CacheConfig} {clock : Int} {labels : List (ClientLabel T)}
    {s : CachingClient T}
    (hrun : runSteps (CachingClient.step cfg) (CachingClient.init T clock) labels = some s) :
    Orderly s.sys ∧
      forall key node, s.sys.store.lookup key = some node -> node.fetchedAt <= s.sys.clock := by
  rcases Observed.run_of_client (o := Observed.init T clock) hrun with ⟨seen, hobserved⟩
  have h := Observed.sighted_run hobserved
  exact ⟨h.orderly, h.stamped⟩

theorem none_unstored_of_store {cfg : CacheConfig} {s s' : Sys value} {key : String} {f g : Nat}
    (h : Orderly s) (hstep : Step cfg s (.storeFetched f) s') (hf : FetchOf s key f) :
    ¬ Unstored s' key g := by
  intro hg
  rcases hstep.unstored hg with ⟨hbefore, hne⟩ | hstarts
  · exact hne (unstored_eq_stored h hstep hf hbefore)
  · exact not_starts_of_store hstep hstarts.left

/-- The entry of a key since its first store: its stamp, and what the fetch that will
store it next has waited for. -/
theorem CachedSince.entry {cfg : CacheConfig} {clock : Int} {c : CachedCall}
    {labels front : List (ClientLabel T)} {s : CachingClient T} {t : Int} {n : Nat}
    (hspaced : Spaced cfg clock c labels) (h : CachedSince cfg clock c.key front t n)
    (hfront : front <+: labels)
    (hrun : runSteps (CachingClient.step cfg) (CachingClient.init T clock) front = some s) :
    exists node, s.sys.store.lookup c.key = some node ∧ t <= node.fetchedAt ∧
      t + n * (cfg.policyFor c.endpoint).ttl <= node.fetchedAt ∧
      forall g, Unstored s.sys c.key g ->
        node.fetchedAt + (cfg.policyFor c.endpoint).ttl <= s.sys.clock := by
  induction h generalizing s with
  | @stored front f mid after hmid hf hstep hsome =>
      rcases runSteps_concat hrun with ⟨mid', hmid', hstep'⟩
      rw [hmid] at hmid'
      cases hmid'
      rw [hstep] at hstep'
      cases hstep'
      rcases Option.isSome_iff_exists.mp hsome with ⟨node, hnode⟩
      have hmoves := step_cases (CachingClient.step_base hstep)
      have hstores := storesKey_iff.mpr ⟨f, rfl, hf⟩
      refine ⟨node, hnode, ?_⟩
      rcases hmoves.lookup hnode with ⟨_, hnow⟩ | ⟨hnot, _⟩
      · rw [hnow]
        refine ⟨Int.le_refl _, by simp, ?_⟩
        intro g hg
        exact absurd hg (none_unstored_of_store (orderly_of_run hmid).left hmoves hf)
      · change storesKey c.key mid.sys (.storeFetched f) = false at hnot
        rw [hstores] at hnot
        cases hnot
  | @later front l mid after t n hsince hmid hstep hsome ih =>
      rcases runSteps_concat hrun with ⟨mid', hmid', hstep'⟩
      rw [hmid] at hmid'
      cases hmid'
      rw [hstep] at hstep'
      cases hstep'
      rcases ih (List.IsPrefix.trans (List.prefix_append _ _) hfront) hmid with
        ⟨old, hold, hfirst, hcount, hwaited⟩
      rcases Option.isSome_iff_exists.mp hsome with ⟨node, hnode⟩
      have hmoves := step_cases (CachingClient.step_base hstep)
      refine ⟨node, hnode, ?_⟩
      rcases hmoves.lookup hnode with ⟨hstores, hnow⟩ | ⟨hnot, hsame⟩
      · rcases storesKey_iff.mp hstores with ⟨f, hl, hf⟩
        rw [hl] at hmoves
        have hlast := hwaited f (unstored_of_store hmoves hf)
        have hstamp := (orderly_of_run hmid).right c.key old hold
        rw [hstores, hnow]
        refine ⟨Int.le_trans hfirst hstamp, ?_, ?_⟩
        · rw [Bool.toNat_true, Nat.cast_succ, Int.add_mul, Int.one_mul, ← Int.add_assoc]
          exact Int.le_trans (Int.add_le_add_right hcount _) hlast
        · intro g hg
          exact absurd hg (none_unstored_of_store (orderly_of_run hmid).left hmoves hf)
      · rw [hold] at hsame
        cases hsame
        rw [hnot]
        refine ⟨hfirst, hcount, ?_⟩
        intro g hg
        apply Int.le_trans _ hmoves.clock_le
        rcases hmoves.unstored hg with ⟨hbefore, _⟩ | hstarts
        · exact hwaited g hbefore
        · exact hspaced front l mid _ hfront hmid hstep hstarts old hold

end Fleet
end LodelineManager
