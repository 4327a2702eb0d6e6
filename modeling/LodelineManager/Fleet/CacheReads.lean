import LodelineManager.Fleet.CacheSteps

/-!
# What a cached read returns

A pointer in the cache, or in the hands of a call, comes from a fetch of its key
that succeeded.  Fetches never go back, so this survives every step, and at its
end a call can account for what it returns.
-/

namespace LodelineManager
namespace Fleet

open Foundation Go

variable {value : Type}

/-!
## Fetches advance
-/

/-- The way of a fetch. -/
inductive Advance : FetchPhase value -> FetchPhase value -> Prop where
  | refl (p : FetchPhase value) : Advance p p
  | answer (r : Except GoErr value) : Advance .running (.answered r)
  | store (v : value) : Advance (.answered (.ok v)) (.stored v)
  | succeed (v : value) : Advance (.stored v) (.done (.ok v))
  | fail (err : GoErr) : Advance (.answered (.error err)) (.done (.error err))

/-- All fetches of the first state are in the second, possibly further on. -/
def Extends (s s' : Sys value) : Prop :=
  forall f c, s.fetches f = some c ->
    exists c', s'.fetches f = some c' ∧ c'.key = c.key ∧ Advance c.phase c'.phase

theorem extends_of_fetches_eq {s s' : Sys value} (h : s'.fetches = s.fetches) : Extends s s' := by
  intro f c hc
  exact ⟨c, by rw [h]; exact hc, rfl, Advance.refl c.phase⟩

theorem extends_update {s s' : Sys value} {f : Nat} {c c' : Fetch value}
    (hc : s.fetches f = some c) (h : s'.fetches = Function.update s.fetches f (some c'))
    (hkey : c'.key = c.key) (hadv : Advance c.phase c'.phase) : Extends s s' := by
  intro g d hd
  rw [h]
  by_cases hg : g = f
  · subst hg
    rw [hc] at hd
    cases hd
    rw [Function.update_self]
    exact ⟨c', rfl, hkey, hadv⟩
  · rw [Function.update_of_ne hg]
    exact ⟨d, hd, rfl, Advance.refl d.phase⟩

/-- Ids of fetches are given out once. -/
def Numbered (s : Sys value) : Prop :=
  forall f c, s.fetches f = some c -> f < s.nextFetch

theorem Joined.extends {s s' : Sys value} {key : String} {f : Nat} (hnum : Numbered s)
    (h : Joined s key s' f) : Extends s s' := by
  cases h with
  | join _ => exact extends_of_fetches_eq rfl
  | start _ =>
      intro g d hd
      rw [Sys.startFetch_fetches, Function.update_of_ne (Nat.ne_of_lt (hnum g d hd))]
      exact ⟨d, hd, rfl, Advance.refl d.phase⟩

theorem Joined.numbered {s s' : Sys value} {key : String} {f : Nat} (hnum : Numbered s)
    (h : Joined s key s' f) : Numbered s' := by
  cases h with
  | join _ => exact hnum
  | start _ =>
      intro g d hd
      rw [Sys.startFetch_nextFetch]
      by_cases hg : g = s.nextFetch
      · rw [hg]
        exact Nat.lt_succ_self _
      · rw [Sys.startFetch_fetches, Function.update_of_ne hg] at hd
        exact Nat.lt_succ_of_lt (hnum g d hd)

theorem Guarded.frame {s s' : Sys value} {key : String} (h : Guarded s key s') :
    s'.fetches = s.fetches ∧ s'.store = s.store ∧ s'.nextFetch = s.nextFetch ∧
      s'.group = s.group := by
  cases h with
  | already _ => exact ⟨rfl, rfl, rfl, rfl⟩
  | spawn _ => exact ⟨rfl, rfl, rfl, rfl⟩

theorem Joined.frame {s s' : Sys value} {key : String} {f : Nat} (h : Joined s key s' f) :
    s'.store = s.store ∧ s'.threads = s.threads ∧ s'.nextThread = s.nextThread ∧
      s'.refreshing = s.refreshing ∧ s'.clock = s.clock := by
  cases h with
  | join _ => exact ⟨rfl, rfl, rfl, rfl, rfl⟩
  | start _ => exact ⟨rfl, rfl, rfl, rfl, rfl⟩

theorem Step.extends {cfg : CacheConfig} {s s' : Sys value} {l : Label value}
    (hnum : Numbered s) (h : Step cfg s l s') : Extends s s' := by
  cases h with
  | stale _ _ hguard => exact extends_of_fetches_eq hguard.frame.left
  | @block i endpoint suffix now entry mid f _ _ hjoin =>
      show Extends s mid
      exact hjoin.extends hnum
  | @refreshDo i key mid f _ hjoin =>
      show Extends s mid
      exact hjoin.extends hnum
  | answer hf => exact extends_update hf rfl rfl (Advance.answer _)
  | storeFetched hf => exact extends_update hf rfl rfl (Advance.store _)
  | forgetStored hf => exact extends_update hf rfl rfl (Advance.succeed _)
  | forgetFailed hf => exact extends_update hf rfl rfl (Advance.fail _)
  | _ => exact extends_of_fetches_eq rfl

theorem numbered_update {s : Sys value} {f : Nat} {c c' : Fetch value} (hnum : Numbered s)
    (hc : s.fetches f = some c) {g : Nat} {d : Fetch value}
    (hd : Function.update s.fetches f (some c') g = some d) : g < s.nextFetch := by
  by_cases hg : g = f
  · rw [hg]
    exact hnum f c hc
  · rw [Function.update_of_ne hg] at hd
    exact hnum g d hd

theorem Step.numbered {cfg : CacheConfig} {s s' : Sys value} {l : Label value}
    (hnum : Numbered s) (h : Step cfg s l s') : Numbered s' := by
  cases h with
  | stale _ _ hguard =>
      intro f c hc
      rw [hguard.frame.left] at hc
      rw [hguard.frame.right.right.left]
      exact hnum f c hc
  | @block i endpoint suffix now entry mid f _ _ hjoin =>
      show Numbered mid
      exact hjoin.numbered hnum
  | @refreshDo i key mid f _ hjoin =>
      show Numbered mid
      exact hjoin.numbered hnum
  | answer hf => exact fun g d hd => numbered_update hnum hf hd
  | storeFetched hf => exact fun g d hd => numbered_update hnum hf hd
  | forgetStored hf => exact fun g d hd => numbered_update hnum hf hd
  | forgetFailed hf => exact fun g d hd => numbered_update hnum hf hd
  | _ => exact hnum

/-!
## Accounts
-/

/-- The pointer is what a fetch of the key returned when it succeeded, and it went
into the cache. -/
def Kept (s : Sys value) (key : String) (p : Fetched value) : Prop :=
  exists c, s.fetches p.fetch = some c ∧ c.key = key ∧
    (c.phase = .stored p.val ∨ c.phase = .done (.ok p.val))

/-- The fetch was made for the key. -/
def FetchOf (s : Sys value) (key : String) (f : Nat) : Prop :=
  exists c, s.fetches f = some c ∧ c.key = key

/-- The fetch was made for the key and ended like this. -/
def Ended (s : Sys value) (key : String) (f : Nat) (r : Except GoErr value) : Prop :=
  s.fetches f = some ⟨key, .done r⟩

theorem Kept.mono {s s' : Sys value} {key : String} {p : Fetched value} (hext : Extends s s')
    (h : Kept s key p) : Kept s' key p := by
  rcases h with ⟨c, hc, hkey, hphase⟩
  rcases hext p.fetch c hc with ⟨c', hc', hkey', hadv⟩
  refine ⟨c', hc', hkey'.trans hkey, ?_⟩
  rcases hphase with hstored | hdone
  · rw [hstored] at hadv
    cases hphase' : c'.phase <;> rw [hphase'] at hadv <;> cases hadv
    · exact Or.inl rfl
    · exact Or.inr rfl
  · rw [hdone] at hadv
    cases hphase' : c'.phase <;> rw [hphase'] at hadv <;> cases hadv
    exact Or.inr rfl

theorem FetchOf.mono {s s' : Sys value} {key : String} {f : Nat} (hext : Extends s s')
    (h : FetchOf s key f) : FetchOf s' key f := by
  rcases h with ⟨c, hc, hkey⟩
  rcases hext f c hc with ⟨c', hc', hkey', _⟩
  exact ⟨c', hc', hkey'.trans hkey⟩

theorem Ended.mono {s s' : Sys value} {key : String} {f : Nat} {r : Except GoErr value}
    (hext : Extends s s') (h : Ended s key f r) : Ended s' key f r := by
  rcases hext f _ h with ⟨⟨key', phase⟩, hc', hkey', hadv⟩
  change key' = key at hkey'
  subst hkey'
  cases hadv
  exact hc'

theorem Ended.fetchOf {s : Sys value} {key : String} {f : Nat} {r : Except GoErr value}
    (h : Ended s key f r) : FetchOf s key f :=
  ⟨_, h, rfl⟩

/-- How a call came to its result. -/
inductive Explained (cfg : CacheConfig) (s : Sys value) (endpoint key : String) :
    Return value -> Prop where
  | served {now : Int} {e : Copied value} :
      Servable (cfg.policyFor endpoint) now e -> Kept s key e.ptr ->
      Explained cfg s endpoint key (served now e)
  | fetched {now : Int} {entry : Option (Copied value)} {f : Nat} {v : value} :
      (forall e, entry = some e -> TooStale (cfg.policyFor endpoint) now e) ->
      Ended s key f (.ok v) ->
      Explained cfg s endpoint key
        { now := now, entry := entry, waitedOn := some f, result := .ok ⟨f, v⟩ }
  | degraded {now : Int} {e : Copied value} {f : Nat} {err : GoErr} :
      TooStale (cfg.policyFor endpoint) now e -> Kept s key e.ptr ->
      Ended s key f (.error err) -> isRetryable err = true ->
      Explained cfg s endpoint key
        { now := now, entry := some e, waitedOn := some f, result := .ok e.ptr }
  | failed {now : Int} {entry : Option (Copied value)} {f : Nat} {err : GoErr} :
      (forall e, entry = some e -> TooStale (cfg.policyFor endpoint) now e) ->
      Ended s key f (.error err) -> (entry = none ∨ isRetryable err = false) ->
      Explained cfg s endpoint key
        { now := now, entry := entry, waitedOn := some f, result := .error err }

/-- What a call knows at each of its stops. -/
def CallOk (cfg : CacheConfig) (s : Sys value) (endpoint key : String) :
    CallPhase value -> Prop
  | .started => True
  | .clocked _ => True
  | .copied _ entry => forall e, entry = some e -> Kept s key e.ptr
  | .waiting now entry f =>
      (forall e, entry = some e ->
        Kept s key e.ptr ∧ TooStale (cfg.policyFor endpoint) now e) ∧ FetchOf s key f
  | .returned r => Explained cfg s endpoint key r

/-- What a thread knows. -/
def ThreadOk (cfg : CacheConfig) (s : Sys value) : Thread value -> Prop
  | .call endpoint suffix phase => CallOk cfg s endpoint (cacheKey endpoint suffix) phase
  | .refresh key (.waiting f) => FetchOf s key f
  | .refresh _ _ => True

theorem Explained.mono {cfg : CacheConfig} {s s' : Sys value} {endpoint key : String}
    {r : Return value} (hext : Extends s s') (h : Explained cfg s endpoint key r) :
    Explained cfg s' endpoint key r := by
  cases h with
  | served hage hkept => exact Explained.served hage (hkept.mono hext)
  | fetched hage hend => exact Explained.fetched hage (hend.mono hext)
  | degraded hage hkept hend hretry =>
      exact Explained.degraded hage (hkept.mono hext) (hend.mono hext) hretry
  | failed hage hend hwhy => exact Explained.failed hage (hend.mono hext) hwhy

theorem ThreadOk.mono {cfg : CacheConfig} {s s' : Sys value} {t : Thread value}
    (hext : Extends s s') (h : ThreadOk cfg s t) : ThreadOk cfg s' t := by
  cases t with
  | call endpoint suffix phase =>
      cases phase with
      | started => trivial
      | clocked now => trivial
      | copied now entry => exact fun e he => (h e he).mono hext
      | waiting now entry f =>
          exact ⟨fun e he => ⟨(h.left e he).left.mono hext, (h.left e he).right⟩,
            h.right.mono hext⟩
      | returned r => exact Explained.mono hext h
  | refresh key phase =>
      cases phase with
      | started => trivial
      | waiting f => exact FetchOf.mono hext h
      | ending => trivial

theorem explained_afterDo {cfg : CacheConfig} {s : Sys value} {endpoint key : String}
    {now : Int} {entry : Option (Copied value)} {f : Nat} {r : Except GoErr value}
    (hentry : forall e, entry = some e ->
      Kept s key e.ptr ∧ TooStale (cfg.policyFor endpoint) now e)
    (hend : Ended s key f r) :
    Explained cfg s endpoint key
      { now := now, entry := entry, waitedOn := some f, result := afterDo entry f r } := by
  have hage : forall e, entry = some e -> TooStale (cfg.policyFor endpoint) now e :=
    fun e he => (hentry e he).right
  cases r with
  | ok v => exact Explained.fetched hage hend
  | error err =>
      cases entry with
      | none => exact Explained.failed hage hend (Or.inl rfl)
      | some e =>
          cases hretry : isRetryable err with
          | true =>
              rw [afterDo_retryable hretry]
              exact Explained.degraded (hage e rfl) (hentry e rfl).left hend hretry
          | false =>
              rw [afterDo_terminal hretry]
              exact Explained.failed hage hend (Or.inr hretry)

theorem Explained.kept {cfg : CacheConfig} {s : Sys value} {endpoint key : String}
    {r : Return value} {p : Fetched value} (h : Explained cfg s endpoint key r)
    (hr : r.result = .ok p) : Kept s key p := by
  cases h with
  | served _ hkept =>
      cases hr
      exact hkept
  | fetched _ hend =>
      cases hr
      exact ⟨_, hend, rfl, Or.inr rfl⟩
  | degraded _ hkept _ _ =>
      cases hr
      exact hkept
  | failed _ _ _ => cases hr

/-!
## The invariant
-/

structure Accounted (cfg : CacheConfig) (s : Sys value) : Prop where
  numbered : Numbered s
  group : forall key f, s.group key = some f -> FetchOf s key f
  store : forall key node, s.store.lookup key = some node -> Kept s key node.val
  threads : forall i t, s.threads i = some t -> ThreadOk cfg s t

theorem lookup_init (value : Type) (clock : Int) (key : String) :
    (Sys.init value clock).store.lookup key = none := by
  show (AList.lookup key ∅).bind _ = none
  rw [AList.lookup_empty]
  rfl

theorem accounted_init (cfg : CacheConfig) (clock : Int) :
    Accounted cfg (Sys.init value clock) where
  numbered := by
    intro f c h
    cases h
  group := by
    intro key f h
    cases h
  store := by
    intro key node h
    rw [lookup_init] at h
    cases h
  threads := by
    intro i t h
    cases h

theorem threadsOk_update {cfg : CacheConfig} {s s' : Sys value} {i : Nat}
    {new : Option (Thread value)} (hext : Extends s s')
    (hold : forall j u, s.threads j = some u -> ThreadOk cfg s u)
    (hthreads : s'.threads = Function.update s.threads i new)
    (hnew : forall t, new = some t -> ThreadOk cfg s' t) :
    forall j u, s'.threads j = some u -> ThreadOk cfg s' u := by
  intro j u hu
  rw [hthreads] at hu
  by_cases hj : j = i
  · rw [hj, Function.update_self] at hu
    exact hnew u hu
  · rw [Function.update_of_ne hj] at hu
    exact (hold j u hu).mono hext

theorem Accounted.moveThread {cfg : CacheConfig} {s s' : Sys value} {i : Nat}
    {new : Option (Thread value)} (h : Accounted cfg s) (hfetches : s'.fetches = s.fetches)
    (hnext : s'.nextFetch = s.nextFetch) (hgroup : s'.group = s.group)
    (hstore : s'.store = s.store) (hthreads : s'.threads = Function.update s.threads i new)
    (hnew : forall t, new = some t -> ThreadOk cfg s' t) : Accounted cfg s' := by
  have hext : Extends s s' := extends_of_fetches_eq hfetches
  refine ⟨?_, ?_, ?_, threadsOk_update hext h.threads hthreads hnew⟩
  · intro f c hc
    rw [hfetches] at hc
    rw [hnext]
    exact h.numbered f c hc
  · intro key f hf
    rw [hgroup] at hf
    exact (h.group key f hf).mono hext
  · intro key node hnode
    rw [hstore] at hnode
    exact (h.store key node hnode).mono hext

theorem Accounted.joined {cfg : CacheConfig} {s s' : Sys value} {key : String} {f : Nat}
    (h : Accounted cfg s) (hjoin : Joined s key s' f) : Accounted cfg s' ∧ FetchOf s' key f := by
  have hext := hjoin.extends h.numbered
  have hnum := hjoin.numbered h.numbered
  have hframe := hjoin.frame
  have hstore : forall key node, s'.store.lookup key = some node -> Kept s' key node.val := by
    intro key' node hnode
    rw [hframe.left] at hnode
    exact (h.store key' node hnode).mono hext
  have hthreads : forall i t, s'.threads i = some t -> ThreadOk cfg s' t := by
    intro i t ht
    rw [hframe.right.left] at ht
    exact (h.threads i t ht).mono hext
  cases hjoin with
  | join hgroup => exact ⟨h, h.group key f hgroup⟩
  | start hfree =>
      have hnew : FetchOf (s.startFetch key) key s.nextFetch :=
        ⟨_, Function.update_self _ _ _, rfl⟩
      refine ⟨⟨hnum, ?_, hstore, hthreads⟩, hnew⟩
      intro key' g hg
      by_cases hk : key' = key
      · rw [hk, Sys.startFetch_group, Function.update_self] at hg
        cases hg
        rw [hk]
        exact hnew
      · rw [Sys.startFetch_group, Function.update_of_ne hk] at hg
        exact (h.group key' g hg).mono hext

theorem Accounted.moveFetch {cfg : CacheConfig} {s s' : Sys value} (h : Accounted cfg s)
    (hext : Extends s s') (hnum : Numbered s')
    (hgroup : forall key f, s'.group key = some f -> s.group key = some f)
    (hstore : forall key node, s'.store.lookup key = some node -> Kept s' key node.val)
    (hthreads : s'.threads = s.threads) : Accounted cfg s' where
  numbered := hnum
  group := fun key f hf => (h.group key f (hgroup key f hf)).mono hext
  store := hstore
  threads := by
    intro i t ht
    rw [hthreads] at ht
    exact (h.threads i t ht).mono hext

theorem group_of_forgetFetch {s : Sys value} {f : Nat} {key : String} {r : Except GoErr value}
    {key' : String} {g : Nat} (h : (s.forgetFetch f key r).group key' = some g) :
    s.group key' = some g := by
  rw [Sys.forgetFetch_group] at h
  by_cases hk : key' = key
  · rw [hk, Function.update_self] at h
    cases h
  · rw [Function.update_of_ne hk] at h
    exact h

theorem Step.accounted {cfg : CacheConfig} {s s' : Sys value} {l : Label value}
    (h : Accounted cfg s) (hstep : Step cfg s l s') : Accounted cfg s' := by
  have hext := hstep.extends h.numbered
  have hnum := hstep.numbered h.numbered
  have hstore : forall key node, s.store.lookup key = some node -> Kept s' key node.val :=
    fun key node hnode => (h.store key node hnode).mono hext
  cases hstep with
  | tick _ => exact h.moveFetch hext hnum (fun _ _ hf => hf) hstore rfl
  | invoke =>
      refine h.moveThread rfl rfl rfl rfl rfl ?_
      intro t ht
      cases ht
      trivial
  | readClock _ =>
      refine h.moveThread rfl rfl rfl rfl rfl ?_
      intro t ht
      cases ht
      trivial
  | readEntry _ =>
      refine h.moveThread rfl rfl rfl rfl rfl ?_
      intro t ht
      cases ht
      intro e he
      rcases Option.map_eq_some_iff.mp he with ⟨node, hnode, heq⟩
      rw [← heq]
      exact h.store _ node hnode
  | fresh ht hage =>
      refine h.moveThread rfl rfl rfl rfl rfl ?_
      intro t heq
      cases heq
      exact Explained.served hage (h.threads _ _ ht _ rfl)
  | @stale i endpoint suffix now e s' ht hage hguard =>
      have hmid : Accounted cfg
          (s.setThread i (.call endpoint suffix (.returned (served now e)))) := by
        refine h.moveThread rfl rfl rfl rfl rfl ?_
        intro t heq
        cases heq
        exact Explained.served hage (h.threads _ _ ht _ rfl)
      cases hguard with
      | already _ => exact hmid
      | spawn _ =>
          refine hmid.moveThread rfl rfl rfl rfl rfl ?_
          intro t heq
          cases heq
          trivial
  | block ht hage hjoin =>
      rcases h.joined hjoin with ⟨hmid, hfetch⟩
      refine hmid.moveThread rfl rfl rfl rfl rfl ?_
      intro t heq
      cases heq
      exact ⟨fun e he => ⟨(h.threads _ _ ht e he).mono hext, hage e he⟩, hfetch⟩
  | @wake i endpoint suffix now entry f key r ht hf =>
      refine h.moveThread rfl rfl rfl rfl rfl ?_
      intro t heq
      cases heq
      rcases h.threads _ _ ht with ⟨hentry, c, hc, hkey⟩
      rw [hf] at hc
      cases hc
      change key = cacheKey endpoint suffix at hkey
      rw [hkey] at hf
      exact explained_afterDo hentry hf
  | refreshDo ht hjoin =>
      rcases h.joined hjoin with ⟨hmid, hfetch⟩
      refine hmid.moveThread rfl rfl rfl rfl rfl ?_
      intro t heq
      cases heq
      exact hfetch
  | refreshWake _ _ =>
      refine h.moveThread rfl rfl rfl rfl rfl ?_
      intro t heq
      cases heq
      trivial
  | refreshDelete _ =>
      refine h.moveThread rfl rfl rfl rfl rfl ?_
      intro t heq
      cases heq
  | answer _ => exact h.moveFetch hext hnum (fun _ _ hf => hf) hstore rfl
  | @storeFetched f key v hf =>
      refine h.moveFetch hext hnum (fun _ _ hg => hg) ?_ rfl
      intro key' node hnode
      rw [Sys.storeFetch_store] at hnode
      rcases CacheStore.lookup_store hnode with ⟨hkey, heq⟩ | ⟨_, hold⟩
      · rw [heq, hkey]
        exact ⟨_, Function.update_self _ _ _, rfl, Or.inl rfl⟩
      · exact hstore key' node hold
  | forgetStored _ =>
      exact h.moveFetch hext hnum (fun _ _ hg => group_of_forgetFetch hg) hstore rfl
  | forgetFailed _ =>
      exact h.moveFetch hext hnum (fun _ _ hg => group_of_forgetFetch hg) hstore rfl

theorem accounted_run {cfg : CacheConfig} {clock : Int} {labels : List (Label value)}
    {s : Sys value} (hrun : runSteps (step cfg) (Sys.init value clock) labels = some s) :
    Accounted cfg s :=
  run_invariant (fun _ _ _ h hstep => (step_cases hstep).accounted h)
    (accounted_init cfg clock) hrun

/-!
## Upstream answers
-/

/-- The upstream has answered the fetch with the value. -/
def Succeeded (f : Nat) (v : value) (s : Sys value) : Prop :=
  exists c, s.fetches f = some c ∧
    (c.phase = .answered (.ok v) ∨ c.phase = .stored v ∨ c.phase = .done (.ok v))

theorem Kept.succeeded {s : Sys value} {key : String} {p : Fetched value} (h : Kept s key p) :
    Succeeded p.fetch p.val s := by
  rcases h with ⟨c, hc, _, hphase⟩
  exact ⟨c, hc, Or.inr hphase⟩

theorem succeeded_of_fetches_eq {s s' : Sys value} {f : Nat} {v : value}
    (h : s'.fetches = s.fetches) (hsucc : Succeeded f v s') : Succeeded f v s := by
  rcases hsucc with ⟨c, hc, hphase⟩
  rw [h] at hc
  exact ⟨c, hc, hphase⟩

theorem succeeded_of_update {s s' : Sys value} {f g : Nat} {v : value} {c c' : Fetch value}
    (h : s'.fetches = Function.update s.fetches g (some c')) (hsucc : Succeeded f v s')
    (hc : s.fetches g = some c)
    (hback : (c'.phase = .answered (.ok v) ∨ c'.phase = .stored v ∨ c'.phase = .done (.ok v)) ->
      c.phase = .answered (.ok v) ∨ c.phase = .stored v ∨ c.phase = .done (.ok v)) :
    Succeeded f v s := by
  rcases hsucc with ⟨d, hd, hphase⟩
  rw [h] at hd
  by_cases hf : f = g
  · subst hf
    rw [Function.update_self] at hd
    cases hd
    exact ⟨c, hc, hback hphase⟩
  · rw [Function.update_of_ne hf] at hd
    exact ⟨d, hd, hphase⟩

theorem Joined.succeeded {s s' : Sys value} {key : String} {g : Nat} {f : Nat} {v : value}
    (h : Joined s key s' g) (hsucc : Succeeded f v s') : Succeeded f v s := by
  cases h with
  | join _ => exact hsucc
  | start _ =>
      rcases hsucc with ⟨d, hd, hphase⟩
      rw [Sys.startFetch_fetches] at hd
      by_cases hf : f = s.nextFetch
      · rw [hf, Function.update_self] at hd
        cases hd
        rcases hphase with h1 | h1 | h1 <;> cases h1
      · rw [Function.update_of_ne hf] at hd
        exact ⟨d, hd, hphase⟩

theorem Step.answered {cfg : CacheConfig} {s s' : Sys value} {l : Label value} {f : Nat}
    {v : value} (hstep : Step cfg s l s') (hnot : ¬ Succeeded f v s)
    (hsucc : Succeeded f v s') : l = .answer f (.ok v) := by
  cases hstep with
  | stale _ _ hguard =>
      exact absurd (succeeded_of_fetches_eq hguard.frame.left hsucc) hnot
  | @block i endpoint suffix now entry mid g _ _ hjoin =>
      change Succeeded f v mid at hsucc
      exact absurd (hjoin.succeeded hsucc) hnot
  | @refreshDo i key mid g _ hjoin =>
      change Succeeded f v mid at hsucc
      exact absurd (hjoin.succeeded hsucc) hnot
  | @answer g key r hg =>
      rcases hsucc with ⟨d, hd, hphase⟩
      rw [Sys.setFetch_fetches] at hd
      by_cases hf : f = g
      · subst hf
        rw [Function.update_self] at hd
        cases hd
        rcases hphase with h1 | h1 | h1 <;> cases h1
        rfl
      · rw [Function.update_of_ne hf] at hd
        exact absurd ⟨d, hd, hphase⟩ hnot
  | storeFetched hg =>
      refine absurd (succeeded_of_update rfl hsucc hg ?_) hnot
      intro hphase
      rcases hphase with h1 | h1 | h1 <;> cases h1
      exact Or.inl rfl
  | forgetStored hg =>
      refine absurd (succeeded_of_update rfl hsucc hg ?_) hnot
      intro hphase
      rcases hphase with h1 | h1 | h1 <;> cases h1
      exact Or.inr (Or.inl rfl)
  | forgetFailed hg =>
      refine absurd (succeeded_of_update rfl hsucc hg ?_) hnot
      intro hphase
      rcases hphase with h1 | h1 | h1 <;> cases h1
  | _ => exact absurd (succeeded_of_fetches_eq rfl hsucc) hnot

theorem answer_mem_of_succeeded {cfg : CacheConfig} {clock : Int} {labels : List (Label value)}
    {s : Sys value} {f : Nat} {v : value}
    (hrun : runSteps (step cfg) (Sys.init value clock) labels = some s)
    (hsucc : Succeeded f v s) : Label.answer f (.ok v) ∈ labels := by
  have hinit : ¬ Succeeded f v (Sys.init value clock) := by
    intro h
    rcases h with ⟨c, hc, _⟩
    cases hc
  rcases run_first_holds (P := Succeeded f v) hrun hinit hsucc with
    ⟨front, l, back, before, after, hlabels, _, hstep, hnot, hafter⟩
  have hl := (step_cases hstep).answered hnot hafter
  rw [hlabels, hl]
  exact List.mem_append.mpr (Or.inr List.mem_cons_self)

end Fleet
end LodelineManager
