import LodelineManager.Fleet.CacheReads

/-!
# Fetches, refreshes and reads of one key stay in order

Fetches are numbered in the order in which they start.  Single-flight lets the
fetches of a key run one after another, so the numbers of stored values only
grow, and a read that begins after another one cannot fall behind it.
-/

namespace LodelineManager
namespace Fleet

open Foundation Go

variable {value : Type}

/-!
## What an update of one fetch cannot add
-/

/-- The function of the fetch has not returned. -/
def InFlight (s : Sys value) (key : String) (f : Nat) : Prop :=
  exists c, s.fetches f = some c ∧ c.key = key ∧ forall r, c.phase ≠ .done r

theorem Kept.fetchOf {s : Sys value} {key : String} {p : Fetched value} (h : Kept s key p) :
    FetchOf s key p.fetch := by
  rcases h with ⟨c, hc, hkey, _⟩
  exact ⟨c, hc, hkey⟩

theorem not_done_of_advance {p p' : FetchPhase value} (hadv : Advance p p')
    (h : forall r, p' ≠ .done r) : forall r, p ≠ .done r := by
  intro r hp
  subst hp
  cases hadv
  exact h r rfl

/-- One fetch moves on. -/
structure Moved (s s' : Sys value) (f : Nat) (c c' : Fetch value) : Prop where
  before : s.fetches f = some c
  after : s'.fetches = Function.update s.fetches f (some c')
  key : c'.key = c.key
  adv : Advance c.phase c'.phase

theorem Moved.cases {s s' : Sys value} {f g : Nat} {c c' d : Fetch value}
    (h : Moved s s' f c c') (hd : s'.fetches g = some d) :
    g = f ∧ d = c' ∨ g ≠ f ∧ s.fetches g = some d := by
  rw [h.after] at hd
  by_cases hgf : g = f
  · rw [hgf, Function.update_self] at hd
    cases hd
    exact Or.inl ⟨hgf, rfl⟩
  · rw [Function.update_of_ne hgf] at hd
    exact Or.inr ⟨hgf, hd⟩

theorem Moved.fetchOf {s s' : Sys value} {f g : Nat} {c c' : Fetch value} {key : String}
    (h : Moved s s' f c c') (hg : FetchOf s' key g) : FetchOf s key g := by
  rcases hg with ⟨d, hd, hkey⟩
  rcases h.cases hd with ⟨hgf, hdc⟩ | ⟨_, hold⟩
  · rw [hdc, h.key] at hkey
    rw [hgf]
    exact ⟨c, h.before, hkey⟩
  · exact ⟨d, hold, hkey⟩

theorem Moved.inFlight {s s' : Sys value} {f g : Nat} {c c' : Fetch value} {key : String}
    (h : Moved s s' f c c') (hg : InFlight s' key g) : InFlight s key g := by
  rcases hg with ⟨d, hd, hkey, hlive⟩
  rcases h.cases hd with ⟨hgf, hdc⟩ | ⟨_, hold⟩
  · rw [hdc] at hkey hlive
    rw [h.key] at hkey
    rw [hgf]
    exact ⟨c, h.before, hkey, not_done_of_advance h.adv hlive⟩
  · exact ⟨d, hold, hkey, hlive⟩

theorem Moved.kept {s s' : Sys value} {f : Nat} {c c' : Fetch value} {key : String}
    {p : Fetched value} (h : Moved s s' f c c')
    (hphase : forall v, (c'.phase = .stored v ∨ c'.phase = .done (.ok v)) ->
      c.phase = .stored v ∨ c.phase = .done (.ok v))
    (hp : Kept s' key p) : Kept s key p := by
  rcases hp with ⟨d, hd, hkey, hkept⟩
  rcases h.cases hd with ⟨hpf, hdc⟩ | ⟨_, hold⟩
  · rw [hdc] at hkey hkept
    rw [h.key] at hkey
    exact ⟨c, by rw [hpf]; exact h.before, hkey, hphase p.val hkept⟩
  · exact ⟨d, hold, hkey, hkept⟩

/-!
## Order of fetches and stored values
-/

structure Orderly (s : Sys value) : Prop where
  numbered : Numbered s
  /-- A fetch that has not returned is the one single-flight has for its key. -/
  live : forall key f, InFlight s key f -> s.group key = some f
  /-- The fetch single-flight has for a key is the last one started for it. -/
  newest : forall key f g, s.group key = some f -> FetchOf s key g -> g <= f
  /-- The cached value of a key is the last one stored for it. -/
  latest : forall key node p, s.store.lookup key = some node -> Kept s key p ->
    p.fetch <= node.val.fetch

theorem orderly_init (clock : Int) : Orderly (Sys.init value clock) where
  numbered := by
    intro f c h
    cases h
  live := by
    intro key f h
    rcases h with ⟨c, hc, _⟩
    cases hc
  newest := by
    intro key f g h
    cases h
  latest := by
    intro key node p h
    rw [lookup_init] at h
    cases h

theorem Orderly.frame {s s' : Sys value} (h : Orderly s) (hfetches : s'.fetches = s.fetches)
    (hstore : s'.store = s.store) (hnext : s'.nextFetch = s.nextFetch)
    (hgroup : s'.group = s.group) : Orderly s' := by
  refine ⟨?_, ?_, ?_, ?_⟩
  · intro f c hc
    rw [hfetches] at hc
    rw [hnext]
    exact h.numbered f c hc
  · intro key f hf
    unfold InFlight at hf
    rw [hfetches] at hf
    rw [hgroup]
    exact h.live key f hf
  · intro key f g hf hg
    unfold FetchOf at hg
    rw [hfetches] at hg
    rw [hgroup] at hf
    exact h.newest key f g hf hg
  · intro key node p hnode hp
    unfold Kept at hp
    rw [hfetches] at hp
    rw [hstore] at hnode
    exact h.latest key node p hnode hp

theorem Orderly.startFetch {s : Sys value} {key : String} (h : Orderly s)
    (hfree : s.group key = none) : Orderly (s.startFetch key) := by
  have hold : forall {g d}, g ≠ s.nextFetch -> (s.startFetch key).fetches g = some d ->
      s.fetches g = some d := by
    intro g d hg hd
    rw [Sys.startFetch_fetches, Function.update_of_ne hg] at hd
    exact hd
  have hnew : forall {d}, (s.startFetch key).fetches s.nextFetch = some d ->
      d = ⟨key, .running⟩ := by
    intro d hd
    rw [Sys.startFetch_fetches, Function.update_self] at hd
    cases hd
    rfl
  refine ⟨(Joined.start hfree).numbered h.numbered, ?_, ?_, ?_⟩
  · intro key' g hg
    rcases hg with ⟨d, hd, hkey, hlive⟩
    rw [Sys.startFetch_group]
    by_cases hgn : g = s.nextFetch
    · rw [hgn] at hd ⊢
      rw [hnew hd] at hkey
      rw [← hkey, Function.update_self]
    · have hgroup := h.live key' g ⟨d, hold hgn hd, hkey, hlive⟩
      have hne : key' ≠ key := by
        intro hk
        rw [hk, hfree] at hgroup
        cases hgroup
      rw [Function.update_of_ne hne]
      exact hgroup
  · intro key' f g hf hg
    rcases hg with ⟨d, hd, hkey⟩
    rw [Sys.startFetch_group] at hf
    by_cases hk : key' = key
    · rw [hk, Function.update_self] at hf
      cases hf
      exact Nat.lt_succ_iff.mp ((Joined.start hfree).numbered h.numbered g d hd)
    · rw [Function.update_of_ne hk] at hf
      have hgn : g ≠ s.nextFetch := by
        intro hgn
        rw [hgn] at hd
        rw [hnew hd] at hkey
        exact hk hkey.symm
      exact h.newest key' f g hf ⟨d, hold hgn hd, hkey⟩
  · intro key' node p hnode hp
    rcases hp with ⟨d, hd, hkey, hphase⟩
    have hpn : p.fetch ≠ s.nextFetch := by
      intro hpn
      rw [hpn] at hd
      rw [hnew hd] at hphase
      rcases hphase with hrun | hrun <;> cases hrun
    exact h.latest key' node p hnode ⟨d, hold hpn hd, hkey, hphase⟩

theorem Orderly.joined {s s' : Sys value} {key : String} {f : Nat} (h : Orderly s)
    (hjoin : Joined s key s' f) : Orderly s' := by
  cases hjoin with
  | join _ => exact h
  | start hfree => exact h.startFetch hfree

theorem Orderly.moved {s s' : Sys value} {f : Nat} {c c' : Fetch value} (h : Orderly s)
    (hmove : Moved s s' f c c') (hnext : s'.nextFetch = s.nextFetch)
    (hgroup : s'.group = s.group)
    (hlatest : forall key node p, s'.store.lookup key = some node -> Kept s' key p ->
      p.fetch <= node.val.fetch) : Orderly s' where
  numbered := by
    intro g d hd
    rw [hmove.after] at hd
    rw [hnext]
    exact numbered_update h.numbered hmove.before hd
  live := by
    intro key g hg
    rw [hgroup]
    exact h.live key g (hmove.inFlight hg)
  newest := by
    intro key g g' hg hg'
    rw [hgroup] at hg
    exact h.newest key g g' hg (hmove.fetchOf hg')
  latest := hlatest

theorem Orderly.storeFetch {s : Sys value} {maxEntries : Int} {f : Nat} {key : String} {v : value}
    (h : Orderly s) (hf : s.fetches f = some ⟨key, .answered (.ok v)⟩) :
    Orderly (s.storeFetch maxEntries f key v) := by
  have hmove : Moved s (s.storeFetch maxEntries f key v) f ⟨key, .answered (.ok v)⟩
      ⟨key, .stored v⟩ := ⟨hf, rfl, rfl, Advance.store v⟩
  have hgroup : s.group key = some f := by
    refine h.live key f ⟨_, hf, rfl, ?_⟩
    intro r hr
    cases hr
  refine h.moved hmove rfl rfl ?_
  intro key' node p hnode hp
  rw [Sys.storeFetch_store] at hnode
  rcases CacheStore.lookup_store hnode with ⟨hkey, heq⟩ | ⟨hne, hold⟩
  · rw [hkey] at hp
    rw [heq]
    exact h.newest key f p.fetch hgroup (hmove.fetchOf hp.fetchOf)
  · rcases hp with ⟨d, hd, hkey, hphase⟩
    rcases hmove.cases hd with ⟨_, hdc⟩ | ⟨_, hback⟩
    · rw [hdc] at hkey
      exact absurd hkey.symm hne
    · exact h.latest key' node p hold ⟨d, hback, hkey, hphase⟩

theorem Orderly.forgetFetch {s : Sys value} {f : Nat} {key : String} {phase : FetchPhase value}
    {r : Except GoErr value} (h : Orderly s) (hf : s.fetches f = some ⟨key, phase⟩)
    (hlive : forall r, phase ≠ .done r) (hadv : Advance phase (.done r))
    (hphase : forall v, r = .ok v -> phase = .stored v ∨ phase = .done (.ok v)) :
    Orderly (s.forgetFetch f key r) := by
  have hmove : Moved s (s.forgetFetch f key r) f ⟨key, phase⟩ ⟨key, .done r⟩ :=
    ⟨hf, rfl, rfl, hadv⟩
  have hgroup : s.group key = some f := h.live key f ⟨_, hf, rfl, hlive⟩
  refine ⟨fun g d hd => numbered_update h.numbered hf hd, ?_, ?_, ?_⟩
  · intro key' g hg
    have hg' := h.live key' g (hmove.inFlight hg)
    have hne : key' ≠ key := by
      intro hk
      rw [hk, hgroup] at hg'
      cases hg'
      rcases hg with ⟨d, hd, _, hstill⟩
      rcases hmove.cases hd with ⟨_, hdc⟩ | ⟨hff, _⟩
      · rw [hdc] at hstill
        exact hstill r rfl
      · exact hff rfl
    rw [Sys.forgetFetch_group, Function.update_of_ne hne]
    exact hg'
  · intro key' g g' hg hg'
    exact h.newest key' g g' (group_of_forgetFetch hg) (hmove.fetchOf hg')
  · intro key' node p hnode hp
    refine h.latest key' node p hnode (hmove.kept ?_ hp)
    intro v hv
    rcases hv with hv | hv
    · cases hv
    · cases hv
      exact hphase v rfl

theorem Step.orderly {cfg : CacheConfig} {s s' : Sys value} {l : Label value} (h : Orderly s)
    (hstep : Step cfg s l s') : Orderly s' := by
  cases hstep with
  | stale _ _ hguard =>
      rcases hguard.frame with ⟨hfetches, hstore, hnext, hgroup⟩
      exact h.frame hfetches hstore hnext hgroup
  | @block i endpoint suffix now entry mid f _ _ hjoin =>
      exact (h.joined hjoin).frame rfl rfl rfl rfl
  | @refreshDo i key mid f _ hjoin =>
      exact (h.joined hjoin).frame rfl rfl rfl rfl
  | @answer f key r hf =>
      have hmove : Moved s (s.setFetch f ⟨key, .answered r⟩) f ⟨key, .running⟩
          ⟨key, .answered r⟩ := ⟨hf, rfl, rfl, Advance.answer r⟩
      refine h.moved hmove rfl rfl ?_
      intro key' node p hnode hp
      refine h.latest key' node p hnode (hmove.kept ?_ hp)
      intro v hv
      rcases hv with hv | hv <;> cases hv
  | storeFetched hf => exact h.storeFetch hf
  | forgetStored hf =>
      refine h.forgetFetch hf ?_ (Advance.succeed _) ?_
      · intro r hr
        cases hr
      · intro v hv
        cases hv
        exact Or.inl rfl
  | forgetFailed hf =>
      refine h.forgetFetch hf ?_ (Advance.fail _) ?_
      · intro r hr
        cases hr
      · intro v hv
        cases hv
  | _ => exact h.frame rfl rfl rfl rfl

/-!
## One refresh for a key
-/

structure Capped (s : Sys value) : Prop where
  numbered : forall i t, s.threads i = some t -> i < s.nextThread
  /-- A refresh goroutine runs inside the guard of its key. -/
  guarded : forall i key phase, s.threads i = some (.refresh key phase) ->
    s.refreshing key = true
  unique : forall i j key phase phase', s.threads i = some (.refresh key phase) ->
    s.threads j = some (.refresh key phase') -> i = j

theorem capped_init (clock : Int) : Capped (Sys.init value clock) where
  numbered := by
    intro i t h
    cases h
  guarded := by
    intro i key phase h
    cases h
  unique := by
    intro i j key phase phase' h
    cases h

theorem Capped.moveThread {s s' : Sys value} {i : Nat} {t : Thread value} (h : Capped s)
    (hthreads : s'.threads = Function.update s.threads i (some t))
    (hnext : s.nextThread <= s'.nextThread) (hi : i < s'.nextThread)
    (hrefreshing : s'.refreshing = s.refreshing)
    (hback : forall key phase, t = .refresh key phase ->
      exists phase', s.threads i = some (.refresh key phase')) : Capped s' := by
  have hold : forall {j key phase}, s'.threads j = some (.refresh key phase) ->
      exists phase', s.threads j = some (.refresh key phase') := by
    intro j key phase hj
    rw [hthreads] at hj
    by_cases hji : j = i
    · rw [hji, Function.update_self] at hj
      cases hj
      rw [hji]
      exact hback key phase rfl
    · rw [Function.update_of_ne hji] at hj
      exact ⟨phase, hj⟩
  refine ⟨?_, ?_, ?_⟩
  · intro j u hu
    rw [hthreads] at hu
    by_cases hji : j = i
    · rw [hji]
      exact hi
    · rw [Function.update_of_ne hji] at hu
      exact Nat.lt_of_lt_of_le (h.numbered j u hu) hnext
  · intro j key phase hj
    rcases hold hj with ⟨phase', hj'⟩
    rw [hrefreshing]
    exact h.guarded j key phase' hj'
  · intro j k key phase phase' hj hk
    rcases hold hj with ⟨_, hj'⟩
    rcases hold hk with ⟨_, hk'⟩
    exact h.unique j k key _ _ hj' hk'

theorem Capped.frame {s s' : Sys value} (h : Capped s) (hthreads : s'.threads = s.threads)
    (hnext : s'.nextThread = s.nextThread) (hrefreshing : s'.refreshing = s.refreshing) :
    Capped s' := by
  refine ⟨?_, ?_, ?_⟩
  · intro i t ht
    rw [hthreads] at ht
    rw [hnext]
    exact h.numbered i t ht
  · intro i key phase hi
    rw [hthreads] at hi
    rw [hrefreshing]
    exact h.guarded i key phase hi
  · intro i j key phase phase' hi hj
    rw [hthreads] at hi hj
    exact h.unique i j key phase phase' hi hj

theorem Capped.enterRefresh {s : Sys value} {key : String} (h : Capped s)
    (hfree : s.refreshing key = false) : Capped (s.enterRefresh key) := by
  have hnone : forall i phase, s.threads i ≠ some (.refresh key phase) := by
    intro i phase hi
    have htrue := h.guarded i key phase hi
    rw [hfree] at htrue
    cases htrue
  have hcase : forall {i key' phase}, (s.enterRefresh key).threads i = some (.refresh key' phase) ->
      i = s.nextThread ∧ key' = key ∨ key' ≠ key ∧ s.threads i = some (.refresh key' phase) := by
    intro i key' phase hi
    rw [Sys.enterRefresh_threads] at hi
    by_cases hin : i = s.nextThread
    · rw [hin, Function.update_self] at hi
      cases hi
      exact Or.inl ⟨hin, rfl⟩
    · rw [Function.update_of_ne hin] at hi
      refine Or.inr ⟨?_, hi⟩
      intro hk
      rw [hk] at hi
      exact hnone i phase hi
  refine ⟨?_, ?_, ?_⟩
  · intro i t ht
    rw [Sys.enterRefresh_threads] at ht
    show i < s.nextThread + 1
    by_cases hin : i = s.nextThread
    · rw [hin]
      exact Nat.lt_succ_self _
    · rw [Function.update_of_ne hin] at ht
      exact Nat.lt_succ_of_lt (h.numbered i t ht)
  · intro i key' phase hi
    rw [Sys.enterRefresh_refreshing]
    rcases hcase hi with ⟨_, hk⟩ | ⟨hk, hold⟩
    · rw [hk, Function.update_self]
    · rw [Function.update_of_ne hk]
      exact h.guarded i key' phase hold
  · intro i j key' phase phase' hi hj
    rcases hcase hi with ⟨hin, hk⟩ | ⟨hk, hi'⟩
    · rcases hcase hj with ⟨hjn, _⟩ | ⟨hk', _⟩
      · rw [hin, hjn]
      · exact absurd hk hk'
    · rcases hcase hj with ⟨_, hk'⟩ | ⟨_, hj'⟩
      · exact absurd hk' hk
      · exact h.unique i j key' phase phase' hi' hj'

theorem Capped.leaveRefresh {s : Sys value} {i : Nat} {key : String} {phase : RefreshPhase}
    (h : Capped s) (hi : s.threads i = some (.refresh key phase)) :
    Capped (s.leaveRefresh i key) := by
  have hold : forall {j t}, (s.leaveRefresh i key).threads j = some t ->
      j ≠ i ∧ s.threads j = some t := by
    intro j t hj
    rw [Sys.leaveRefresh_threads] at hj
    by_cases hji : j = i
    · rw [hji, Function.update_self] at hj
      cases hj
    · rw [Function.update_of_ne hji] at hj
      exact ⟨hji, hj⟩
  refine ⟨?_, ?_, ?_⟩
  · intro j t hj
    exact h.numbered j t (hold hj).right
  · intro j key' phase' hj
    have hne : key' ≠ key := by
      intro hk
      rw [hk] at hj
      exact (hold hj).left (h.unique j i key _ _ (hold hj).right hi)
    rw [Sys.leaveRefresh_refreshing, Function.update_of_ne hne]
    exact h.guarded j key' phase' (hold hj).right
  · intro j k key' phase' phase'' hj hk
    exact h.unique j k key' _ _ (hold hj).right (hold hk).right

theorem Capped.setCall {s s' : Sys value} {i : Nat} {t : Thread value}
    {endpoint suffix : String} {phase : CallPhase value} (h : Capped s)
    (ht : s.threads i = some t)
    (hthreads : s'.threads = Function.update s.threads i (some (.call endpoint suffix phase)))
    (hnext : s'.nextThread = s.nextThread) (hrefreshing : s'.refreshing = s.refreshing) :
    Capped s' := by
  have hi : i < s'.nextThread := by
    rw [hnext]
    exact h.numbered i t ht
  refine h.moveThread hthreads (Nat.le_of_eq hnext.symm) hi hrefreshing ?_
  intro key phase hu
  cases hu

theorem Capped.setRefresh {s s' : Sys value} {i : Nat} {key : String}
    {phase phase' : RefreshPhase} (h : Capped s) (ht : s.threads i = some (.refresh key phase))
    (hthreads : s'.threads = Function.update s.threads i (some (.refresh key phase')))
    (hnext : s'.nextThread = s.nextThread) (hrefreshing : s'.refreshing = s.refreshing) :
    Capped s' := by
  have hi : i < s'.nextThread := by
    rw [hnext]
    exact h.numbered i _ ht
  refine h.moveThread hthreads (Nat.le_of_eq hnext.symm) hi hrefreshing ?_
  intro key' phase'' hu
  cases hu
  exact ⟨phase, ht⟩

theorem Joined.setThread_threads {s s' : Sys value} {key : String} {f : Nat}
    (h : Joined s key s' f) (i : Nat) (t : Thread value) :
    (s'.setThread i t).threads = Function.update s.threads i (some t) := by
  rw [Sys.setThread_threads, h.frame.right.left]

theorem Step.capped {cfg : CacheConfig} {s s' : Sys value} {l : Label value} (h : Capped s)
    (hstep : Step cfg s l s') : Capped s' := by
  cases hstep with
  | invoke =>
      refine h.moveThread rfl (Nat.le_succ _) (Nat.lt_succ_self _) rfl ?_
      intro key phase ht
      cases ht
  | readClock ht => exact h.setCall ht rfl rfl rfl
  | readEntry ht => exact h.setCall ht rfl rfl rfl
  | fresh ht _ => exact h.setCall ht rfl rfl rfl
  | @stale i endpoint suffix now e s' ht _ hguard =>
      have hmid : Capped (s.setThread i (.call endpoint suffix (.returned (served now e)))) :=
        h.setCall ht rfl rfl rfl
      cases hguard with
      | already _ => exact hmid
      | spawn hfree => exact hmid.enterRefresh hfree
  | block ht _ hjoin =>
      rcases hjoin.frame with ⟨_, _, hnext, hrefreshing, _⟩
      exact h.setCall ht (hjoin.setThread_threads _ _) hnext hrefreshing
  | wake ht _ => exact h.setCall ht rfl rfl rfl
  | refreshDo ht hjoin =>
      rcases hjoin.frame with ⟨_, _, hnext, hrefreshing, _⟩
      exact h.setRefresh ht (hjoin.setThread_threads _ _) hnext hrefreshing
  | refreshWake ht _ => exact h.setRefresh ht rfl rfl rfl
  | refreshDelete ht => exact h.leaveRefresh ht
  | _ => exact h.frame rfl rfl rfl

/-!
## Reads do not fall behind
-/

/-- What the call holds, waits on or returns is no older than the fetch. -/
def CallFloor (f : Nat) : CallPhase value -> Prop
  | .started => True
  | .clocked _ => True
  | .copied _ entry => forall e, entry = some e -> f <= e.ptr.fetch
  | .waiting _ entry g => (forall e, entry = some e -> f <= e.ptr.fetch) ∧ f <= g
  | .returned r => forall p, r.result = .ok p -> f <= p.fetch

/-- The thread, if it is a call for the key, is not behind the fetch. -/
def Floor (s : Sys value) (j : Nat) (key : String) (f : Nat) : Prop :=
  forall endpoint suffix phase, s.threads j = some (.call endpoint suffix phase) ->
    cacheKey endpoint suffix = key -> CallFloor f phase

theorem floor_moveThread {s s' : Sys value} {i j : Nat} {key : String} {f : Nat}
    {new : Option (Thread value)} (h : Floor s j key f)
    (hthreads : s'.threads = Function.update s.threads i new)
    (hnew : i = j -> forall endpoint suffix phase, new = some (.call endpoint suffix phase) ->
      cacheKey endpoint suffix = key -> CallFloor f phase) : Floor s' j key f := by
  intro endpoint suffix phase hj hkey
  rw [hthreads] at hj
  by_cases hji : j = i
  · rw [hji, Function.update_self] at hj
    exact hnew hji.symm endpoint suffix phase hj hkey
  · rw [Function.update_of_ne hji] at hj
    exact h endpoint suffix phase hj hkey

theorem Joined.floor {s s' : Sys value} {key : String} {g : Nat} {p : Fetched value}
    (h : Orderly s) (hp : Kept s key p) (hjoin : Joined s key s' g) : p.fetch <= g := by
  cases hjoin with
  | join hgroup => exact h.newest key g p.fetch hgroup hp.fetchOf
  | start _ =>
      rcases hp with ⟨c, hc, _⟩
      exact Nat.le_of_lt (h.numbered p.fetch c hc)

theorem callFloor_afterDo {f g : Nat} {now : Int} {entry : Option (Copied value)}
    {r : Except GoErr value} (h : CallFloor f (.waiting now entry g)) :
    CallFloor f (.returned
      { now := now, entry := entry, waitedOn := some g, result := afterDo entry g r }) := by
  intro p hp
  cases r with
  | ok v =>
      cases hp
      exact h.right
  | error err =>
      cases entry with
      | none => cases hp
      | some e =>
          cases hretry : isRetryable err with
          | true =>
              rw [afterDo_retryable hretry] at hp
              cases hp
              exact h.left e rfl
          | false =>
              rw [afterDo_terminal hretry] at hp
              cases hp

theorem Step.floor {cfg : CacheConfig} {s s' : Sys value} {l : Label value} {j : Nat}
    {key : String} {p : Fetched value} (h : Orderly s) (hp : Kept s key p)
    (hfloor : Floor s j key p.fetch) (hstep : Step cfg s l s') : Floor s' j key p.fetch := by
  cases hstep with
  | invoke =>
      refine floor_moveThread hfloor rfl ?_
      intro _ endpoint suffix phase hnew _
      cases hnew
      trivial
  | readClock _ =>
      refine floor_moveThread hfloor rfl ?_
      intro _ endpoint suffix phase hnew _
      cases hnew
      trivial
  | readEntry _ =>
      refine floor_moveThread hfloor rfl ?_
      intro _ endpoint suffix phase hnew hkey
      cases hnew
      intro e he
      rcases Option.map_eq_some_iff.mp he with ⟨node, hnode, heq⟩
      rw [← heq]
      rw [hkey] at hnode
      exact h.latest key node p hnode hp
  | fresh ht _ =>
      refine floor_moveThread hfloor rfl ?_
      intro hij endpoint suffix phase hnew hkey
      cases hnew
      intro q hq
      cases hq
      rw [hij] at ht
      exact hfloor _ _ _ ht hkey _ rfl
  | @stale i endpoint suffix now e s' ht _ hguard =>
      have hmid : Floor (s.setThread i (.call endpoint suffix (.returned (served now e)))) j key
          p.fetch := by
        refine floor_moveThread hfloor rfl ?_
        intro hij endpoint suffix phase hnew hkey
        cases hnew
        intro q hq
        cases hq
        rw [hij] at ht
        exact hfloor _ _ _ ht hkey _ rfl
      cases hguard with
      | already _ => exact hmid
      | spawn _ =>
          refine floor_moveThread hmid rfl ?_
          intro _ endpoint suffix phase hnew
          cases hnew
  | block ht _ hjoin =>
      refine floor_moveThread hfloor (hjoin.setThread_threads _ _) ?_
      intro hij endpoint suffix phase hnew hkey
      cases hnew
      rw [hij] at ht
      rw [hkey] at hjoin
      exact ⟨hfloor _ _ _ ht hkey, hjoin.floor h hp⟩
  | wake ht _ =>
      refine floor_moveThread hfloor rfl ?_
      intro hij endpoint suffix phase hnew hkey
      cases hnew
      rw [hij] at ht
      exact callFloor_afterDo (hfloor _ _ _ ht hkey)
  | refreshDo _ hjoin =>
      refine floor_moveThread hfloor (hjoin.setThread_threads _ _) ?_
      intro _ endpoint suffix phase hnew
      cases hnew
  | refreshWake _ _ =>
      refine floor_moveThread hfloor rfl ?_
      intro _ endpoint suffix phase hnew
      cases hnew
  | refreshDelete _ =>
      refine floor_moveThread hfloor rfl ?_
      intro _ endpoint suffix phase hnew
      cases hnew
  | _ => exact hfloor

theorem orderly_run {cfg : CacheConfig} {clock : Int} {labels : List (Label value)} {s : Sys value}
    (hrun : runSteps (step cfg) (Sys.init value clock) labels = some s) : Orderly s :=
  run_invariant (fun _ _ _ h hstep => (step_cases hstep).orderly h) (orderly_init clock) hrun

theorem capped_run {cfg : CacheConfig} {clock : Int} {labels : List (Label value)} {s : Sys value}
    (hrun : runSteps (step cfg) (Sys.init value clock) labels = some s) : Capped s :=
  run_invariant (fun _ _ _ h hstep => (step_cases hstep).capped h) (capped_init clock) hrun

theorem floor_run {cfg : CacheConfig} {labels : List (Label value)} {s s' : Sys value} {j : Nat}
    {key : String} {p : Fetched value} (hrun : runSteps (step cfg) s labels = some s')
    (h : Orderly s) (hp : Kept s key p) (hfloor : Floor s j key p.fetch) :
    Floor s' j key p.fetch := by
  have hall : Orderly s' ∧ Kept s' key p ∧ Floor s' j key p.fetch := by
    refine run_invariant (P := fun t => Orderly t ∧ Kept t key p ∧ Floor t j key p.fetch)
      ?_ ⟨h, hp, hfloor⟩ hrun
    intro t l t' ht hstep
    have hmove := step_cases hstep
    exact ⟨hmove.orderly ht.left, ht.right.left.mono (hmove.extends ht.left.numbered),
      hmove.floor ht.left ht.right.left ht.right.right⟩
  exact hall.right.right

/-- No key has two fetches in flight. -/
def OneFetch (s : Sys value) : Prop :=
  forall key f g, InFlight s key f -> InFlight s key g -> f = g

/-- No key has two refresh goroutines. -/
def OneRefresh (s : Sys value) : Prop :=
  forall key i j phase phase', s.threads i = some (.refresh key phase) ->
    s.threads j = some (.refresh key phase') -> i = j

/-- The call of the thread has returned the value of a fetch of the key. -/
def ReturnedFrom (s : Sys value) (i : Nat) (key : String) (p : Fetched value) : Prop :=
  exists endpoint suffix r, s.threads i = some (.call endpoint suffix (.returned r)) ∧
    cacheKey endpoint suffix = key ∧ r.result = .ok p

/-- Every key has at most one fetch in flight and one refresh goroutine, and a read
that begins after another one of its key has returned does not return the value of
an earlier fetch. -/
theorem cache_keeps_order {cfg : CacheConfig} {clock : Int} {labels : List (Label value)}
    {s : Sys value} (hrun : runSteps (step cfg) (Sys.init value clock) labels = some s) :
    OneFetch s ∧ OneRefresh s ∧
    forall front back mid i endpoint suffix key p q,
      labels = front ++ .invoke endpoint suffix :: back ->
      runSteps (step cfg) (Sys.init value clock) front = some mid ->
      ReturnedFrom mid i key p -> ReturnedFrom s mid.nextThread key q -> p.fetch <= q.fetch := by
  have horder := orderly_run hrun
  refine ⟨?_, fun key i j phase phase' => (capped_run hrun).unique i j key phase phase', ?_⟩
  · intro key f g hf hg
    have hsame := (horder.live key f hf).symm.trans (horder.live key g hg)
    cases hsame
    rfl
  · intro front back mid i endpoint suffix key p q hlabels hfront hfirst hsecond
    rw [hlabels] at hrun
    rcases runSteps_split hrun with ⟨before, after, hbefore, hinvoke, hback⟩
    rw [hfront] at hbefore
    cases hbefore
    have hkept : Kept mid key p := by
      rcases hfirst with ⟨endpoint', suffix', r, hthread, hkey, hresult⟩
      have hexplained : Explained cfg mid endpoint' (cacheKey endpoint' suffix') r :=
        (accounted_run hfront).threads i _ hthread
      rw [hkey] at hexplained
      exact hexplained.kept hresult
    have hmove := step_cases hinvoke
    have hmid := orderly_run hfront
    -- the number of the new call was free, so there is nothing to be behind yet
    have hfloor : Floor mid mid.nextThread key p.fetch := by
      intro endpoint' suffix' phase hthread
      exact absurd ((capped_run hfront).numbered _ _ hthread) (Nat.lt_irrefl _)
    have hend := floor_run hback (hmove.orderly hmid) (hkept.mono (hmove.extends hmid.numbered))
      (hmove.floor hmid hkept hfloor)
    rcases hsecond with ⟨endpoint', suffix', r, hthread, hkey, hresult⟩
    exact hend endpoint' suffix' _ hthread hkey q hresult

/-- A second read that waited for a refresh, and a third that came after it. -/
theorem cache_keeps_order_refreshed :
    exists s q, runSteps (step (CacheConfig.withDefaults ⟨0, 0, 0⟩)) (Sys.init Nat 0)
        ([.invoke "events" "", .readClock 0, .readEntry 0, .act 0, .answer 0 (.ok 7),
          .storeFetched 0, .forget 0, .wake 0, .tick (60 * second), .invoke "events" "",
          .readClock 1, .readEntry 1, .act 1, .answer 1 (.ok 8), .storeFetched 1, .forget 1,
          .wake 1] ++ .invoke "events" "" :: [.readClock 2, .readEntry 2, .act 2]) = some s ∧
      OneFetch s ∧ ReturnedFrom s 2 (cacheKey "events" "") q ∧ 1 <= q.fetch := by
  have hfront : exists mid, runSteps (step (CacheConfig.withDefaults ⟨0, 0, 0⟩)) (Sys.init Nat 0)
        [.invoke "events" "", .readClock 0, .readEntry 0, .act 0, .answer 0 (.ok 7),
          .storeFetched 0, .forget 0, .wake 0, .tick (60 * second), .invoke "events" "",
          .readClock 1, .readEntry 1, .act 1, .answer 1 (.ok 8), .storeFetched 1, .forget 1,
          .wake 1] = some mid ∧ mid.nextThread = 2 ∧
      ReturnedFrom mid 1 (cacheKey "events" "") ⟨1, 8⟩ :=
    ⟨_, rfl, rfl, "events", "", _, rfl, rfl, rfl⟩
  have hrun : exists s, runSteps (step (CacheConfig.withDefaults ⟨0, 0, 0⟩)) (Sys.init Nat 0)
        ([.invoke "events" "", .readClock 0, .readEntry 0, .act 0, .answer 0 (.ok 7),
          .storeFetched 0, .forget 0, .wake 0, .tick (60 * second), .invoke "events" "",
          .readClock 1, .readEntry 1, .act 1, .answer 1 (.ok 8), .storeFetched 1, .forget 1,
          .wake 1] ++ .invoke "events" "" :: [.readClock 2, .readEntry 2, .act 2]) = some s ∧
      ReturnedFrom s 2 (cacheKey "events" "") ⟨1, 8⟩ :=
    ⟨_, rfl, "events", "", _, rfl, rfl, rfl⟩
  rcases hfront with ⟨mid, hfront, hnext, hfirst⟩
  rcases hrun with ⟨s, hrun, hsecond⟩
  have horder := cache_keeps_order hrun
  have hlater : ReturnedFrom s mid.nextThread (cacheKey "events" "") ⟨1, 8⟩ := by
    rw [hnext]
    exact hsecond
  exact ⟨s, _, hrun, horder.left, hsecond,
    horder.right.right _ _ mid 1 _ _ _ ⟨1, 8⟩ _ rfl hfront hfirst hlater⟩

end Fleet
end LodelineManager
