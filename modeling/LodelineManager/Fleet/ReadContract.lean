import LodelineManager.Fleet.CacheReads

/-!
# The contract of a read

A call compares two readings of the clock: its own, and the one that was taken when
the value it copied went into the cache.  Both are accounted for by steps of the run.
-/

namespace LodelineManager
namespace Fleet

open Foundation Go

variable {value : Type}

/-!
## Stamps
-/

/-- The label is a step of the run, taken when the clock shows the time. -/
def TakenAt (cfg : CacheConfig) (clock : Int) (labels : List (Label value)) (l : Label value)
    (time : Int) : Prop :=
  exists front back before, labels = front ++ l :: back ∧
    runSteps (step cfg) (Sys.init value clock) front = some before ∧ before.clock = time

theorem TakenAt.mono {cfg : CacheConfig} {clock time : Int} {labels : List (Label value)}
    {l : Label value} (h : TakenAt cfg clock labels l time) (l' : Label value) :
    TakenAt cfg clock (labels ++ [l']) l time := by
  rcases h with ⟨front, back, before, hlabels, hfront, htime⟩
  refine ⟨front, back ++ [l'], before, ?_, hfront, htime⟩
  rw [hlabels, List.append_assoc, List.cons_append]

theorem takenAt_last {cfg : CacheConfig} {clock : Int} {labels : List (Label value)}
    {s : Sys value} (hrun : runSteps (step cfg) (Sys.init value clock) labels = some s)
    (l : Label value) : TakenAt cfg clock (labels ++ [l]) l s.clock :=
  ⟨labels, [], s, rfl, hrun, rfl⟩

section

variable (cfg : CacheConfig) (clock : Int) (labels : List (Label value))

/-- The stamp of a copied entry is the time at which its fetch was stored. -/
def EntryStamped (entry : Option (Copied value)) : Prop :=
  forall e, entry = some e -> TakenAt cfg clock labels (.storeFetched e.ptr.fetch) e.fetchedAt

def CallStamped (i : Nat) : CallPhase value -> Prop
  | .started => True
  | .clocked now => TakenAt cfg clock labels (.readClock i) now
  | .copied now entry | .waiting now entry _ =>
      TakenAt cfg clock labels (.readClock i) now ∧ EntryStamped cfg clock labels entry
  | .returned r =>
      TakenAt cfg clock labels (.readClock i) r.now ∧ EntryStamped cfg clock labels r.entry

def ThreadStamped (i : Nat) : Thread value -> Prop
  | .call _ _ phase => CallStamped cfg clock labels i phase
  | .refresh _ _ => True

structure Stamped (s : Sys value) : Prop where
  store : forall key node, s.store.lookup key = some node ->
    TakenAt cfg clock labels (.storeFetched node.val.fetch) node.fetchedAt
  threads : forall i t, s.threads i = some t -> ThreadStamped cfg clock labels i t

end

section

variable {cfg : CacheConfig} {clock : Int} {labels : List (Label value)} {s s' : Sys value}

theorem EntryStamped.mono {entry : Option (Copied value)}
    (h : EntryStamped cfg clock labels entry) (l : Label value) :
    EntryStamped cfg clock (labels ++ [l]) entry :=
  fun e he => (h e he).mono l

theorem ThreadStamped.mono {i : Nat} {t : Thread value}
    (h : ThreadStamped cfg clock labels i t) (l : Label value) :
    ThreadStamped cfg clock (labels ++ [l]) i t := by
  cases t with
  | call endpoint suffix phase =>
      cases phase with
      | started => trivial
      | clocked now => exact TakenAt.mono h l
      | copied now entry => exact ⟨h.left.mono l, h.right.mono l⟩
      | waiting now entry f => exact ⟨h.left.mono l, h.right.mono l⟩
      | returned r => exact ⟨h.left.mono l, h.right.mono l⟩
  | refresh key phase => trivial

theorem Stamped.mono (h : Stamped cfg clock labels s) (l : Label value) :
    Stamped cfg clock (labels ++ [l]) s where
  store := fun key node hnode => (h.store key node hnode).mono l
  threads := fun i t ht => (h.threads i t ht).mono l

theorem stamped_init (cfg : CacheConfig) (clock : Int) :
    Stamped cfg clock [] (Sys.init value clock) where
  store := by
    intro key node h
    rw [lookup_init] at h
    cases h
  threads := by
    intro i t h
    cases h

theorem Stamped.stay (h : Stamped cfg clock labels s) (hstore : s'.store = s.store)
    (hthreads : s'.threads = s.threads) : Stamped cfg clock labels s' where
  store := by
    rw [hstore]
    exact h.store
  threads := by
    rw [hthreads]
    exact h.threads

theorem Stamped.moveThread {i : Nat} {new : Option (Thread value)}
    (h : Stamped cfg clock labels s) (hstore : s'.store = s.store)
    (hthreads : s'.threads = Function.update s.threads i new)
    (hnew : forall t, new = some t -> ThreadStamped cfg clock labels i t) :
    Stamped cfg clock labels s' where
  store := by
    rw [hstore]
    exact h.store
  threads := by
    intro j u hu
    rw [hthreads] at hu
    by_cases hj : j = i
    · rw [hj, Function.update_self] at hu
      rw [hj]
      exact hnew u hu
    · rw [Function.update_of_ne hj] at hu
      exact h.threads j u hu

theorem Step.stamped {l : Label value}
    (hrun : runSteps (step cfg) (Sys.init value clock) labels = some s)
    (h : Stamped cfg clock labels s) (hstep : Step cfg s l s') :
    Stamped cfg clock (labels ++ [l]) s' := by
  have hmono := h.mono l
  have hlast := takenAt_last hrun l
  cases hstep with
  | tick _ => exact hmono.stay rfl rfl
  | invoke =>
      refine hmono.moveThread rfl rfl ?_
      intro t ht
      cases ht
      trivial
  | readClock _ =>
      refine hmono.moveThread rfl rfl ?_
      intro t ht
      cases ht
      exact hlast
  | readEntry ht =>
      refine hmono.moveThread rfl rfl ?_
      intro t heq
      cases heq
      refine ⟨hmono.threads _ _ ht, ?_⟩
      intro e he
      rcases Option.map_eq_some_iff.mp he with ⟨node, hnode, heq⟩
      rw [← heq]
      exact hmono.store _ node hnode
  | fresh ht _ =>
      have hread := hmono.threads _ _ ht
      refine hmono.moveThread rfl rfl ?_
      intro t heq
      cases heq
      exact hread
  | @stale i endpoint suffix now e s' ht _ hguard =>
      have hread := hmono.threads _ _ ht
      have hmid : Stamped cfg clock (labels ++ [.act i])
          (s.setThread i (.call endpoint suffix (.returned (served now e)))) := by
        refine hmono.moveThread rfl rfl ?_
        intro t heq
        cases heq
        exact hread
      cases hguard with
      | already _ => exact hmid
      | spawn _ =>
          refine hmid.moveThread rfl rfl ?_
          intro t heq
          cases heq
          trivial
  | block ht _ hjoin =>
      have hread := hmono.threads _ _ ht
      have hmid := hmono.stay hjoin.frame.left hjoin.frame.right.left
      refine hmid.moveThread rfl rfl ?_
      intro t heq
      cases heq
      exact hread
  | wake ht _ =>
      have hread := hmono.threads _ _ ht
      refine hmono.moveThread rfl rfl ?_
      intro t heq
      cases heq
      exact hread
  | refreshDo _ hjoin =>
      have hmid := hmono.stay hjoin.frame.left hjoin.frame.right.left
      refine hmid.moveThread rfl rfl ?_
      intro t heq
      cases heq
      trivial
  | refreshWake _ _ =>
      refine hmono.moveThread rfl rfl ?_
      intro t heq
      cases heq
      trivial
  | refreshDelete _ =>
      refine hmono.moveThread rfl rfl ?_
      intro t heq
      cases heq
  | answer _ => exact hmono.stay rfl rfl
  | storeFetched _ =>
      refine ⟨?_, hmono.threads⟩
      intro key node hnode
      rw [Sys.storeFetch_store] at hnode
      rcases CacheStore.lookup_store hnode with ⟨_, heq⟩ | ⟨_, hold⟩
      · rw [heq]
        exact hlast
      · exact hmono.store key node hold
  | forgetStored _ => exact hmono.stay rfl rfl
  | forgetFailed _ => exact hmono.stay rfl rfl

theorem stamped_run (hrun : runSteps (step cfg) (Sys.init value clock) labels = some s) :
    Stamped cfg clock labels s :=
  run_history (stamped_init cfg clock)
    (fun _ _ _ _ hfront h hstep => (step_cases hstep).stamped hfront h) hrun

end

/-!
## What a call may claim
-/

/-- What a call that has returned may claim, after a run with the given labels. -/
structure ReadContract (cfg : CacheConfig) (clock : Int) (labels : List (Label value))
    (s : Sys value) (i : Nat) (endpoint key : String) (r : Return value) : Prop where
  /-- Both times of an age are those of the run. -/
  now : TakenAt cfg clock labels (.readClock i) r.now
  stamp : forall e, r.entry = some e ->
    TakenAt cfg clock labels (.storeFetched e.ptr.fetch) e.fetchedAt
  /-- The value is one the upstream returned for the key. -/
  own : forall p, r.result = .ok p ->
    FetchOf s key p.fetch ∧ Label.answer p.fetch (.ok p.val) ∈ labels
  /-- Without waiting, the value is the copied one, young enough for the policy. -/
  unwaited : r.waitedOn = none ->
    exists e, r.entry = some e ∧ r.result = .ok e.ptr ∧ Servable (cfg.policyFor endpoint) r.now e
  /-- A value that was not young enough comes from the fetch the call waited on, or
  stands in for its transient failure. -/
  blocked : forall p, r.result = .ok p ->
    (forall e, r.entry = some e -> e.ptr = p -> TooStale (cfg.policyFor endpoint) r.now e) ->
    exists f, r.waitedOn = some f ∧
      (p.fetch = f ∧ Ended s key f (.ok p.val) ∨
        exists e err, r.entry = some e ∧ e.ptr = p ∧ Ended s key f (.error err) ∧
          isRetryable err = true)
  /-- An error is the one the fetch failed with. -/
  error : forall err, r.result = .error err ->
    exists f, r.waitedOn = some f ∧ Ended s key f (.error err)
  /-- A terminal failure is never masked. -/
  terminal : forall f err, r.waitedOn = some f -> Ended s key f (.error err) ->
    isRetryable err = false -> r.result = .error err

/-- The cache changes only when a successful fetch stores its value. -/
def OnlySuccessStores (s : Sys value) (l : Label value) (s' : Sys value) : Prop :=
  s'.store = s.store ∨
    exists f key v, l = .storeFetched f ∧ s.fetches f = some ⟨key, .answered (.ok v)⟩

theorem Ended.unique {s : Sys value} {key : String} {f : Nat} {r r' : Except GoErr value}
    (h : Ended s key f r) (h' : Ended s key f r') : r = r' := by
  unfold Ended at h h'
  rw [h] at h'
  cases h'
  rfl

theorem not_servable_of_tooStale {pol : CachePolicy} {now : Int} {e : Copied value}
    (h : TooStale pol now e) : ¬ Servable pol now e := by
  intro hs
  rcases hs with hlt | hlt
  · exact absurd hlt (Int.not_lt.mpr h.left)
  · exact absurd hlt (Int.not_lt.mpr h.right)

theorem Explained.contract {cfg : CacheConfig} {clock : Int} {labels : List (Label value)}
    {s : Sys value} {i : Nat} {endpoint key : String} {r : Return value}
    (hanswer : forall f v, Succeeded f v s -> Label.answer f (.ok v) ∈ labels)
    (hstamped : CallStamped cfg clock labels i (.returned r))
    (h : Explained cfg s endpoint key r) :
    ReadContract cfg clock labels s i endpoint key r := by
  have hkeptOwn : forall p : Fetched value, Kept s key p ->
      FetchOf s key p.fetch ∧ Label.answer p.fetch (.ok p.val) ∈ labels := by
    intro p hkept
    refine ⟨?_, hanswer p.fetch p.val hkept.succeeded⟩
    rcases hkept with ⟨c, hc, hkey, _⟩
    exact ⟨c, hc, hkey⟩
  cases h with
  | @served now e hage hkept =>
      refine ⟨hstamped.left, hstamped.right, ?_, ?_, ?_, ?_, ?_⟩
      · intro p hp
        cases hp
        exact hkeptOwn e.ptr hkept
      · intro _
        exact ⟨e, rfl, rfl, hage⟩
      · intro p hp hstale
        cases hp
        exact absurd hage (not_servable_of_tooStale (hstale e rfl rfl))
      · intro err herr
        cases herr
      · intro f err hf
        cases hf
  | @fetched now entry f v hage hend =>
      refine ⟨hstamped.left, hstamped.right, ?_, ?_, ?_, ?_, ?_⟩
      · intro p hp
        cases hp
        exact ⟨hend.fetchOf, hanswer f v ⟨_, hend, Or.inr (Or.inr rfl)⟩⟩
      · intro hnone
        cases hnone
      · intro p hp _
        cases hp
        exact ⟨f, rfl, Or.inl ⟨rfl, hend⟩⟩
      · intro err herr
        cases herr
      · intro g err hg herr _
        cases hg
        cases hend.unique herr
  | @degraded now e f err hage hkept hend hretry =>
      refine ⟨hstamped.left, hstamped.right, ?_, ?_, ?_, ?_, ?_⟩
      · intro p hp
        cases hp
        exact hkeptOwn e.ptr hkept
      · intro hnone
        cases hnone
      · intro p hp _
        cases hp
        exact ⟨f, rfl, Or.inr ⟨e, err, rfl, rfl, hend, hretry⟩⟩
      · intro err' herr
        cases herr
      · intro g err' hg herr hterm
        cases hg
        cases hend.unique herr
        rw [hretry] at hterm
        cases hterm
  | @failed now entry f err hage hend hwhy =>
      refine ⟨hstamped.left, hstamped.right, ?_, ?_, ?_, ?_, ?_⟩
      · intro p hp
        cases hp
      · intro hnone
        cases hnone
      · intro p hp
        cases hp
      · intro err' herr
        cases herr
        exact ⟨f, rfl, hend⟩
      · intro g err' hg herr _
        cases hg
        cases hend.unique herr
        rfl

theorem Step.onlySuccessStores {cfg : CacheConfig} {s s' : Sys value} {l : Label value}
    (hstep : Step cfg s l s') : OnlySuccessStores s l s' := by
  cases hstep with
  | stale _ _ hguard => exact Or.inl hguard.frame.right.left
  | block _ _ hjoin => exact Or.inl hjoin.frame.left
  | refreshDo _ hjoin => exact Or.inl hjoin.frame.left
  | @storeFetched f key v hf => exact Or.inr ⟨f, key, v, rfl, hf⟩
  | _ => exact Or.inl rfl

theorem everyStep_onlySuccessStores (cfg : CacheConfig) (s : Sys value)
    (labels : List (Label value)) : EveryStep (step cfg) OnlySuccessStores s labels := by
  induction labels generalizing s with
  | nil => trivial
  | cons l rest ih =>
      cases hstep : step cfg s l with
      | none => simp only [EveryStep, hstep]
      | some mid =>
          exact (everyStep_cons hstep).mpr ⟨(step_cases hstep).onlySuccessStores, ih mid⟩

/-- Every call that has returned keeps the contract of a read, and no step but the
store of a success touches the cache. -/
theorem cached_reads {cfg : CacheConfig} {clock : Int} {labels : List (Label value)}
    {s : Sys value} (hrun : runSteps (step cfg) (Sys.init value clock) labels = some s) :
    (forall i endpoint suffix r, s.threads i = some (.call endpoint suffix (.returned r)) ->
      ReadContract cfg clock labels s i endpoint (cacheKey endpoint suffix) r) ∧
    EveryStep (step cfg) OnlySuccessStores (Sys.init value clock) labels := by
  refine ⟨?_, everyStep_onlySuccessStores cfg _ labels⟩
  intro i endpoint suffix r hr
  have hexplained : Explained cfg s endpoint (cacheKey endpoint suffix) r :=
    (accounted_run hrun).threads i _ hr
  have hstamped : CallStamped cfg clock labels i (.returned r) :=
    (stamped_run hrun).threads i _ hr
  exact hexplained.contract (fun f v hsucc => answer_mem_of_succeeded hrun hsucc) hstamped

/-- A read at the end of the stale window whose refresh meets a 503 serves the value of
the first read. -/
theorem cached_reads_staleFallback :
    exists s r, runSteps (step (CacheConfig.withDefaults ⟨0, 0, 0⟩)) (Sys.init Nat 0)
        [.invoke "events" "", .readClock 0, .readEntry 0, .act 0, .answer 0 (.ok 7),
          .storeFetched 0, .forget 0, .wake 0, .tick (60 * second), .invoke "events" "",
          .readClock 1, .readEntry 1, .act 1, .answer 1 (.error (.serviceUnavailable 0)),
          .forget 1, .wake 1] = some s ∧
      s.threads 1 = some (.call "events" "" (.returned r)) ∧ r.result = .ok ⟨0, 7⟩ ∧
      exists f, r.waitedOn = some f ∧ (0 = f ∧ Ended s (cacheKey "events" "") f (.ok 7) ∨
        exists e err, r.entry = some e ∧ e.ptr = ⟨0, 7⟩ ∧
          Ended s (cacheKey "events" "") f (.error err) ∧ isRetryable err = true) := by
  have hrun : exists s, runSteps (step (CacheConfig.withDefaults ⟨0, 0, 0⟩)) (Sys.init Nat 0)
        [.invoke "events" "", .readClock 0, .readEntry 0, .act 0, .answer 0 (.ok 7),
          .storeFetched 0, .forget 0, .wake 0, .tick (60 * second), .invoke "events" "",
          .readClock 1, .readEntry 1, .act 1, .answer 1 (.error (.serviceUnavailable 0)),
          .forget 1, .wake 1] = some s ∧
      s.threads 1 = some (.call "events" "" (.returned
        { now := 60 * second, entry := some ⟨⟨0, 7⟩, 0⟩, waitedOn := some 1,
          result := afterDo (some ⟨⟨0, 7⟩, 0⟩) 1 (.error (.serviceUnavailable 0)) })) :=
    ⟨_, rfl, rfl⟩
  rcases hrun with ⟨s, hrun, hthread⟩
  rw [afterDo_retryable (by decide)] at hthread
  have hcontract := (cached_reads hrun).left 1 "events" "" _ hthread
  refine ⟨s, _, hrun, hthread, rfl, hcontract.blocked ⟨0, 7⟩ rfl ?_⟩
  intro e he _
  cases he
  constructor <;> decide

/-- A call may join a fetch that has stored its value but has not been forgotten, and
get back the value it found too stale with no fetch of the key having failed. -/
theorem tooStale_returned_without_failure :
    exists s r e, runSteps (step (CacheConfig.withDefaults ⟨0, 0, 0⟩)) (Sys.init Nat 0)
        [.invoke "events" "", .readClock 0, .readEntry 0, .act 0, .answer 0 (.ok 7),
          .storeFetched 0, .tick (60 * second), .invoke "events" "", .readClock 1,
          .readEntry 1, .act 1, .forget 0, .wake 1] = some s ∧
      s.threads 1 = some (.call "events" "" (.returned r)) ∧
      r.entry = some e ∧ r.result = .ok e.ptr ∧
      TooStale ((CacheConfig.withDefaults ⟨0, 0, 0⟩).policyFor "events") r.now e ∧
      forall f err, ¬ Ended s (cacheKey "events" "") f (.error err) := by
  have hrun : exists s, runSteps (step (CacheConfig.withDefaults ⟨0, 0, 0⟩)) (Sys.init Nat 0)
        [.invoke "events" "", .readClock 0, .readEntry 0, .act 0, .answer 0 (.ok 7),
          .storeFetched 0, .tick (60 * second), .invoke "events" "", .readClock 1,
          .readEntry 1, .act 1, .forget 0, .wake 1] = some s ∧
      s.threads 1 = some (.call "events" "" (.returned
        { now := 60 * second, entry := some ⟨⟨0, 7⟩, 0⟩, waitedOn := some 0,
          result := .ok ⟨0, 7⟩ })) ∧
      s.nextFetch = 1 ∧ Ended s (cacheKey "events" "") 0 (.ok 7) := ⟨_, rfl, rfl, rfl, rfl⟩
  rcases hrun with ⟨s, hrun, hthread, hnext, hok⟩
  refine ⟨s, _, _, hrun, hthread, rfl, rfl, ?_, ?_⟩
  · constructor <;> decide
  · intro f err hend
    have hf := (accounted_run hrun).numbered f _ hend
    rw [hnext] at hf
    rw [Nat.lt_one_iff.mp hf] at hend
    cases hok.unique hend

end Fleet
end LodelineManager
