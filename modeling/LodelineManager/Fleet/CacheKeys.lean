import LodelineManager.Fleet.CacheOrigins
import LodelineManager.Fleet.Requests

/-!
# Keys of the caching client

The client with its methods on top: a call captures its parameters in the closure
that it hands to {lit}`getCached`, and a refresh or a fetch that it starts runs that
closure.  Whatever the cache holds under the key of a call is an answer to the
request of the call, of the type of its method.
-/

namespace LodelineManager
namespace Fleet

open Foundation

/-- A value of type {lit}`any`: what a call of the wrapped client has returned. -/
structure Answer (T : Method -> Type) where
  call : CachedCall
  val : T call.method

def Answer.as {T : Method -> Type} (m : Method) (a : Answer T) : Option (T m) :=
  if h : a.call.method = m then some (h ▸ a.val) else none

/-- The cache with the closures of its threads and of its fetches. -/
structure CachingClient (T : Method -> Type) where
  sys : Sys (Answer T)
  callOf : Nat -> Option CachedCall
  fetchOf : Nat -> Option CachedCall

inductive ClientLabel (T : Method -> Type) where
  | invoke (c : CachedCall)
  | internal (l : Label (Answer T))

def ClientLabel.base {T : Method -> Type} : ClientLabel T -> Label (Answer T)
  | .invoke c => .invoke c.endpoint c.suffix
  | .internal l => l

namespace CachingClient

variable {T : Method -> Type}

def init (T : Method -> Type) (clock : Int) : CachingClient T :=
  { sys := Sys.init (Answer T) clock, callOf := fun _ => none, fetchOf := fun _ => none }

def allows (s : CachingClient T) : Label (Answer T) -> Bool
  | .invoke _ _ => false
  | .answer f (.ok a) => decide (s.fetchOf f = some a.call)
  | _ => true

def capture (s : CachingClient T) (call : Option CachedCall) (sys : Sys (Answer T)) :
    CachingClient T :=
  { sys := sys, callOf := Function.update s.callOf s.sys.nextThread call,
    fetchOf := Function.update s.fetchOf s.sys.nextFetch call }

@[simp] theorem capture_sys (s : CachingClient T) (call : Option CachedCall)
    (sys : Sys (Answer T)) : (s.capture call sys).sys = sys := rfl

def step (cfg : CacheConfig) (s : CachingClient T) : ClientLabel T -> Option (CachingClient T)
  | .invoke c => (Fleet.step cfg s.sys (.invoke c.endpoint c.suffix)).map (s.capture (some c))
  | .internal l =>
      if s.allows l then
        (Fleet.step cfg s.sys l).map (s.capture (l.thread?.bind s.callOf))
      else none

theorem step_invoke {cfg : CacheConfig} {s s' : CachingClient T} {c : CachedCall}
    (h : step cfg s (.invoke c) = some s') :
    exists sys, Fleet.step cfg s.sys (.invoke c.endpoint c.suffix) = some sys ∧
      s' = s.capture (some c) sys := by
  unfold step at h
  rcases Option.map_eq_some_iff.mp h with ⟨sys, hsys, heq⟩
  exact ⟨sys, hsys, heq.symm⟩

theorem step_internal {cfg : CacheConfig} {s s' : CachingClient T} {l : Label (Answer T)}
    (h : step cfg s (.internal l) = some s') :
    s.allows l = true ∧ exists sys, Fleet.step cfg s.sys l = some sys ∧
      s' = s.capture (l.thread?.bind s.callOf) sys := by
  change (if s.allows l then (Fleet.step cfg s.sys l).map (s.capture (l.thread?.bind s.callOf))
    else none) = some s' at h
  split at h
  · rename_i hallows
    rcases Option.map_eq_some_iff.mp h with ⟨sys, hsys, heq⟩
    exact ⟨hallows, sys, hsys, heq.symm⟩
  · cases h

theorem step_base {cfg : CacheConfig} {s s' : CachingClient T} {l : ClientLabel T}
    (h : step cfg s l = some s') : Fleet.step cfg s.sys l.base = some s'.sys := by
  cases l with
  | invoke c =>
      rcases step_invoke h with ⟨sys, hsys, heq⟩
      rw [heq]
      exact hsys
  | internal l =>
      rcases step_internal h with ⟨_, sys, hsys, heq⟩
      rw [heq]
      exact hsys

/-!
## The invariant
-/

/-- The thread was started for the call. -/
def StartedFor (c : CachedCall) (r : Role) : Prop :=
  r = .call c.endpoint c.suffix ∨ r = .refresh c.key

theorem StartedFor.key {c : CachedCall} {r : Role} (h : StartedFor c r) : r.key = c.key := by
  rcases h with hcall | hrefresh
  · rw [hcall]
    rfl
  · rw [hrefresh]
    rfl

structure Tracked (s : CachingClient T) : Prop where
  threadNumbers : forall i t, s.sys.threads i = some t -> i < s.sys.nextThread
  fetchNumbers : Numbered s.sys
  threads : forall i t, s.sys.threads i = some t ->
    exists c, s.callOf i = some c ∧ StartedFor c t.role
  fetches : forall f d, s.sys.fetches f = some d ->
    exists c, s.fetchOf f = some c ∧ d.key = c.key
  answers : forall f a, Succeeded f a s.sys -> s.fetchOf f = some a.call

theorem tracked_init (clock : Int) : Tracked (init T clock) where
  threadNumbers := by
    intro i t h
    cases h
  fetchNumbers := by
    intro f c h
    cases h
  threads := by
    intro i t h
    cases h
  fetches := by
    intro f d h
    cases h
  answers := by
    intro f a h
    rcases h with ⟨c, hc, _⟩
    cases hc

theorem capture_callOf {s : CachingClient T} {call : Option CachedCall} {sys : Sys (Answer T)}
    {i : Nat} (h : i < s.sys.nextThread) : (s.capture call sys).callOf i = s.callOf i :=
  Function.update_of_ne (Nat.ne_of_lt h) _ _

theorem capture_fetchOf {s : CachingClient T} {call : Option CachedCall} {sys : Sys (Answer T)}
    {f : Nat} (h : f < s.sys.nextFetch) : (s.capture call sys).fetchOf f = s.fetchOf f :=
  Function.update_of_ne (Nat.ne_of_lt h) _ _

theorem Tracked.threadOf {cfg : CacheConfig} {s : CachingClient T} {l : Label (Answer T)}
    {sys : Sys (Answer T)} {call : Option CachedCall} {i : Nat} {t : Thread (Answer T)}
    (h : Tracked s) (hstep : Step cfg s.sys l sys)
    (hinvoke : forall endpoint suffix, l = .invoke endpoint suffix ->
      exists c, call = some c ∧ endpoint = c.endpoint ∧ suffix = c.suffix)
    (hcall : forall i, l.thread? = some i -> call = s.callOf i) (ht : sys.threads i = some t) :
    exists c, (s.capture call sys).callOf i = some c ∧ StartedFor c t.role := by
  cases hstep.threadOrigin ht with
  | @old u hu hrole =>
      rcases h.threads i u hu with ⟨c, hc, hfor⟩
      rw [hrole] at hfor
      exact ⟨c, (capture_callOf (h.threadNumbers i u hu)).trans hc, hfor⟩
  | @invoked endpoint suffix hl hi _ hu =>
      rcases hinvoke endpoint suffix hl with ⟨c, hc, hendpoint, hsuffix⟩
      refine ⟨c, ?_, Or.inl ?_⟩
      · rw [hi, ← hc]
        exact Function.update_self _ _ _
      · rw [hu, hendpoint, hsuffix]
        rfl
  | @spawned u hacts hi _ hu =>
      rcases hacts with ⟨j, hl, hj⟩
      rcases h.threads j u hj with ⟨c, hc, hfor⟩
      refine ⟨c, ?_, Or.inr ?_⟩
      · rw [hi, ← hc, ← hcall j hl]
        exact Function.update_self _ _ _
      · rw [hu, hfor.key]
        rfl

theorem Tracked.callOfFetch {cfg : CacheConfig} {s : CachingClient T} {l : Label (Answer T)}
    {sys : Sys (Answer T)} {call : Option CachedCall} {f : Nat} {d : Fetch (Answer T)}
    (h : Tracked s) (hstep : Step cfg s.sys l sys)
    (hcall : forall i, l.thread? = some i -> call = s.callOf i)
    (hd : sys.fetches f = some d) :
    exists c, (s.capture call sys).fetchOf f = some c ∧ d.key = c.key := by
  cases hstep.fetchOrigin hd with
  | @old d' hd' hkey _ =>
      rcases h.fetches f d' hd' with ⟨c, hc, hkey'⟩
      exact ⟨c, (capture_fetchOf (h.fetchNumbers f d' hd')).trans hc, hkey.trans hkey'⟩
  | @started t hacts hf _ _ heq =>
      rcases hacts with ⟨i, hl, hi⟩
      rcases h.threads i t hi with ⟨c, hc, hfor⟩
      refine ⟨c, ?_, ?_⟩
      · rw [hf, ← hc, ← hcall i hl]
        exact Function.update_self _ _ _
      · rw [heq]
        exact hfor.key

theorem Tracked.answerOf {cfg : CacheConfig} {s : CachingClient T} {l : Label (Answer T)}
    {sys : Sys (Answer T)} {call : Option CachedCall} {f : Nat} {a : Answer T}
    (h : Tracked s) (hstep : Step cfg s.sys l sys)
    (hanswer : forall f a, l = .answer f (.ok a) -> s.fetchOf f = some a.call)
    (hsucc : Succeeded f a sys) : (s.capture call sys).fetchOf f = some a.call := by
  have hold : f < s.sys.nextFetch ∧ s.fetchOf f = some a.call := by
    by_cases hbefore : Succeeded f a s.sys
    · constructor
      · rcases hbefore with ⟨d, hd, _⟩
        exact h.fetchNumbers f d hd
      · exact h.answers f a hbefore
    · constructor
      · rcases hsucc with ⟨d, hd, hphase⟩
        cases hstep.fetchOrigin hd with
        | @old d' hd' _ _ => exact h.fetchNumbers f d' hd'
        | started _ _ _ _ heq =>
            rw [heq] at hphase
            rcases hphase with h1 | h1 | h1 <;> cases h1
      · exact hanswer f a (hstep.answered hbefore hsucc)
  rw [capture_fetchOf hold.left]
  exact hold.right

theorem Tracked.capture {cfg : CacheConfig} {s : CachingClient T} {l : Label (Answer T)}
    {sys : Sys (Answer T)} {call : Option CachedCall} (h : Tracked s)
    (hstep : Step cfg s.sys l sys)
    (hinvoke : forall endpoint suffix, l = .invoke endpoint suffix ->
      exists c, call = some c ∧ endpoint = c.endpoint ∧ suffix = c.suffix)
    (hcall : forall i, l.thread? = some i -> call = s.callOf i)
    (hanswer : forall f a, l = .answer f (.ok a) -> s.fetchOf f = some a.call) :
    Tracked (s.capture call sys) where
  threadNumbers := by
    intro i t ht
    cases hstep.threadOrigin ht with
    | @old u hu _ => exact Nat.lt_of_lt_of_le (h.threadNumbers i u hu) hstep.nextThread_le
    | invoked _ hi hnext _ =>
        show i < sys.nextThread
        rw [hi, hnext]
        exact Nat.lt_succ_self _
    | spawned _ hi hnext _ =>
        show i < sys.nextThread
        rw [hi, hnext]
        exact Nat.lt_succ_self _
  fetchNumbers := hstep.numbered h.fetchNumbers
  threads := fun _ _ ht => h.threadOf hstep hinvoke hcall ht
  fetches := fun _ _ hd => h.callOfFetch hstep hcall hd
  answers := fun _ _ hsucc => h.answerOf hstep hanswer hsucc

theorem Tracked.step {cfg : CacheConfig} {s s' : CachingClient T} {l : ClientLabel T}
    (h : Tracked s) (hstep : step cfg s l = some s') : Tracked s' := by
  cases l with
  | invoke c =>
      rcases step_invoke hstep with ⟨sys, hsys, heq⟩
      rw [heq]
      refine h.capture (step_cases hsys) ?_ ?_ ?_
      · intro endpoint suffix hl
        cases hl
        exact ⟨c, rfl, rfl, rfl⟩
      · intro i hi
        cases hi
      · intro f a hl
        cases hl
  | internal l =>
      rcases step_internal hstep with ⟨hallows, sys, hsys, heq⟩
      rw [heq]
      refine h.capture (step_cases hsys) ?_ ?_ ?_
      · intro endpoint suffix hl
        rw [hl] at hallows
        cases hallows
      · intro i hi
        rw [hi]
        rfl
      · intro f a hl
        rw [hl] at hallows
        exact of_decide_eq_true hallows

/-!
## Answers
-/

/-- The value answers the request of the call and passes its type assertion. -/
def AnswerTo (c : CachedCall) (a : Answer T) : Prop :=
  a.call.request = c.request ∧ exists v, a.as c.method = some v

theorem answerTo_of_key {c : CachedCall} {a : Answer T} (h : a.call.key = c.key) :
    AnswerTo c a := by
  have hcall := (CachedCall.key_eq_iff a.call c).mp h
  refine ⟨(CachedCall.request_eq_iff a.call c).mpr hcall, hcall.left ▸ a.val, ?_⟩
  unfold Answer.as
  rw [dif_pos hcall.left]

theorem Tracked.key_of_kept {s : CachingClient T} {key : String} {p : Fetched (Answer T)}
    (h : Tracked s) (hkept : Kept s.sys key p) : p.val.call.key = key := by
  have hcall := h.answers p.fetch p.val hkept.succeeded
  rcases hkept with ⟨d, hd, hkey, _⟩
  rcases h.fetches p.fetch d hd with ⟨c, hc, hkey'⟩
  rw [hcall] at hc
  cases hc
  rw [← hkey', hkey]

theorem tracked_run {cfg : CacheConfig} {clock : Int} {labels : List (ClientLabel T)}
    {s : CachingClient T} (hrun : runSteps (step cfg) (init T clock) labels = some s) :
    Tracked s ∧ Accounted cfg s.sys :=
  run_invariant (P := fun s => Tracked s ∧ Accounted cfg s.sys)
    (fun _ _ _ h hstep => ⟨h.left.step hstep, (step_cases (step_base hstep)).accounted h.right⟩)
    ⟨tracked_init clock, accounted_init cfg clock⟩ hrun

theorem run_base {cfg : CacheConfig} {labels : List (ClientLabel T)} {s s' : CachingClient T}
    (h : runSteps (step cfg) s labels = some s') :
    runSteps (Fleet.step cfg) s.sys (labels.map ClientLabel.base) = some s'.sys :=
  run_map (fun _ _ _ hstep => step_base hstep) h

theorem Tracked.returned {cfg : CacheConfig} {s : CachingClient T} {i : Nat}
    {endpoint suffix : String} {r : Return (Answer T)} {p : Fetched (Answer T)} (h : Tracked s)
    (haccounted : Accounted cfg s.sys)
    (ht : s.sys.threads i = some (.call endpoint suffix (.returned r))) (hr : r.result = .ok p) :
    exists c, s.callOf i = some c ∧ endpoint = c.endpoint ∧ suffix = c.suffix ∧
      Kept s.sys c.key p := by
  rcases h.threads i _ ht with ⟨c, hc, hcall | hrefresh⟩
  · injection hcall with hendpoint hsuffix
    have hexplained : Explained cfg s.sys endpoint (cacheKey endpoint suffix) r :=
      haccounted.threads i _ ht
    have hkept := hexplained.kept hr
    rw [hendpoint, hsuffix] at hkept
    exact ⟨c, hc, hendpoint, hsuffix, hkept⟩
  · cases hrefresh

theorem answered_of_returned {cfg : CacheConfig} {clock : Int} {labels : List (ClientLabel T)}
    {s : CachingClient T} (hrun : runSteps (step cfg) (init T clock) labels = some s) {i : Nat}
    {endpoint suffix : String} {r : Return (Answer T)} {p : Fetched (Answer T)}
    (ht : s.sys.threads i = some (.call endpoint suffix (.returned r))) (hr : r.result = .ok p) :
    exists c v, s.callOf i = some c ∧ p.val.call.request = c.request ∧
      p.val.as c.method = some v ∧
      ClientLabel.internal (.answer p.fetch (.ok p.val)) ∈ labels := by
  rcases tracked_run hrun with ⟨htracked, haccounted⟩
  rcases htracked.returned haccounted ht hr with ⟨c, hc, _, _, hkept⟩
  rcases answerTo_of_key (htracked.key_of_kept hkept) with ⟨hrequest, v, hv⟩
  refine ⟨c, v, hc, hrequest, hv, ?_⟩
  rcases List.mem_map.mp (answer_mem_of_succeeded (run_base hrun) hkept.succeeded) with
    ⟨l, hl, hbase⟩
  cases l with
  | invoke c => cases hbase
  | internal l =>
      cases hbase
      exact hl

/-- Two calls share a key exactly when they share the request, so in every run what is
stored for a call, and what a call returns, answers the request of that call. -/
theorem keys_are_requests {cfg : CacheConfig} {clock : Int} {labels : List (ClientLabel T)}
    {s : CachingClient T} (hrun : runSteps (step cfg) (init T clock) labels = some s) :
    (forall c c' : CachedCall, c.key = c'.key <-> c.request = c'.request) ∧
    (forall c node, s.sys.store.lookup c.key = some node -> AnswerTo c node.val.val) ∧
    (forall i endpoint suffix r p,
      s.sys.threads i = some (.call endpoint suffix (.returned r)) -> r.result = .ok p ->
      exists c, s.callOf i = some c ∧ endpoint = c.endpoint ∧ suffix = c.suffix ∧
        AnswerTo c p.val) := by
  rcases tracked_run hrun with ⟨htracked, haccounted⟩
  refine ⟨?_, ?_, ?_⟩
  · intro c c'
    rw [CachedCall.key_eq_iff, CachedCall.request_eq_iff]
  · intro c node hnode
    exact answerTo_of_key (htracked.key_of_kept (haccounted.store c.key node hnode))
  · intro i endpoint suffix r p ht hr
    rcases htracked.returned haccounted ht hr with ⟨c, hc, hendpoint, hsuffix, hkept⟩
    exact ⟨c, hc, hendpoint, hsuffix, answerTo_of_key (htracked.key_of_kept hkept)⟩

/-- Two readers of one event share a fetch, and a host whose id looks like the key of
the event has its own. -/
theorem keys_are_requests_shared :
    exists s, runSteps (step (CacheConfig.withDefaults ⟨0, 0, 0⟩)) (init (fun _ => Nat) 0)
        [.invoke (.eventByID [97]), .invoke (.eventByID [97]),
          .invoke (.fleetHostByID [97, 124]), .internal (.readClock 0),
          .internal (.readEntry 0), .internal (.act 0), .internal (.readClock 1),
          .internal (.readEntry 1), .internal (.act 1), .internal (.readClock 2),
          .internal (.readEntry 2), .internal (.act 2),
          .internal (.answer 0 (.ok ⟨.eventByID [97], 7⟩)), .internal (.storeFetched 0),
          .internal (.forget 0), .internal (.wake 1)] = some s ∧
      exists r c, s.sys.threads 1 = some (.call "event_by_id" "a" (.returned r)) ∧
        r.result = .ok ⟨0, ⟨.eventByID [97], 7⟩⟩ ∧ s.callOf 1 = some c ∧
        AnswerTo c (⟨.eventByID [97], 7⟩ : Answer (fun _ => Nat)) := by
  have hrun : exists s, runSteps (step (CacheConfig.withDefaults ⟨0, 0, 0⟩))
        (init (fun _ => Nat) 0)
        [.invoke (.eventByID [97]), .invoke (.eventByID [97]),
          .invoke (.fleetHostByID [97, 124]), .internal (.readClock 0),
          .internal (.readEntry 0), .internal (.act 0), .internal (.readClock 1),
          .internal (.readEntry 1), .internal (.act 1), .internal (.readClock 2),
          .internal (.readEntry 2), .internal (.act 2),
          .internal (.answer 0 (.ok ⟨.eventByID [97], 7⟩)), .internal (.storeFetched 0),
          .internal (.forget 0), .internal (.wake 1)] = some s ∧
      s.sys.threads 1 = some (.call "event_by_id" "a" (.returned
        { now := 0, entry := none, waitedOn := some 0,
          result := .ok ⟨0, ⟨.eventByID [97], 7⟩⟩ })) :=
    ⟨_, rfl, rfl⟩
  rcases hrun with ⟨s, hrun, hthread⟩
  rcases (keys_are_requests hrun).right.right 1 _ _ _ _ hthread rfl with ⟨c, hc, _, _, hto⟩
  exact ⟨s, hrun, _, c, hthread, rfl, hc, hto⟩

end CachingClient

end Fleet
end LodelineManager
