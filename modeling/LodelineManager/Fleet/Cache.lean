import LodelineManager.Fleet.CacheStore
import LodelineManager.Fleet.Retry
import LodelineManager.Foundation.Runs

/-!
# The caching client

{lit}`getCached` as a transition system: any number of calls and background refreshes,
each moving one shared access at a time, with the upstream answering fetches in
any order.  Single-flight is a map from a key to the fetch that runs for it; a
fetch leaves the map when its function has returned, and its waiters go on.
-/

namespace LodelineManager
namespace Fleet

open Foundation Go

/-!
## Freshness
-/

/-- The freshness window of an endpoint. -/
structure CachePolicy where
  ttl : Int
  maxStale : Int
  deriving DecidableEq

structure CacheConfig where
  ttl : Int
  maxStale : Int
  maxEntries : Int

/-- The defaults of {lit}`NewCachingClient`. -/
def CacheConfig.withDefaults (cfg : CacheConfig) : CacheConfig :=
  { ttl := if cfg.ttl <= 0 then 5 * second else cfg.ttl
    maxStale := if cfg.maxStale <= 0 then 60 * second else cfg.maxStale
    maxEntries := if cfg.maxEntries <= 0 then 512 else cfg.maxEntries }

def slowTierMultiplier : Int := 12

def buildPolicies (live : CachePolicy) : List (String × CachePolicy) :=
  let slow : CachePolicy :=
    { ttl := wrap64 (slowTierMultiplier * live.ttl)
      maxStale := wrap64 (slowTierMultiplier * live.maxStale) }
  [("meta", slow), ("policy_meta", slow), ("event_by_id", slow), ("events", live),
    ("hosts", live), ("host_by_id", live), ("risk", live), ("compliance", live)]

def CacheConfig.policyFor (cfg : CacheConfig) (endpoint : String) : CachePolicy :=
  let live : CachePolicy := { ttl := cfg.ttl, maxStale := cfg.maxStale }
  ((buildPolicies live).lookup endpoint).getD live

/-- {lit}`now.Sub(fetchedAt)`, which saturates. -/
def ageOf (now fetchedAt : Int) : Int :=
  max (-(2 ^ 63)) (min (2 ^ 63 - 1) (now - fetchedAt))

def cacheKey (endpoint suffix : String) : String := endpoint ++ "|" ++ suffix

/-!
## States
-/

/-- The pointer that a fetch returned: which fetch allocated it, and what it points
at. -/
structure Fetched (value : Type) where
  fetch : Nat
  val : value
  deriving DecidableEq

/-- A copy of a cached value and its stamp. -/
structure Copied (value : Type) where
  ptr : Fetched value
  fetchedAt : Int

/-- How far the function of a fetch has come: in flight upstream, answered,
stored, or returned and forgotten. -/
inductive FetchPhase (value : Type) where
  | running
  | answered (r : Except GoErr value)
  | stored (v : value)
  | done (r : Except GoErr value)

structure Fetch (value : Type) where
  key : String
  phase : FetchPhase value

/-- How a call ended: what it had read, the fetch it waited on, and its result. -/
structure Return (value : Type) where
  now : Int
  entry : Option (Copied value)
  waitedOn : Option Nat
  result : Except GoErr (Fetched value)

inductive CallPhase (value : Type) where
  | started
  | clocked (now : Int)
  | copied (now : Int) (entry : Option (Copied value))
  | waiting (now : Int) (entry : Option (Copied value)) (fetch : Nat)
  | returned (r : Return value)

inductive RefreshPhase where
  | started
  | waiting (fetch : Nat)
  | ending

inductive Thread (value : Type) where
  | call (endpoint suffix : String) (phase : CallPhase value)
  | refresh (key : String) (phase : RefreshPhase)

structure Sys (value : Type) where
  clock : Int
  store : CacheStore (Fetched value)
  group : String -> Option Nat
  fetches : Nat -> Option (Fetch value)
  nextFetch : Nat
  refreshing : String -> Bool
  bgRefreshes : Nat
  threads : Nat -> Option (Thread value)
  nextThread : Nat

def Sys.init (value : Type) (clock : Int) : Sys value :=
  { clock := clock, store := CacheStore.empty, group := fun _ => none, fetches := fun _ => none,
    nextFetch := 0, refreshing := fun _ => false, bgRefreshes := 0,
    threads := fun _ => none, nextThread := 0 }

namespace Sys

variable {value : Type}

def setThread (s : Sys value) (i : Nat) (t : Thread value) : Sys value :=
  { s with threads := Function.update s.threads i (some t) }

def addThread (s : Sys value) (t : Thread value) : Sys value :=
  { s with threads := Function.update s.threads s.nextThread (some t)
           nextThread := s.nextThread + 1 }

def setFetch (s : Sys value) (f : Nat) (c : Fetch value) : Sys value :=
  { s with fetches := Function.update s.fetches f (some c) }

def startFetch (s : Sys value) (key : String) : Sys value :=
  { s with fetches := Function.update s.fetches s.nextFetch
             (some { key := key, phase := .running })
           group := Function.update s.group key (some s.nextFetch)
           nextFetch := s.nextFetch + 1 }

def forgetFetch (s : Sys value) (f : Nat) (key : String) (r : Except GoErr value) : Sys value :=
  { s.setFetch f ⟨key, .done r⟩ with group := Function.update s.group key none }

/-- {lit}`c.store(key, out)` in the function of a fetch. -/
def storeFetch (s : Sys value) (maxEntries : Int) (f : Nat) (key : String) (v : value) :
    Sys value :=
  { s.setFetch f ⟨key, .stored v⟩ with
    store := s.store.store maxEntries key { fetch := f, val := v } s.clock }

/-- {lit}`c.sf.Do(key, fetchStore)` up to where it blocks: join the fetch of the key, or
start one. -/
def joinOrStart (s : Sys value) (key : String) : Sys value × Nat :=
  match s.group key with
  | some f => (s, f)
  | none => (s.startFetch key, s.nextFetch)

def enterRefresh (s : Sys value) (key : String) : Sys value :=
  { s.addThread (.refresh key .started) with
    refreshing := Function.update s.refreshing key true
    bgRefreshes := s.bgRefreshes + 1 }

/-- {lit}`defer c.refreshing.Delete(key)`, and the goroutine is gone. -/
def leaveRefresh (s : Sys value) (i : Nat) (key : String) : Sys value :=
  { s with threads := Function.update s.threads i none
           refreshing := Function.update s.refreshing key false }

def spawnRefresh (s : Sys value) (key : String) : Sys value :=
  if s.refreshing key then s else s.enterRefresh key

@[simp] theorem setThread_threads (s : Sys value) (i : Nat) (t : Thread value) :
    (s.setThread i t).threads = Function.update s.threads i (some t) := rfl

@[simp] theorem addThread_threads (s : Sys value) (t : Thread value) :
    (s.addThread t).threads = Function.update s.threads s.nextThread (some t) := rfl

@[simp] theorem enterRefresh_threads (s : Sys value) (key : String) :
    (s.enterRefresh key).threads =
      Function.update s.threads s.nextThread (some (.refresh key .started)) := rfl

@[simp] theorem enterRefresh_refreshing (s : Sys value) (key : String) :
    (s.enterRefresh key).refreshing = Function.update s.refreshing key true := rfl

@[simp] theorem leaveRefresh_threads (s : Sys value) (i : Nat) (key : String) :
    (s.leaveRefresh i key).threads = Function.update s.threads i none := rfl

@[simp] theorem leaveRefresh_refreshing (s : Sys value) (i : Nat) (key : String) :
    (s.leaveRefresh i key).refreshing = Function.update s.refreshing key false := rfl

@[simp] theorem setFetch_fetches (s : Sys value) (f : Nat) (c : Fetch value) :
    (s.setFetch f c).fetches = Function.update s.fetches f (some c) := rfl

@[simp] theorem startFetch_fetches (s : Sys value) (key : String) :
    (s.startFetch key).fetches =
      Function.update s.fetches s.nextFetch (some { key := key, phase := .running }) := rfl

@[simp] theorem startFetch_group (s : Sys value) (key : String) :
    (s.startFetch key).group = Function.update s.group key (some s.nextFetch) := rfl

@[simp] theorem startFetch_nextFetch (s : Sys value) (key : String) :
    (s.startFetch key).nextFetch = s.nextFetch + 1 := rfl

@[simp] theorem forgetFetch_fetches (s : Sys value) (f : Nat) (key : String)
    (r : Except GoErr value) :
    (s.forgetFetch f key r).fetches = Function.update s.fetches f (some ⟨key, .done r⟩) := rfl

@[simp] theorem forgetFetch_group (s : Sys value) (f : Nat) (key : String)
    (r : Except GoErr value) :
    (s.forgetFetch f key r).group = Function.update s.group key none := rfl

@[simp] theorem storeFetch_fetches (s : Sys value) (maxEntries : Int) (f : Nat) (key : String)
    (v : value) :
    (s.storeFetch maxEntries f key v).fetches =
      Function.update s.fetches f (some ⟨key, .stored v⟩) := rfl

@[simp] theorem storeFetch_store (s : Sys value) (maxEntries : Int) (f : Nat) (key : String)
    (v : value) :
    (s.storeFetch maxEntries f key v).store =
      s.store.store maxEntries key { fetch := f, val := v } s.clock := rfl

/-- What the age of the cached entry asks for. -/
inductive Freshness where
  | fresh
  | stale
  | tooStale

def freshness (pol : CachePolicy) (age : Int) : Freshness :=
  if age < pol.ttl then .fresh
  else if age < pol.maxStale then .stale
  else .tooStale

/-- A call that has read its entry serves it or blocks on a fetch. -/
def serveOrFetch (cfg : CacheConfig) (s : Sys value) (i : Nat) (endpoint suffix : String)
    (now : Int) (entry : Option (Copied value)) : Sys value :=
  let key := cacheKey endpoint suffix
  let block : Sys value :=
    (s.joinOrStart key).1.setThread i
      (.call endpoint suffix (.waiting now entry (s.joinOrStart key).2))
  match entry with
  | none => block
  | some e =>
      let served : Thread value := .call endpoint suffix
        (.returned { now := now, entry := entry, waitedOn := none, result := .ok e.ptr })
      match freshness (cfg.policyFor endpoint) (ageOf now e.fetchedAt) with
      | .fresh => s.setThread i served
      | .stale => (s.setThread i served).spawnRefresh key
      | .tooStale => block

end Sys

/-- What a call that blocked on a fetch makes of its outcome: an error gives way to
the cached value only when it is transient. -/
def afterDo {value : Type} (entry : Option (Copied value)) (fetch : Nat)
    (r : Except GoErr value) : Except GoErr (Fetched value) :=
  match r with
  | .ok v => .ok { fetch := fetch, val := v }
  | .error err =>
      match entry with
      | none => .error err
      | some e => if isRetryable err then .ok e.ptr else .error err

theorem afterDo_retryable {value : Type} {err : GoErr} (h : isRetryable err = true)
    (e : Copied value) (f : Nat) : afterDo (some e) f (.error err) = .ok e.ptr :=
  if_pos h

theorem afterDo_terminal {value : Type} {err : GoErr} (h : isRetryable err = false)
    (e : Copied value) (f : Nat) : afterDo (some e) f (.error err) = .error err :=
  if_neg (by rw [h]; exact Bool.false_ne_true)

/-!
## Steps
-/

inductive Label (value : Type) where
  | tick (clock : Int)
  | invoke (endpoint suffix : String)
  | readClock (i : Nat)
  | readEntry (i : Nat)
  | act (i : Nat)
  | wake (i : Nat)
  | refreshDo (i : Nat)
  | refreshWake (i : Nat)
  | refreshDelete (i : Nat)
  | answer (f : Nat) (r : Except GoErr value)
  | storeFetched (f : Nat)
  | forget (f : Nat)

section

variable {value : Type}

/-- A step of a call or of a refresh goroutine. -/
def threadStep (cfg : CacheConfig) (s : Sys value) (i : Nat) :
    Label value -> Thread value -> Option (Sys value)
  | .readClock _, .call endpoint suffix .started =>
      some (s.setThread i (.call endpoint suffix (.clocked s.clock)))
  | .readEntry _, .call endpoint suffix (.clocked now) =>
      some (s.setThread i (.call endpoint suffix (.copied now
        ((s.store.lookup (cacheKey endpoint suffix)).map
          (fun node => { ptr := node.val, fetchedAt := node.fetchedAt })))))
  | .act _, .call endpoint suffix (.copied now entry) =>
      some (s.serveOrFetch cfg i endpoint suffix now entry)
  | .wake _, .call endpoint suffix (.waiting now entry f) =>
      match s.fetches f with
      | some ⟨_, .done r⟩ =>
          some (s.setThread i (.call endpoint suffix (.returned
            { now := now, entry := entry, waitedOn := some f, result := afterDo entry f r })))
      | _ => none
  | .refreshDo _, .refresh key .started =>
      some ((s.joinOrStart key).1.setThread i (.refresh key (.waiting (s.joinOrStart key).2)))
  | .refreshWake _, .refresh key (.waiting f) =>
      match s.fetches f with
      | some ⟨_, .done _⟩ => some (s.setThread i (.refresh key .ending))
      | _ => none
  | .refreshDelete _, .refresh key .ending => some (s.leaveRefresh i key)
  | _, _ => none

def fetchStep (cfg : CacheConfig) (s : Sys value) (f : Nat) :
    Label value -> Fetch value -> Option (Sys value)
  | .answer _ r, ⟨key, .running⟩ => some (s.setFetch f ⟨key, .answered r⟩)
  | .storeFetched _, ⟨key, .answered (.ok v)⟩ => some (s.storeFetch cfg.maxEntries f key v)
  | .forget _, ⟨key, .stored v⟩ => some (s.forgetFetch f key (.ok v))
  | .forget _, ⟨key, .answered (.error err)⟩ => some (s.forgetFetch f key (.error err))
  | _, _ => none

def Label.thread? : Label value -> Option Nat
  | .readClock i | .readEntry i | .act i | .wake i => some i
  | .refreshDo i | .refreshWake i | .refreshDelete i => some i
  | _ => none

def Label.fetch? : Label value -> Option Nat
  | .answer f _ | .storeFetched f | .forget f => some f
  | _ => none

def step (cfg : CacheConfig) (s : Sys value) (l : Label value) : Option (Sys value) :=
  match l with
  | .tick clock => if s.clock <= clock then some { s with clock := clock } else none
  | .invoke endpoint suffix => some (s.addThread (.call endpoint suffix .started))
  | l =>
      match l.thread?, l.fetch? with
      | some i, _ =>
          match s.threads i with
          | some t => threadStep cfg s i l t
          | none => none
      | none, some f =>
          match s.fetches f with
          | some c => fetchStep cfg s f l c
          | none => none
      | none, none => none

end

end Fleet
end LodelineManager
