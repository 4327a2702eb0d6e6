import LodelineManager.Auth.OIDC
import LodelineManager.Foundation.Runs
import Mathlib.Logic.Function.Basic

/-!
# Runs of concurrent logins

Any number of {lit}`Begin`, {lit}`consume` and {lit}`Complete` calls, which touch the shared
map one at a time under its lock.  The state also keeps the history that the map
forgets: the attempts that were begun and those that were consumed.
-/

namespace LodelineManager
namespace Auth

open Foundation Go

/-- A {lit}`Begin` that succeeded. -/
structure Begun where
  state : String
  binding : String
  nonce : String
  verifier : String
  time : Int

/-- The attempt that a {lit}`Begin` puts into the map. -/
def Begun.attempt (b : Begun) : LoginAttempt :=
  { binding := b.binding, nonce := b.nonce, verifier := b.verifier
    expires := b.time + loginAttemptTTL }

/-- A {lit}`consume` that succeeded, and the {lit}`Complete` call it belongs to, if any. -/
structure Consumption where
  call : Option Nat
  state : String
  binding : String
  time : Int
  attempt : LoginAttempt

/-- A {lit}`Complete` call has consumed, and then finished with what the provider said. -/
inductive CompletePhase where
  | consumed (r : Except String LoginAttempt)
  | finished (r : Except String LoginAttempt) (p : Provider) (out : Except String (String × Int))

structure CompleteCall where
  state : String
  binding : String
  code : String
  phase : CompletePhase

/-- {lit}`draws` counts the values that {lit}`oauth2.GenerateVerifier` has given out. -/
structure Sys where
  clock : Int
  attempts : Attempts
  draws : Nat
  begun : List Begun
  consumed : List Consumption
  calls : Nat -> Option CompleteCall
  nextCall : Nat

def Sys.init (clock : Int) : Sys :=
  { clock := clock, attempts := ∅, draws := 0, begun := [], consumed := []
    calls := fun _ => none, nextCall := 0 }

inductive Label where
  | tick (clock : Int)
  | begin
  | consume (state binding : String)
  | complete (state binding code : String)
  | finish (i : Nat) (p : Provider)

section

variable (cfg : OIDCConfig) (env : OIDCEnv) (gen : Nat -> String)

/-- The attempt that the next {lit}`Begin` draws. -/
def Sys.drawn (s : Sys) : Begun :=
  { state := gen s.draws, binding := gen (s.draws + 1), nonce := gen (s.draws + 2)
    verifier := gen (s.draws + 3), time := s.clock }

/-- What {lit}`Begin` does in a state. -/
def Sys.beginResult (s : Sys) : Attempts × Except String (String × String) :=
  beginLogin env s.attempts s.clock (s.drawn gen).state (s.drawn gen).binding (s.drawn gen).nonce
    (s.drawn gen).verifier

def Sys.begin (s : Sys) : Sys :=
  { s with
    attempts := (s.beginResult env gen).1
    draws := s.draws + 4
    begun := if (s.beginResult env gen).2.isOk then s.drawn gen :: s.begun else s.begun }

/-- What {lit}`consume` does in a state. -/
def Sys.consumeResult (s : Sys) (state binding : String) :
    Attempts × Except String LoginAttempt :=
  Auth.consume s.attempts s.clock state binding

/-- {lit}`consume` on its own or in a {lit}`Complete` call. -/
def Sys.consume (s : Sys) (call : Option Nat) (state binding : String) : Sys :=
  { s with
    attempts := (s.consumeResult state binding).1
    consumed :=
      match (s.consumeResult state binding).2 with
      | .ok a =>
          { call := call, state := state, binding := binding, time := s.clock, attempt := a } ::
            s.consumed
      | .error _ => s.consumed }

def Sys.setCall (s : Sys) (i : Nat) (c : CompleteCall) : Sys :=
  { s with calls := Function.update s.calls i (some c) }

/-- A new {lit}`Complete` call, up to the end of its {lit}`consume`. -/
def Sys.complete (s : Sys) (state binding code : String) : Sys :=
  { (s.consume (some s.nextCall) state binding).setCall s.nextCall
      { state := state, binding := binding, code := code
        phase := .consumed (s.consumeResult state binding).2 } with
    nextCall := s.nextCall + 1 }

def step (s : Sys) : Label -> Option Sys
  | .tick clock => if s.clock <= clock then some { s with clock := clock } else none
  | .begin => some (s.begin env gen)
  | .consume state binding => some (s.consume none state binding)
  | .complete state binding code => some (s.complete state binding code)
  | .finish i p =>
      match s.calls i with
      | some ⟨state, binding, code, .consumed r⟩ =>
          some (s.setCall i ⟨state, binding, code,
            .finished r p (finishLogin cfg env p code r)⟩)
      | _ => none

end

/-!
## The map and the history
-/

def pending (s : Sys) : List Begun :=
  s.begun.filter (fun b => decide (s.clock < b.time + loginAttemptTTL) &&
    decide (b.state ∉ s.consumed.map Consumption.state))

/-- The history is one of distinct attempts, each consumed at most once and rightly. -/
structure HistoryOk (gen : Nat -> String) (s : Sys) : Prop where
  drawn : forall b, b ∈ s.begun -> exists k, k < s.draws ∧ b.state = gen k
  past : forall b, b ∈ s.begun -> b.time <= s.clock
  distinct : (s.begun.map Begun.state).Nodup
  once : (s.consumed.map Consumption.state).Nodup
  matched : forall c, c ∈ s.consumed -> exists b, b ∈ s.begun ∧ c.state = b.state ∧
    c.binding = b.binding ∧ c.attempt = b.attempt ∧ b.time <= c.time ∧
    c.time < b.time + loginAttemptTTL

/-- The map holds what the history says. -/
structure TableOk (s : Sys) : Prop where
  entries : forall state a, s.attempts.lookup state = some a ->
    exists b, b ∈ s.begun ∧ b.state = state ∧ a = b.attempt
  present : forall b, b ∈ s.begun -> b.state ∉ s.consumed.map Consumption.state ->
    s.clock < b.time + loginAttemptTTL -> s.attempts.lookup b.state = some b.attempt
  gone : forall c, c ∈ s.consumed -> s.attempts.lookup c.state = none
  bounded : s.attempts.entries.length <= maxLoginAttempts

/-- What the calls have comes from their own {lit}`consume`. -/
structure CallsOk (cfg : OIDCConfig) (env : OIDCEnv) (s : Sys) : Prop where
  own : forall i state binding code r, s.calls i = some ⟨state, binding, code, .consumed r⟩ ->
    forall a, r = .ok a -> exists c, c ∈ s.consumed ∧ c.call = some i ∧ c.state = state ∧
      c.binding = binding ∧ c.attempt = a
  finished : forall i state binding code r p out,
    s.calls i = some ⟨state, binding, code, .finished r p out⟩ ->
    out = finishLogin cfg env p code r ∧
    forall a, r = .ok a -> exists c, c ∈ s.consumed ∧ c.call = some i ∧ c.state = state ∧
      c.binding = binding ∧ c.attempt = a

structure LoginsOk (cfg : OIDCConfig) (env : OIDCEnv) (gen : Nat -> String) (s : Sys) : Prop where
  history : HistoryOk gen s
  table : TableOk s
  calls : CallsOk cfg env s

/-!
## What the steps do
-/

section

variable {cfg : OIDCConfig} {env : OIDCEnv} {gen : Nat -> String}

/-- {lit}`Begin` with a full map only sweeps it. -/
def Sys.sweepOnly (s : Sys) : Sys :=
  { s with attempts := sweep s.clock s.attempts, draws := s.draws + 4 }

/-- {lit}`Begin` with room in the map. -/
def Sys.register (s : Sys) (gen : Nat -> String) : Sys :=
  { s with
    attempts := (sweep s.clock s.attempts).insert (s.drawn gen).state (s.drawn gen).attempt
    draws := s.draws + 4
    begun := s.drawn gen :: s.begun }

@[simp] theorem register_attempts (s : Sys) (gen : Nat -> String) :
    (s.register gen).attempts =
      (sweep s.clock s.attempts).insert (s.drawn gen).state (s.drawn gen).attempt := rfl

theorem begin_full {s : Sys} (env : OIDCEnv) (gen : Nat -> String)
    (h : maxLoginAttempts <= (sweep s.clock s.attempts).entries.length) :
    (exists e, (s.beginResult env gen).2 = .error e) ∧ s.begin env gen = s.sweepOnly := by
  have hresult : s.beginResult env gen =
      (sweep s.clock s.attempts, .error "too many pending OIDC logins") := if_pos h
  constructor
  · exact ⟨_, by rw [hresult]⟩
  · unfold Sys.begin
    rw [hresult]
    rfl

theorem begin_room {s : Sys} (env : OIDCEnv) (gen : Nat -> String)
    (h : ¬ maxLoginAttempts <= (sweep s.clock s.attempts).entries.length) :
    (exists out, (s.beginResult env gen).2 = .ok out) ∧ s.begin env gen = s.register gen := by
  have hresult : s.beginResult env gen =
      ((sweep s.clock s.attempts).insert (s.drawn gen).state (s.drawn gen).attempt,
        .ok (env.authCodeURL (s.drawn gen).state (s.drawn gen).nonce (s.drawn gen).verifier,
          (s.drawn gen).binding)) := if_neg h
  constructor
  · exact ⟨_, by rw [hresult]⟩
  · unfold Sys.begin
    rw [hresult]
    rfl

def Sys.dropAttempt (s : Sys) (state : String) : Sys :=
  { s with attempts := s.attempts.erase state }

def Sys.takeAttempt (s : Sys) (c : Consumption) : Sys :=
  { s with attempts := s.attempts.erase c.state, consumed := c :: s.consumed }

/-- The outcomes of {lit}`consume`. -/
inductive Consumed (s : Sys) (call : Option Nat) (state binding : String) :
    Sys -> Except String LoginAttempt -> Prop where
  | refused : Mismatched s.attempts state binding ->
      Consumed s call state binding s (.error errOIDCLogin)
  | expired {a : LoginAttempt} : s.attempts.lookup state = some a -> a.expires <= s.clock ->
      Consumed s call state binding (s.dropAttempt state) (.error errOIDCLogin)
  | taken {a : LoginAttempt} : s.attempts.lookup state = some a -> a.binding = binding ->
      s.clock < a.expires ->
      Consumed s call state binding (s.takeAttempt ⟨call, state, binding, s.clock, a⟩) (.ok a)

theorem consumeResult_refused {s : Sys} {state binding : String}
    (h : Mismatched s.attempts state binding) :
    s.consumeResult state binding = (s.attempts, .error errOIDCLogin) :=
  consume_mismatched h

theorem consume_refused {s : Sys} {state binding : String}
    (h : Mismatched s.attempts state binding) (call : Option Nat) :
    s.consume call state binding = s := by
  unfold Sys.consume
  rw [consumeResult_refused h]

theorem consumed_consume (s : Sys) (call : Option Nat) (state binding : String) :
    Consumed s call state binding (s.consume call state binding)
      (s.consumeResult state binding).2 := by
  by_cases hmis : Mismatched s.attempts state binding
  · rw [consume_refused hmis, consumeResult_refused hmis]
    exact Consumed.refused hmis
  · unfold Mismatched at hmis
    rw [not_or, not_forall] at hmis
    rcases hmis with ⟨hne, a, ha⟩
    rw [Classical.not_imp, not_not] at ha
    rcases ha with ⟨hlookup, hbinding⟩
    have hresult : s.consumeResult state binding = _ := consume_matched hlookup hne hbinding
    unfold Sys.consume
    rw [hresult]
    by_cases hover : a.expires <= s.clock
    · rw [if_pos hover]
      exact Consumed.expired hlookup hover
    · rw [if_neg hover]
      exact Consumed.taken hlookup hbinding (Int.not_le.mp hover)

/-!
## Every step keeps the map true to the history
-/

theorem loginsOk_init (cfg : OIDCConfig) (env : OIDCEnv) (gen : Nat -> String) (clock : Int) :
    LoginsOk cfg env gen (Sys.init clock) where
  history :=
    { drawn := fun b hb => by cases hb
      past := fun b hb => by cases hb
      distinct := List.nodup_nil
      once := List.nodup_nil
      matched := fun c hc => by cases hc }
  table :=
    { entries := fun state a h => by
        change AList.lookup state (∅ : Attempts) = some a at h
        rw [AList.lookup_empty] at h
        cases h
      present := fun b hb => by cases hb
      gone := fun c hc => by cases hc
      bounded := Nat.zero_le _ }
  calls :=
    { own := fun i state binding code r h => by cases h
      finished := fun i state binding code r p out h => by cases h }

theorem LoginsOk.tick {s : Sys} (h : LoginsOk cfg env gen s) {clock : Int}
    (hle : s.clock <= clock) : LoginsOk cfg env gen { s with clock := clock } where
  history :=
    { drawn := h.history.drawn
      past := fun b hb => Int.le_trans (h.history.past b hb) hle
      distinct := h.history.distinct
      once := h.history.once
      matched := h.history.matched }
  table :=
    { entries := h.table.entries
      present := fun b hb hnot hlive =>
        h.table.present b hb hnot (Int.lt_of_le_of_lt hle hlive)
      gone := h.table.gone
      bounded := h.table.bounded }
  calls := { own := h.calls.own, finished := h.calls.finished }

theorem lookup_sweep_present {s : Sys} (h : TableOk s) {b : Begun} (hb : b ∈ s.begun)
    (hnot : b.state ∉ s.consumed.map Consumption.state)
    (hlive : s.clock < b.time + loginAttemptTTL) :
    (sweep s.clock s.attempts).lookup b.state = some b.attempt :=
  lookup_sweep.mpr ⟨h.present b hb hnot hlive, hlive⟩

theorem LoginsOk.sweepOnly {s : Sys} (h : LoginsOk cfg env gen s) :
    LoginsOk cfg env gen s.sweepOnly where
  history :=
    { drawn := fun b hb => by
        rcases h.history.drawn b hb with ⟨k, hk, heq⟩
        exact ⟨k, Nat.lt_add_right 4 hk, heq⟩
      past := h.history.past
      distinct := h.history.distinct
      once := h.history.once
      matched := h.history.matched }
  table :=
    { entries := fun state a hlookup => h.table.entries state a (lookup_sweep.mp hlookup).left
      present := fun b hb hnot hlive => lookup_sweep_present h.table hb hnot hlive
      gone := fun c hc => lookup_none_of_deleteWhere (h.table.gone c hc)
      bounded := Nat.le_trans (deleteWhere_length_le _ _) h.table.bounded }
  calls := { own := h.calls.own, finished := h.calls.finished }

theorem drawn_fresh {s : Sys} (hgen : Function.Injective gen) (h : HistoryOk gen s) :
    (s.drawn gen).state ∉ s.begun.map Begun.state ∧
      (s.drawn gen).state ∉ s.consumed.map Consumption.state := by
  have hbegun : forall b, b ∈ s.begun -> b.state ≠ (s.drawn gen).state := by
    intro b hb heq
    rcases h.drawn b hb with ⟨k, hk, hgenk⟩
    rw [hgenk] at heq
    exact absurd (hgen heq) (Nat.ne_of_lt hk)
  constructor
  · intro hmem
    rcases List.mem_map.mp hmem with ⟨b, hb, heq⟩
    exact hbegun b hb heq
  · intro hmem
    rcases List.mem_map.mp hmem with ⟨c, hc, heq⟩
    rcases h.matched c hc with ⟨b, hb, hstate, _⟩
    exact hbegun b hb (hstate.symm.trans heq)

theorem LoginsOk.register {s : Sys} (hgen : Function.Injective gen) (h : LoginsOk cfg env gen s)
    (hroom : ¬ maxLoginAttempts <= (sweep s.clock s.attempts).entries.length) :
    LoginsOk cfg env gen (s.register gen) := by
  rcases drawn_fresh hgen h.history with ⟨hfresh, hunused⟩
  refine ⟨⟨?_, ?_, ?_, h.history.once, ?_⟩, ⟨?_, ?_, ?_, ?_⟩, ⟨h.calls.own, h.calls.finished⟩⟩
  · intro b hb
    rcases List.mem_cons.mp hb with hnew | hold
    · exact ⟨s.draws, Nat.lt_add_of_pos_right (by decide), by rw [hnew]; rfl⟩
    · rcases h.history.drawn b hold with ⟨k, hk, heq⟩
      exact ⟨k, Nat.lt_add_right 4 hk, heq⟩
  · intro b hb
    rcases List.mem_cons.mp hb with hnew | hold
    · rw [hnew]
      exact Int.le_refl _
    · exact h.history.past b hold
  · exact List.nodup_cons.mpr ⟨hfresh, h.history.distinct⟩
  · intro c hc
    rcases h.history.matched c hc with ⟨b, hb, hrest⟩
    exact ⟨b, List.mem_cons_of_mem _ hb, hrest⟩
  · intro state a hlookup
    by_cases hstate : state = (s.drawn gen).state
    · rw [hstate, register_attempts, AList.lookup_insert] at hlookup
      cases hlookup
      exact ⟨s.drawn gen, List.mem_cons_self, hstate.symm, rfl⟩
    · rw [register_attempts, AList.lookup_insert_ne hstate] at hlookup
      rcases h.table.entries state a (lookup_sweep.mp hlookup).left with ⟨b, hb, hrest⟩
      exact ⟨b, List.mem_cons_of_mem _ hb, hrest⟩
  · intro b hb hnot hlive
    rcases List.mem_cons.mp hb with hnew | hold
    · rw [hnew]
      exact AList.lookup_insert _
    · have hne : b.state ≠ (s.drawn gen).state := by
        intro heq
        exact hfresh (List.mem_map.mpr ⟨b, hold, heq⟩)
      rw [register_attempts, AList.lookup_insert_ne hne]
      exact lookup_sweep_present h.table hold hnot hlive
  · intro c hc
    have hne : c.state ≠ (s.drawn gen).state := by
      intro heq
      exact hunused (List.mem_map.mpr ⟨c, hc, heq⟩)
    rw [register_attempts, AList.lookup_insert_ne hne]
    exact lookup_none_of_deleteWhere (h.table.gone c hc)
  · exact Nat.le_trans (insert_length_le _ _ _) (Nat.succ_le_of_lt (Nat.lt_of_not_le hroom))

theorem TableOk.dropAttempt {s : Sys} {state : String} {a : LoginAttempt} (h : TableOk s)
    (hlookup : s.attempts.lookup state = some a) (hover : a.expires <= s.clock) :
    TableOk (s.dropAttempt state) := by
  refine ⟨?_, ?_, ?_, Nat.le_trans (erase_length_le _ _) h.bounded⟩
  · intro state' a' h'
    exact h.entries state' a' (lookup_of_erase h')
  · intro b hb hnot hlive
    have hb' := h.present b hb hnot hlive
    have hne : b.state ≠ state := by
      intro heq
      rw [heq, hlookup] at hb'
      cases hb'
      exact absurd hlive (Int.not_lt.mpr hover)
    exact (AList.lookup_erase_ne hne).trans hb'
  · intro c hc
    exact lookup_none_of_erase (h.gone c hc)

theorem TableOk.takeAttempt {s : Sys} {c : Consumption} (h : TableOk s) :
    TableOk (s.takeAttempt c) := by
  refine ⟨?_, ?_, ?_, Nat.le_trans (erase_length_le _ _) h.bounded⟩
  · intro state a h'
    exact h.entries state a (lookup_of_erase h')
  · intro b hb hnot hlive
    rw [show (s.takeAttempt c).consumed = c :: s.consumed from rfl, List.map_cons, List.mem_cons,
      not_or] at hnot
    exact (AList.lookup_erase_ne hnot.left).trans (h.present b hb hnot.right hlive)
  · intro d hd
    rcases List.mem_cons.mp hd with hnew | hold
    · rw [hnew]
      exact AList.lookup_erase _ _
    · exact lookup_none_of_erase (h.gone d hold)

theorem HistoryOk.takeAttempt {s : Sys} {call : Option Nat} {state binding : String}
    {a : LoginAttempt} (h : HistoryOk gen s) (ht : TableOk s)
    (hlookup : s.attempts.lookup state = some a) (hbinding : a.binding = binding)
    (hlive : s.clock < a.expires) :
    HistoryOk gen (s.takeAttempt ⟨call, state, binding, s.clock, a⟩) := by
  have hunused : state ∉ s.consumed.map Consumption.state := by
    intro hmem
    rcases List.mem_map.mp hmem with ⟨c, hc, heq⟩
    have hgone := ht.gone c hc
    rw [heq, hlookup] at hgone
    cases hgone
  refine ⟨h.drawn, h.past, h.distinct, List.nodup_cons.mpr ⟨hunused, h.once⟩, ?_⟩
  intro c hc
  rcases List.mem_cons.mp hc with hnew | hold
  · rcases ht.entries state a hlookup with ⟨b, hb, hstate, ha⟩
    rw [hnew]
    refine ⟨b, hb, hstate.symm, ?_, ha, h.past b hb, ?_⟩
    · rw [← hbinding, ha]
      rfl
    · rw [ha] at hlive
      exact hlive
  · exact h.matched c hold

theorem CallsOk.grow {s s' : Sys} (h : CallsOk cfg env s) (hcalls : s'.calls = s.calls)
    (hconsumed : forall c, c ∈ s.consumed -> c ∈ s'.consumed) : CallsOk cfg env s' := by
  constructor
  · intro i state binding code r hi a ha
    rw [hcalls] at hi
    rcases h.own i state binding code r hi a ha with ⟨c, hc, hrest⟩
    exact ⟨c, hconsumed c hc, hrest⟩
  · intro i state binding code r p out hi
    rw [hcalls] at hi
    rcases h.finished i state binding code r p out hi with ⟨hout, hown⟩
    constructor
    · exact hout
    · intro a ha
      rcases hown a ha with ⟨c, hc, hrest⟩
      exact ⟨c, hconsumed c hc, hrest⟩

theorem Consumed.loginsOk {s s' : Sys} {call : Option Nat} {state binding : String}
    {r : Except String LoginAttempt} (h : LoginsOk cfg env gen s)
    (hstep : Consumed s call state binding s' r) : LoginsOk cfg env gen s' := by
  cases hstep with
  | refused _ => exact h
  | expired hlookup hover =>
      exact ⟨⟨h.history.drawn, h.history.past, h.history.distinct, h.history.once,
        h.history.matched⟩, h.table.dropAttempt hlookup hover, h.calls.grow rfl (fun _ hc => hc)⟩
  | taken hlookup hbinding hlive =>
      exact ⟨h.history.takeAttempt h.table hlookup hbinding hlive, h.table.takeAttempt,
        h.calls.grow rfl (fun _ hc => List.mem_cons_of_mem _ hc)⟩

theorem Consumed.recorded {s s' : Sys} {call : Option Nat} {state binding : String}
    {r : Except String LoginAttempt} (h : Consumed s call state binding s' r) :
    forall a, r = .ok a -> exists c, c ∈ s'.consumed ∧ c.call = call ∧ c.state = state ∧
      c.binding = binding ∧ c.attempt = a := by
  intro a ha
  cases h with
  | refused _ => cases ha
  | expired _ _ => cases ha
  | taken _ _ _ =>
      cases ha
      exact ⟨_, List.mem_cons_self, rfl, rfl, rfl, rfl⟩

theorem setCall_calls_self (s : Sys) (i : Nat) (c : CompleteCall) :
    (s.setCall i c).calls i = some c := Function.update_self _ _ _

theorem setCall_calls_other {s : Sys} {i j : Nat} {c : CompleteCall} (h : j ≠ i) :
    (s.setCall i c).calls j = s.calls j := Function.update_of_ne h _ _

theorem LoginsOk.complete {s : Sys} (h : LoginsOk cfg env gen s) (state binding code : String) :
    LoginsOk cfg env gen (s.complete state binding code) := by
  have hstep := consumed_consume s (some s.nextCall) state binding
  have hmid := hstep.loginsOk h
  refine ⟨⟨hmid.history.drawn, hmid.history.past, hmid.history.distinct, hmid.history.once,
    hmid.history.matched⟩, ⟨hmid.table.entries, hmid.table.present, hmid.table.gone,
    hmid.table.bounded⟩, ?_⟩
  have hnew : (s.complete state binding code).calls s.nextCall = _ := setCall_calls_self _ _ _
  have hold : forall {i}, i ≠ s.nextCall -> (s.complete state binding code).calls i = s.calls i :=
    fun hi => setCall_calls_other hi
  constructor
  · intro i state' binding' code' r hi a ha
    by_cases hin : i = s.nextCall
    · rw [hin, hnew] at hi
      cases hi
      rw [hin]
      exact hstep.recorded a ha
    · rw [hold hin] at hi
      exact hmid.calls.own i state' binding' code' r hi a ha
  · intro i state' binding' code' r p out hi
    by_cases hin : i = s.nextCall
    · rw [hin, hnew] at hi
      cases hi
    · rw [hold hin] at hi
      exact hmid.calls.finished i state' binding' code' r p out hi

theorem LoginsOk.finish {s : Sys} (h : LoginsOk cfg env gen s) {i : Nat}
    {state binding code : String} {r : Except String LoginAttempt} (p : Provider)
    (hi : s.calls i = some ⟨state, binding, code, .consumed r⟩) :
    LoginsOk cfg env gen (s.setCall i ⟨state, binding, code,
      .finished r p (finishLogin cfg env p code r)⟩) := by
  refine ⟨⟨h.history.drawn, h.history.past, h.history.distinct, h.history.once,
    h.history.matched⟩, ⟨h.table.entries, h.table.present, h.table.gone, h.table.bounded⟩, ?_⟩
  constructor
  · intro j state' binding' code' r' hj a ha
    by_cases hji : j = i
    · rw [hji, setCall_calls_self] at hj
      cases hj
    · rw [setCall_calls_other hji] at hj
      exact h.calls.own j state' binding' code' r' hj a ha
  · intro j state' binding' code' r' p' out hj
    by_cases hji : j = i
    · rw [hji, setCall_calls_self] at hj
      cases hj
      rw [hji]
      exact ⟨rfl, h.calls.own i state binding code r hi⟩
    · rw [setCall_calls_other hji] at hj
      exact h.calls.finished j state' binding' code' r' p' out hj

theorem step_loginsOk (hgen : Function.Injective gen) {s s' : Sys} {l : Label}
    (h : LoginsOk cfg env gen s) (hstep : step cfg env gen s l = some s') :
    LoginsOk cfg env gen s' := by
  cases l with
  | tick clock =>
      simp only [step] at hstep
      split at hstep
      · rename_i hle
        cases hstep
        exact h.tick hle
      · cases hstep
  | begin =>
      cases hstep
      by_cases hfull : maxLoginAttempts <= (sweep s.clock s.attempts).entries.length
      · rw [(begin_full env gen hfull).right]
        exact h.sweepOnly
      · rw [(begin_room env gen hfull).right]
        exact h.register hgen hfull
  | consume state binding =>
      cases hstep
      exact (consumed_consume s none state binding).loginsOk h
  | complete state binding code =>
      cases hstep
      exact h.complete state binding code
  | finish i p =>
      simp only [step] at hstep
      split at hstep
      · rename_i hi
        cases hstep
        exact h.finish p hi
      · cases hstep

theorem loginsOk_run (hgen : Function.Injective gen) {clock : Int} {labels : List Label} {s : Sys}
    (hrun : runSteps (step cfg env gen) (Sys.init clock) labels = some s) :
    LoginsOk cfg env gen s :=
  run_invariant (fun _ _ _ h hstep => step_loginsOk hgen h hstep)
    (loginsOk_init cfg env gen clock) hrun

/-!
## What a login may rely on
-/

theorem pending_length {s : Sys} (h : LoginsOk cfg env gen s) :
    (pending s).length = (sweep s.clock s.attempts).entries.length := by
  have hnodup : ((pending s).map Begun.state).Nodup :=
    (List.Sublist.map Begun.state List.filter_sublist).nodup h.history.distinct
  have hkeys : forall state, state ∈ (pending s).map Begun.state <->
      exists a, (sweep s.clock s.attempts).lookup state = some a := by
    intro state
    rw [List.mem_map]
    constructor
    · rintro ⟨b, hb, hstate⟩
      rcases List.mem_filter.mp hb with ⟨hmem, hpend⟩
      rw [Bool.and_eq_true, decide_eq_true_eq, decide_eq_true_eq] at hpend
      rw [← hstate]
      exact ⟨_, lookup_sweep_present h.table hmem hpend.right hpend.left⟩
    · rintro ⟨a, ha⟩
      rcases lookup_sweep.mp ha with ⟨hlookup, hlive⟩
      rcases h.table.entries state a hlookup with ⟨b, hb, hstate, hattempt⟩
      refine ⟨b, List.mem_filter.mpr ⟨hb, ?_⟩, hstate⟩
      rw [Bool.and_eq_true, decide_eq_true_eq, decide_eq_true_eq]
      rw [hattempt] at hlive
      constructor
      · exact hlive
      · intro hmem
        rcases List.mem_map.mp hmem with ⟨c, hc, heq⟩
        have hgone := h.table.gone c hc
        rw [heq, hstate, hlookup] at hgone
        cases hgone
  rw [← length_of_keys hnodup hkeys, List.length_map]

theorem begin_fails_iff {s : Sys} (h : LoginsOk cfg env gen s) :
    (exists e, (s.beginResult env gen).2 = .error e) <-> (pending s).length = maxLoginAttempts := by
  have hle : (sweep s.clock s.attempts).entries.length <= maxLoginAttempts :=
    Nat.le_trans (deleteWhere_length_le _ _) h.table.bounded
  rw [pending_length h]
  constructor
  · rintro ⟨e, he⟩
    by_contra hne
    have hroom : ¬ maxLoginAttempts <= (sweep s.clock s.attempts).entries.length :=
      fun hfull => hne (Nat.le_antisymm hle hfull)
    rcases (begin_room env gen hroom).left with ⟨out, hout⟩
    rw [hout] at he
    cases he
  · intro heq
    exact (begin_full env gen (Nat.le_of_eq heq.symm)).left

end

/-- The login attempts of a run. -/
structure AttemptsSafe (cfg : OIDCConfig) (env : OIDCEnv) (gen : Nat -> String) (s : Sys) :
    Prop where
  /-- The states of the attempts tell them apart. -/
  begunOnce : (s.begun.map Begun.state).Nodup
  /-- An attempt is consumed at most once. -/
  consumedOnce : (s.consumed.map Consumption.state).Nodup
  /-- It is consumed with its own state and binding, in time, and yields its own secrets. -/
  matched : forall c, c ∈ s.consumed -> exists b, b ∈ s.begun ∧ c.state = b.state ∧
    c.binding = b.binding ∧ c.attempt.nonce = b.nonce ∧ c.attempt.verifier = b.verifier ∧
    b.time <= c.time ∧ c.time < b.time + loginAttemptTTL
  /-- A state that is unknown, or a binding that is wrong or empty, changes nothing. -/
  refused : forall state binding, Mismatched s.attempts state binding ->
    (s.consumeResult state binding).2 = .error errOIDCLogin ∧
      forall call, s.consume call state binding = s
  bounded : s.attempts.entries.length <= maxLoginAttempts
  /-- {lit}`Begin` fails exactly when so many attempts are pending. -/
  full : (exists e, (s.beginResult env gen).2 = .error e) <->
    (pending s).length = maxLoginAttempts
  /-- A {lit}`Complete` that yields a session has consumed an attempt, and the provider has
  vouched for its nonce and an admitted subject. -/
  completed : forall i state binding code r p out,
    s.calls i = some ⟨state, binding, code, .finished r p (.ok out)⟩ ->
    exists c token raw id, c ∈ s.consumed ∧ c.call = some i ∧ c.state = state ∧
      c.binding = binding ∧ p.exchange code c.attempt.verifier = some token ∧
      token.idToken = some raw ∧ p.verify raw = some id ∧ id.nonce = c.attempt.nonce ∧
      id.subject ∈ cfg.allowedSubjects

/-- Concurrent logins keep their attempts apart, single-use and bounded. -/
theorem attempts_safe {cfg : OIDCConfig} {env : OIDCEnv} {gen : Nat -> String}
    (hgen : Function.Injective gen) {clock : Int} {labels : List Label} {s : Sys}
    (hrun : runSteps (step cfg env gen) (Sys.init clock) labels = some s) :
    AttemptsSafe cfg env gen s := by
  have h := loginsOk_run hgen hrun
  refine ⟨h.history.distinct, h.history.once, ?_, ?_, h.table.bounded, begin_fails_iff h, ?_⟩
  · intro c hc
    rcases h.history.matched c hc with ⟨b, hb, hstate, hbinding, hattempt, hfrom, huntil⟩
    rw [hattempt]
    exact ⟨b, hb, hstate, hbinding, rfl, rfl, hfrom, huntil⟩
  · intro state binding hmis
    rw [consumeResult_refused hmis]
    exact ⟨rfl, consume_refused hmis⟩
  · intro i state binding code r p out hi
    rcases h.calls.finished i state binding code r p (.ok out) hi with ⟨hout, hown⟩
    rcases finishLogin_ok hout.symm with ⟨a, token, raw, id, hr, hexchange, hraw, hverify, hnonce,
      _, hsubject, _⟩
    rcases hown a hr with ⟨c, hc, hcall, hstate, hbinding, hattempt⟩
    rw [← hattempt] at hexchange hnonce
    exact ⟨c, token, raw, id, hc, hcall, hstate, hbinding, hexchange, hraw, hverify, hnonce,
      hsubject⟩

def sampleGen (n : Nat) : String := String.ofList (List.replicate (n + 1) 'v')

theorem sampleGen_injective : Function.Injective sampleGen := by
  intro m n h
  have hlists := congrArg (fun t => t.toList.length) h
  simp only [sampleGen, String.toList_ofList, List.length_replicate] at hlists
  omega

def sampleConfig : OIDCConfig :=
  { clientID := "console", allowedSubjects := ["employee-1"] }

def sampleEnv : OIDCEnv :=
  { authCodeURL := fun state _ _ => "https://id.example/auth?state=" ++ state
    identityDigest := fun issuer subject => issuer ++ subject }

def sampleProvider : Provider :=
  { exchange := fun _ _ => some { accessToken := "at", idToken := some "id" }
    verify := fun _ => some
      { issuer := "https://id.example", subject := "employee-1", audience := ["console"]
        expiry := 3600 * second, nonce := sampleGen 2, accessTokenHash := "" }
    authorizedParty := fun _ => some ""
    verifyAccessToken := fun _ _ => true }

/-- A login that completes has consumed its own attempt. -/
theorem attempts_safe_oneLogin :
    exists s c, runSteps (step sampleConfig sampleEnv sampleGen) (Sys.init 0)
        [.begin, .tick minute, .complete (sampleGen 0) (sampleGen 1) "code",
          .finish 0 sampleProvider] = some s ∧
      c ∈ s.consumed ∧ c.call = some 0 ∧ c.state = sampleGen 0 ∧ c.binding = sampleGen 1 ∧
      s.attempts.entries.length <= maxLoginAttempts := by
  have hrun : exists s, runSteps (step sampleConfig sampleEnv sampleGen) (Sys.init 0)
        [.begin, .tick minute, .complete (sampleGen 0) (sampleGen 1) "code",
          .finish 0 sampleProvider] = some s ∧
      s.calls 0 = some ⟨sampleGen 0, sampleGen 1, "code",
        .finished (.ok ⟨sampleGen 1, sampleGen 2, sampleGen 3, 5 * minute⟩) sampleProvider
          (.ok ("oidc:" ++ sampleEnv.identityDigest "https://id.example" "employee-1",
            3600 * second))⟩ := ⟨_, rfl, rfl⟩
  rcases hrun with ⟨s, hrun, hcall⟩
  have hsafe := attempts_safe sampleGen_injective hrun
  rcases hsafe.completed 0 _ _ _ _ _ _ hcall with ⟨c, _, _, _, hc, hown, hstate, hbinding, _⟩
  exact ⟨s, c, hrun, hc, hown, hstate, hbinding, hsafe.bounded⟩

end Auth
end LodelineManager
