import LodelineManager.Api.Console
import LodelineManager.Api.LimiterRuns
import LodelineManager.Api.LoginLimit
import Mathlib.Algebra.BigOperators.Group.List.Lemmas
import Mathlib.Algebra.Order.BigOperators.Group.List
import Mathlib.Data.List.Perm.Subperm

/-!
# Starting OIDC logins through the limiter

The three public routes of a login share one limiter, and only a start that it lets through
comes to {lit}`Begin`, some time after.  The map of the pending attempts is bounded for all
clients together; the limiter keeps any one address from filling it.
-/

namespace LodelineManager
namespace Api

open Foundation FixedWindow Go Auth

/-- The answer of a callback, or an error of the API. -/
structure StartResponse extends CallbackResponse where
  error : Option ErrorResponse

def loginUnavailable : ErrorResponse :=
  { status := 503, code := "login_unavailable", message := "Sign-in is busy. Try again shortly." }

/-- {lit}`handleOIDCStart` with the values that {lit}`Begin` draws. -/
def handleOIDCStart (srv : CallbackServer) (attempts : Attempts) (now : Int)
    (state binding nonce verifier : String) : Attempts × StartResponse :=
  match srv.oidc with
  | none =>
      (attempts, { cacheControl := "no-store", referrerPolicy := "no-referrer", cookies := []
                   status := 404, location := none, error := none })
  | some (_, env) =>
      let begun := beginLogin env attempts now state binding nonce verifier
      match begun.2 with
      | .error _ =>
          (begun.1, { cacheControl := "no-store", referrerPolicy := "no-referrer", cookies := []
                      status := loginUnavailable.status, location := none
                      error := some loginUnavailable })
      | .ok (location, binding) =>
          (begun.1, { cacheControl := "no-store", referrerPolicy := "no-referrer"
                      cookies := [srv.bindingCookie binding (srv.seconds loginAttemptTTL)]
                      status := 302, location := some location, error := none })

/-!
## The routes behind the limiter
-/

/-- The routes that share the limiter of {lit}`Routes`. -/
inductive LimitedRoute where
  | login
  | oidcStart
  | oidcCallback
  deriving DecidableEq

/-- A start that the limiter has let through: the address it counts by, and when. -/
structure Entry where
  ip : String
  time : Int

/-- {lit}`waiting` are the starts on their way to {lit}`Begin`; {lit}`starts` are those that
have begun an attempt, and {lit}`calls` what the limiter has counted. -/
structure Door where
  limiter : RateLimiter
  logins : Auth.Sys
  waiting : List Entry
  starts : List (Entry × Begun)
  calls : List AllowCall

def Door.init (clock : Int) : Door :=
  { limiter := loginLimiter, logins := Auth.Sys.init clock, waiting := [], starts := []
    calls := [] }

def Door.clock (s : Door) : Int := s.logins.clock

inductive DoorLabel where
  /-- Time passes, or a callback takes one of its steps. -/
  | oidc (l : Auth.Label)
  /-- A request comes to the limiter, from the address that {lit}`RealIP` leaves. -/
  | arrive (route : LimitedRoute) (remoteAddr : String)
  /-- A start that waits is handled. -/
  | start (i : Nat)

instance (ip : String) : Decidable (Limitable ip) := inferInstanceAs (Decidable (_ ∧ _))

section

variable (cfg : OIDCConfig) (env : OIDCEnv) (gen : Nat -> String)

def Door.arrive (s : Door) (route : LimitedRoute) (remoteAddr : String) : Door :=
  let out := s.limiter.middleware s.clock remoteAddr
  { s with
    limiter := out.1
    waiting :=
      if route = .oidcStart ∧ out.2.isNone = true then
        s.waiting ++ [{ ip := clientIP remoteAddr, time := s.clock }]
      else s.waiting
    calls :=
      if Limitable (clientIP remoteAddr) then
        s.calls ++ [{ now := s.clock, key := clientIP remoteAddr }]
      else s.calls }

def Door.start (s : Door) (i : Nat) (e : Entry) : Door :=
  { s with
    logins := s.logins.begin env gen
    waiting := s.waiting.eraseIdx i
    starts :=
      if (s.logins.beginResult env gen).2.isOk then (e, s.logins.drawn gen) :: s.starts
      else s.starts }

def Door.step (s : Door) : DoorLabel -> Option Door
  | .oidc .begin => none
  | .oidc l => (Auth.step cfg env gen s.logins l).map (fun logins => { s with logins := logins })
  | .arrive route remoteAddr => some (s.arrive route remoteAddr)
  | .start i =>
      match s.waiting[i]? with
      | none => none
      | some e => some (s.start env gen i e)

def Door.answer (srv : CallbackServer) (s : Door) : Attempts × StartResponse :=
  handleOIDCStart srv s.logins.attempts s.clock (s.logins.drawn gen).state
    (s.logins.drawn gen).binding (s.logins.drawn gen).nonce (s.logins.drawn gen).verifier

end

/-!
## What the starts hold
-/

def isPending (s : Auth.Sys) (b : Begun) : Bool :=
  decide (s.clock < b.time + loginAttemptTTL) &&
    decide (b.state ∉ s.consumed.map Consumption.state)

def Door.pendingStarts (s : Door) : List (Entry × Begun) :=
  s.starts.filter (fun o => isPending s.logins o.2)

def Door.held (s : Door) (ip : String) : List (Entry × Begun) :=
  s.pendingStarts.filter (fun o => decide (o.1.ip = ip))

/-- No start took longer than {lit}`delay` from the limiter to {lit}`Begin`. -/
def Door.Prompt (s : Door) (delay : Int) : Prop :=
  forall o, o ∈ s.starts -> o.2.time <= o.1.time + delay

def entryTimes (ip : String) (entries : List Entry) : List Int :=
  (entries.filter (fun e => decide (e.ip = ip))).map Entry.time

def admittedTimes (trace : Trace) : List Int := (trace.filter (fun b => b.2)).map Prod.fst

theorem entryTimes_append (ip : String) (front back : List Entry) :
    entryTimes ip (front ++ back) = entryTimes ip front ++ entryTimes ip back := by
  unfold entryTimes
  rw [List.filter_append, List.map_append]

theorem admittedTimes_append (front back : Trace) :
    admittedTimes (front ++ back) = admittedTimes front ++ admittedTimes back := by
  unfold admittedTimes
  rw [List.filter_append, List.map_append]

theorem countP_admittedTimes (first last : Int) (trace : Trace) :
    (admittedTimes trace).countP (fun t => decide (first <= t ∧ t <= last)) =
      FixedWindow.admitted (between first last trace) := by
  unfold admittedTimes FixedWindow.admitted between
  rw [List.countP_map, List.countP_filter, List.countP_filter]
  apply List.countP_congr
  intro b _
  simp only [Function.comp_apply, Bool.and_comm]

/-!
## The invariant
-/

section

variable {cfg : OIDCConfig} {env : OIDCEnv} {gen : Nat -> String}

/-- What has come in through the limiter was admitted by it. -/
structure DoorOk (cfg : OIDCConfig) (env : OIDCEnv) (gen : Nat -> String) (s : Door) : Prop where
  logins : LoginsOk cfg env gen s.logins
  limiter : s.limiter = loginLimiter.after s.calls
  clocked : Clocked s.calls
  past : forall c, c ∈ s.calls -> c.now <= s.clock
  begun : s.starts.map Prod.snd = s.logins.begun
  waited : forall e, e ∈ s.waiting -> e.time <= s.clock
  later : forall o, o ∈ s.starts -> o.1.time <= o.2.time
  admitted : forall ip, Limitable ip ->
    (entryTimes ip (s.starts.map Prod.fst ++ s.waiting)).Subperm
      (admittedTimes (loginLimiter.attempts ip s.calls))

theorem doorOk_init (clock : Int) : DoorOk cfg env gen (Door.init clock) where
  logins := loginsOk_init cfg env gen clock
  limiter := rfl
  clocked := List.Pairwise.nil
  past := fun _ hc => by cases hc
  begun := rfl
  waited := fun _ he => by cases he
  later := fun _ ho => by cases ho
  admitted := fun _ _ => List.Subperm.refl []

theorem begun_of_step {s s' : Auth.Sys} {l : Auth.Label} (hl : l ≠ .begin)
    (h : Auth.step cfg env gen s l = some s') : s'.begun = s.begun := by
  cases l with
  | tick clock =>
      simp only [Auth.step] at h
      split at h
      · cases h
        rfl
      · cases h
  | begin => exact absurd rfl hl
  | consume state binding =>
      cases h
      rfl
  | complete state binding code =>
      cases h
      rfl
  | finish i p =>
      simp only [Auth.step] at h
      split at h
      · cases h
        rfl
      · cases h

theorem DoorOk.oidc (hgen : Function.Injective gen) {s : Door} (h : DoorOk cfg env gen s)
    {l : Auth.Label} (hl : l ≠ .begin) {logins : Auth.Sys}
    (hstep : Auth.step cfg env gen s.logins l = some logins) :
    DoorOk cfg env gen { s with logins := logins } := by
  have hclock : s.clock <= logins.clock := (loginsGrow_step hstep).clock
  exact
    { logins := step_loginsOk hgen h.logins hstep
      limiter := h.limiter
      clocked := h.clocked
      past := fun c hc => Int.le_trans (h.past c hc) hclock
      begun := h.begun.trans (begun_of_step hl hstep).symm
      waited := fun e he => Int.le_trans (h.waited e he) hclock
      later := h.later
      admitted := h.admitted }

theorem admittedTimes_snoc (ip : String) (calls : List AllowCall) (c : AllowCall) :
    admittedTimes (loginLimiter.attempts ip (calls ++ [c])) =
      admittedTimes (loginLimiter.attempts ip calls) ++
        if c.key = ip ∧ ((loginLimiter.after calls).allow c.now c.key).2.1 = true then [c.now]
        else [] := by
  rw [attempts_append, admittedTimes_append]
  refine congrArg _ ?_
  by_cases hkey : c.key = ip
  · subst hkey
    rw [attempts_single]
    cases hok : ((loginLimiter.after calls).allow c.now c.key).2.1 with
    | true => rw [if_pos ⟨rfl, rfl⟩]; rfl
    | false => rw [if_neg (fun h => Bool.false_ne_true h.right)]; rfl
  · rw [attempts_other _ hkey, if_neg (fun h => hkey h.left)]
    rfl

theorem entryTimes_single (ip : String) (e : Entry) :
    entryTimes ip [e] = if e.ip = ip then [e.time] else [] := by
  by_cases hip : e.ip = ip
  · simp [entryTimes, hip]
  · simp [entryTimes, hip]

theorem DoorOk.arrive {s : Door} (h : DoorOk cfg env gen s) (route : LimitedRoute)
    (remoteAddr : String) : DoorOk cfg env gen (s.arrive route remoteAddr) := by
  have hwaiting : forall e, e ∈ (s.arrive route remoteAddr).waiting ->
      e ∈ s.waiting ∨ e = { ip := clientIP remoteAddr, time := s.clock } := by
    intro e he
    unfold Door.arrive at he
    dsimp only at he
    split at he
    · rcases List.mem_append.mp he with he | he
      · exact Or.inl he
      · exact Or.inr (List.mem_singleton.mp he)
    · exact Or.inl he
  have hwaited : forall e, e ∈ (s.arrive route remoteAddr).waiting -> e.time <= s.clock := by
    intro e he
    rcases hwaiting e he with he | he
    · exact h.waited e he
    · rw [he]
  by_cases hlimit : Limitable (clientIP remoteAddr)
  · -- the limiter counts the request
    rcases middleware_allow s.limiter s.clock hlimit with ⟨hnext, hpassed⟩
    have hcalls : (s.arrive route remoteAddr).calls =
        s.calls ++ [{ now := s.clock, key := clientIP remoteAddr }] := if_pos hlimit
    refine ⟨h.logins, ?_, ?_, ?_, h.begun, hwaited, h.later, ?_⟩
    · rw [hcalls, after_append, ← h.limiter]
      exact hnext
    · rw [hcalls]
      refine List.pairwise_append.mpr ⟨h.clocked, List.pairwise_singleton _ _, ?_⟩
      intro c hc d hd
      rw [List.mem_singleton.mp hd]
      exact h.past c hc
    · rw [hcalls]
      intro c hc
      rcases List.mem_append.mp hc with hc | hc
      · exact h.past c hc
      · rw [List.mem_singleton.mp hc]
        exact Int.le_refl _
    · intro ip hip
      rw [hcalls, admittedTimes_snoc, ← h.limiter, ← hpassed]
      unfold Door.arrive
      dsimp only
      by_cases hstart : route = .oidcStart ∧
          (s.limiter.middleware s.clock remoteAddr).2.isNone = true
      · rw [if_pos hstart, ← List.append_assoc, entryTimes_append, entryTimes_single]
        refine (h.admitted ip hip).append ?_
        by_cases hown : clientIP remoteAddr = ip
        · rw [if_pos hown, if_pos ⟨hown, hstart.right⟩]
        · rw [if_neg hown]
          exact List.nil_subperm
      · rw [if_neg hstart]
        exact (h.admitted ip hip).trans (List.sublist_append_left _ _).subperm
  · -- an exempt address leaves the limiter as it is
    have hexempt := middleware_exempt s.limiter s.clock hlimit
    have hcalls : (s.arrive route remoteAddr).calls = s.calls := if_neg hlimit
    refine ⟨h.logins, ?_, ?_, ?_, h.begun, hwaited, h.later, ?_⟩
    · rw [hcalls, ← h.limiter]
      exact congrArg Prod.fst hexempt
    · rw [hcalls]
      exact h.clocked
    · rw [hcalls]
      exact h.past
    · intro ip hip
      rw [hcalls]
      have hother : clientIP remoteAddr ≠ ip := fun heq => hlimit (heq ▸ hip)
      have hsame : entryTimes ip ((s.arrive route remoteAddr).starts.map Prod.fst ++
          (s.arrive route remoteAddr).waiting) =
            entryTimes ip (s.starts.map Prod.fst ++ s.waiting) := by
        unfold Door.arrive
        dsimp only
        split
        · rw [← List.append_assoc, entryTimes_append, entryTimes_single, if_neg hother,
            List.append_nil]
        · rfl
      rw [hsame]
      exact h.admitted ip hip

theorem DoorOk.start (hgen : Function.Injective gen) {s : Door} (h : DoorOk cfg env gen s)
    {i : Nat} {e : Entry} (he : s.waiting[i]? = some e) :
    DoorOk cfg env gen (s.start env gen i e) := by
  have hmem : e ∈ s.waiting := List.mem_of_getElem? he
  have hclock : (s.start env gen i e).clock = s.clock := rfl
  have hperm : (e :: s.waiting.eraseIdx i).Perm s.waiting := by
    rcases List.getElem?_eq_some_iff.mp he with ⟨hi, hget⟩
    rw [← hget]
    exact List.getElem_cons_eraseIdx_perm hi
  have hrest : forall e', e' ∈ s.waiting.eraseIdx i -> e' ∈ s.waiting :=
    fun e' he' => List.mem_of_mem_eraseIdx he'
  have hlogins : LoginsOk cfg env gen (s.logins.begin env gen) :=
    @step_loginsOk cfg env gen hgen s.logins _ .begin h.logins rfl
  refine ⟨hlogins, h.limiter, h.clocked, h.past, ?_, fun e' he' => h.waited e' (hrest e' he'), ?_, ?_⟩
  · show (if _ then _ else _ : List (Entry × Begun)).map Prod.snd = (if _ then _ else _)
    split
    · rw [List.map_cons, h.begun]
    · exact h.begun
  · intro o ho
    change o ∈ (if _ then _ else _ : List (Entry × Begun)) at ho
    split at ho
    · rcases List.mem_cons.mp ho with ho | ho
      · rw [ho]
        exact h.waited e hmem
      · exact h.later o ho
    · exact h.later o ho
  · intro ip hip
    refine List.Subperm.trans ?_ (h.admitted ip hip)
    change (entryTimes ip ((if _ then _ else _ : List (Entry × Begun)).map Prod.fst ++
      s.waiting.eraseIdx i)).Subperm _
    split
    · -- the entry moves from those that wait to those that have begun
      have hmoved : (((e, s.logins.drawn gen) :: s.starts).map Prod.fst ++
          s.waiting.eraseIdx i).Perm (s.starts.map Prod.fst ++ s.waiting) := by
        rw [List.map_cons]
        exact List.perm_middle.symm.trans (hperm.append_left _)
      exact ((hmoved.filter _).map _).subperm
    · have hsub : (s.starts.map Prod.fst ++ s.waiting.eraseIdx i).Sublist
          (s.starts.map Prod.fst ++ s.waiting) :=
        (List.eraseIdx_sublist _ _).append_left _
      exact ((hsub.filter _).map _).subperm

theorem step_doorOk (hgen : Function.Injective gen) {s s' : Door} {l : DoorLabel}
    (h : DoorOk cfg env gen s) (hstep : s.step cfg env gen l = some s') :
    DoorOk cfg env gen s' := by
  cases l with
  | oidc l =>
      by_cases hl : l = .begin
      · rw [hl] at hstep
        cases hstep
      · have hmap : (Auth.step cfg env gen s.logins l).map
            (fun logins => { s with logins := logins }) = some s' := by
          cases l with
          | begin => exact absurd rfl hl
          | _ => exact hstep
        rcases Option.map_eq_some_iff.mp hmap with ⟨logins, hlogins, rfl⟩
        exact h.oidc hgen hl hlogins
  | arrive route remoteAddr =>
      cases hstep
      exact h.arrive route remoteAddr
  | start i =>
      simp only [Door.step] at hstep
      split at hstep
      · cases hstep
      · rename_i e he
        cases hstep
        exact h.start hgen he

theorem doorOk_run (hgen : Function.Injective gen) {clock : Int} {labels : List DoorLabel}
    {s : Door} (hrun : runSteps (Door.step cfg env gen) (Door.init clock) labels = some s) :
    DoorOk cfg env gen s :=
  run_invariant (fun _ _ _ h hstep => step_doorOk hgen h hstep) (doorOk_init clock) hrun

/-!
## How many attempts an address holds
-/

theorem length_pendingStarts {s : Door} (h : DoorOk cfg env gen s) :
    s.pendingStarts.length = (pending s.logins).length := by
  have hmap : s.pendingStarts.map Prod.snd = pending s.logins := by
    unfold pending
    rw [← h.begun, List.filter_map]
    rfl
  rw [← hmap, List.length_map]

theorem length_held_le {s : Door} (h : DoorOk cfg env gen s) {delay : Int}
    (hprompt : s.Prompt delay) {ip : String} (hip : Limitable ip) :
    (s.held ip).length <=
      FixedWindow.admitted (between (s.clock - loginAttemptTTL - delay + 1) s.clock
        (loginLimiter.attempts ip s.calls)) := by
  have hown : (s.held ip).length <= (entryTimes ip (s.starts.map Prod.fst)).countP
      (fun t => decide (s.clock - loginAttemptTTL - delay + 1 <= t ∧ t <= s.clock)) := by
    unfold Door.held Door.pendingStarts entryTimes
    rw [List.filter_filter, ← List.countP_eq_length_filter, List.countP_map, List.countP_filter,
      List.countP_map]
    apply List.countP_mono_left
    intro o ho hheld
    rcases (Bool.and_eq_true _ _).mp hheld with ⟨hown, hpending⟩
    rcases (Bool.and_eq_true _ _).mp hpending with ⟨hlive, _⟩
    have hfresh : s.clock < o.2.time + loginAttemptTTL := of_decide_eq_true hlive
    have hsoon := hprompt o ho
    have hafter := h.later o ho
    have hbegun : o.2 ∈ s.logins.begun := by
      rw [← h.begun]
      exact List.mem_map_of_mem ho
    have hpast : o.2.time <= s.clock := h.logins.history.past o.2 hbegun
    have hinside : s.clock - loginAttemptTTL - delay + 1 <= o.1.time ∧ o.1.time <= s.clock := by
      omega
    exact (Bool.and_eq_true _ _).mpr ⟨decide_eq_true hinside, hown⟩
  have hall : (entryTimes ip (s.starts.map Prod.fst)).Sublist
      (entryTimes ip (s.starts.map Prod.fst ++ s.waiting)) := by
    rw [entryTimes_append]
    exact List.sublist_append_left _ _
  calc (s.held ip).length
      <= (entryTimes ip (s.starts.map Prod.fst)).countP _ := hown
    _ <= (entryTimes ip (s.starts.map Prod.fst ++ s.waiting)).countP _ := hall.countP_le
    _ <= (admittedTimes (loginLimiter.attempts ip s.calls)).countP _ :=
        (h.admitted ip hip).countP_le _
    _ = _ := countP_admittedTimes _ _ _

theorem held_bounded {s : Door} (h : DoorOk cfg env gen s) {delay : Int}
    (hprompt : s.Prompt delay) {n : Nat} (hn : loginAttemptTTL + delay <= n * (minute + 1))
    {ip : String} (hip : Limitable ip) : (s.held ip).length <= 10 * n + 10 := by
  have hcounted := counted_attempts h.clocked (Or.inl (Eq.refl (loginLimiter.hits.lookup ip)))
  have hwithin : FixedWindow.Within loginLimiter.max (loginLimiter.hits.lookup ip) := by
    intro o ho
    cases ho
  have hlen : s.clock < s.clock - loginAttemptTTL - delay + 1 + n * (loginLimiter.window + 1) := by
    change s.clock < s.clock - loginAttemptTTL - delay + 1 + n * (minute + 1)
    omega
  have hmax := admitted_between_windows (by decide) n hwithin
    (ordered_attempts ip loginLimiter h.clocked) hcounted hlen
  change _ <= (n : Int) * 10 + 10 at hmax
  have hheld := length_held_le h hprompt hip
  omega

theorem length_le_of_count_le {values : List String} {k : Nat}
    (h : forall x, x ∈ values -> values.count x <= k) :
    values.length <= k * values.dedup.length := by
  have hsum : ((values.dedup.map (fun x => values.count x)).sum) <=
      (values.dedup.map (fun x => values.count x)).length • k := by
    apply List.sum_le_card_nsmul
    intro m hm
    rcases List.mem_map.mp hm with ⟨x, hx, rfl⟩
    exact h x (List.mem_dedup.mp hx)
  rw [List.sum_map_count_dedup_eq_length, List.length_map, nsmul_eq_mul, Nat.mul_comm] at hsum
  exact hsum

def Door.holders (s : Door) : List String := s.pendingStarts.map (fun o => o.1.ip)

theorem count_holders (s : Door) (ip : String) : s.holders.count ip = (s.held ip).length := by
  unfold Door.holders Door.held
  rw [List.count_eq_countP, List.countP_map, ← List.countP_eq_length_filter]
  apply List.countP_congr
  intro o _
  simp

theorem answer_busy {s : Door} (h : DoorOk cfg env gen s) {srv : CallbackServer}
    (hsrv : srv.oidc = some (cfg, env)) (hbusy : (s.answer gen srv).2.status = 503) :
    s.pendingStarts.length = maxLoginAttempts := by
  rw [length_pendingStarts h]
  apply (begin_fails_iff h.logins).mp
  unfold Door.answer handleOIDCStart at hbusy
  rw [hsrv] at hbusy
  dsimp only at hbusy
  split at hbusy
  · rename_i e he
    exact ⟨e, he⟩
  · cases hbusy

/-- However the starts, callbacks and logins of any clients come, an address that the limiter
counts holds at most ten pending attempts for each window of the time to live and the
delay, and ten more.  So a start is turned away as busy only when an exempt address holds
attempts, or as many addresses as it takes. -/
theorem attempts_shared (hgen : Function.Injective gen) {clock : Int} {labels : List DoorLabel}
    {s : Door} (hrun : runSteps (Door.step cfg env gen) (Door.init clock) labels = some s)
    {delay : Int} (hprompt : s.Prompt delay) {n : Nat}
    (hn : loginAttemptTTL + delay <= n * (minute + 1)) :
    (forall ip, Limitable ip -> (s.held ip).length <= 10 * n + 10) ∧
    (forall srv : CallbackServer, srv.oidc = some (cfg, env) ->
      (s.answer gen srv).2.status = 503 ->
      (exists ip, ip ∈ s.holders ∧ ¬ Limitable ip) ∨
        maxLoginAttempts <= (10 * n + 10) * s.holders.dedup.length) := by
  have h := doorOk_run hgen hrun
  refine ⟨fun ip hip => held_bounded h hprompt hn hip, ?_⟩
  intro srv hsrv hbusy
  by_cases hexempt : exists ip, ip ∈ s.holders ∧ ¬ Limitable ip
  · exact Or.inl hexempt
  · refine Or.inr ?_
    have hfull : s.holders.length = maxLoginAttempts := by
      unfold Door.holders
      rw [List.length_map]
      exact answer_busy h hsrv hbusy
    rw [← hfull]
    apply length_le_of_count_le
    intro ip hip
    have hlimit : Limitable ip := by
      by_contra hnot
      exact hexempt ⟨ip, hip, hnot⟩
    rw [count_holders]
    exact held_bounded h hprompt hn hlimit

end

/-- Two starts of one address, of which the second comes to {lit}`Begin` last, with a login of
another between them. -/
def twoStarts : List DoorLabel :=
  [.arrive .oidcStart "203.0.113.9:4711", .arrive .oidcStart "203.0.113.9:4712",
    .arrive .login "198.51.100.7:80", .start 0, .oidc (.tick second), .start 0]

theorem attempts_shared_twoStarts :
    exists s, runSteps (Door.step sampleConfig sampleEnv sampleGen) (Door.init 0) twoStarts =
        some s ∧
      s.starts.map (fun o => (o.1.ip, o.1.time, o.2.time)) =
        [("203.0.113.9", 0, second), ("203.0.113.9", 0, 0)] ∧
      forall ip, Limitable ip -> (s.held ip).length <= 70 := by
  have hstarts : (runSteps (Door.step sampleConfig sampleEnv sampleGen) (Door.init 0)
      twoStarts).map (fun s => s.starts.map (fun o => (o.1.ip, o.1.time, o.2.time))) =
        some [("203.0.113.9", 0, second), ("203.0.113.9", 0, 0)] := by
    decide +kernel
  rcases Option.map_eq_some_iff.mp hstarts with ⟨s, hrun, htimes⟩
  have hprompt : s.Prompt second := by
    intro o ho
    have hmem : (o.1.ip, o.1.time, o.2.time) ∈
        s.starts.map (fun o => (o.1.ip, o.1.time, o.2.time)) := List.mem_map_of_mem ho
    rw [htimes] at hmem
    rcases List.mem_cons.mp hmem with hlast | hfirst
    · simp only [Prod.mk.injEq] at hlast
      rw [hlast.right.left, hlast.right.right]
      decide
    · simp only [List.mem_singleton, Prod.mk.injEq] at hfirst
      rw [hfirst.right.left, hfirst.right.right]
      decide
  refine ⟨s, hrun, htimes, ?_⟩
  exact (attempts_shared sampleGen_injective hrun hprompt (show _ <= ((6 : Nat) : Int) * _ by
    decide)).left

end Api
end LodelineManager
