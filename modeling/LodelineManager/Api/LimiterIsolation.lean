import LodelineManager.Api.LimiterRuns

/-!
# What one client of the limiter sees of the others

A call for one key may sweep the windows of others out of the map.  The module compares
a run with the run of one key's calls alone, bounds the map after a sweep, and shows that
a client who waits as long as {lit}`Retry-After` says is admitted.
-/

namespace LodelineManager
namespace Api

open Foundation FixedWindow Go

/-!
## One key alone
-/

def RateLimiter.results (key : String) : RateLimiter -> List AllowCall -> List (Bool × Int)
  | _, [] => []
  | rl, c :: rest =>
      if c.key = key then
        (rl.allow c.now c.key).2 :: (rl.allow c.now c.key).1.results key rest
      else (rl.allow c.now c.key).1.results key rest

def callsFor (key : String) (calls : List AllowCall) : List AllowCall :=
  calls.filter (fun c => decide (c.key = key))

def remaining (max now : Int) : Option HitWindow -> Int
  | none => 0
  | some w => if w.reset < now then 0 else if max <= w.count then w.reset - now else 0

theorem allow_result (rl : RateLimiter) (now : Int) (key : String) :
    (rl.allow now key).2 =
      ((hit rl.max rl.window now (rl.hits.lookup key)).2,
        remaining rl.max now (rl.hits.lookup key)) := by
  unfold RateLimiter.allow
  cases rl.hits.lookup key with
  | none => rfl
  | some w =>
      by_cases hover : w.reset < now
      · simp only [hit, remaining, if_pos hover]
      · by_cases hfull : rl.max <= w.count
        · simp only [hit, remaining, if_neg hover, if_pos hfull]
        · simp only [hit, remaining, if_neg hover, if_neg hfull]

theorem results_own (rl : RateLimiter) {key : String} {c : AllowCall} (h : c.key = key)
    (rest : List AllowCall) :
    rl.results key (c :: rest) =
      (rl.allow c.now c.key).2 :: (rl.allow c.now c.key).1.results key rest :=
  if_pos h

theorem results_other (rl : RateLimiter) {key : String} {c : AllowCall} (h : c.key ≠ key)
    (rest : List AllowCall) :
    rl.results key (c :: rest) = (rl.allow c.now c.key).1.results key rest :=
  if_neg h

theorem Holds.remaining_eq {rl : RateLimiter} {call : AllowCall} {rest : List AllowCall}
    {c : Option Counter} (h : Holds rl call.key (call :: rest) c) (max : Int) :
    remaining max call.now (rl.hits.lookup call.key) = remaining max call.now c := by
  rcases h with hlookup | ⟨hlookup, o, ho, hover⟩
  · rw [hlookup]
  · have hnow := hover call List.mem_cons_self
    rw [hlookup, ho, remaining, remaining, if_pos hnow]

theorem results_alone {key : String} {rl solo : RateLimiter} {calls : List AllowCall}
    (hclock : Clocked calls) (hmax : rl.max = solo.max) (hwindow : rl.window = solo.window)
    (hholds : Holds rl key calls (solo.hits.lookup key)) :
    rl.results key calls = solo.results key (callsFor key calls) := by
  induction calls generalizing rl solo with
  | nil => rfl
  | cons c rest ih =>
      rcases List.pairwise_cons.mp hclock with ⟨hfirst, hrest⟩
      rcases allow_config rl c.now c.key with ⟨hmax', hwindow'⟩
      unfold callsFor
      by_cases hkey : c.key = key
      · subst hkey
        rw [List.filter_cons_of_pos (by simp), results_own rl rfl, results_own solo rfl]
        rcases allow_config solo c.now c.key with ⟨hmaxS, hwindowS⟩
        have hhit := hholds.hit_eq
        have hwait := hholds.remaining_eq rl.max
        rw [hmax, hwindow] at hhit
        rw [hmax] at hwait
        have hresult : (rl.allow c.now c.key).2 = (solo.allow c.now c.key).2 := by
          rw [allow_result, allow_result, hmax, hwindow, hhit, hwait]
        have hlookup : (rl.allow c.now c.key).1.hits.lookup c.key =
            (solo.allow c.now c.key).1.hits.lookup c.key := by
          rw [(allow_hit rl c.now c.key).right, (allow_hit solo c.now c.key).right, hmax, hwindow,
            hhit]
        have htail := ih hrest (hmax'.trans (hmax.trans hmaxS.symm))
          (hwindow'.trans (hwindow.trans hwindowS.symm)) (Or.inl hlookup)
        rw [hresult, htail, callsFor]
      · rw [List.filter_cons_of_neg (by simpa using hkey), results_other rl hkey]
        exact ih hrest (hmax'.trans hmax) (hwindow'.trans hwindow) (hholds.other hkey hfirst)

/-!
## The size of the map
-/

/-- Every window was set by a call before. -/
def SetBefore (rl : RateLimiter) (now : Int) : Prop :=
  forall key w, rl.hits.lookup key = some w -> exists t, t <= now ∧ w.reset = t + rl.window

theorem setBefore_after {start : RateLimiter} (hempty : start.hits = ∅) {front : List AllowCall}
    {now : Int} (h : forall o, o ∈ front -> o.now <= now) : SetBefore (start.after front) now := by
  intro key w hlookup
  rcases (openedBy_after hempty front hlookup).left with
    ⟨earlier, o, since, hfront, _, _, hreset, _⟩
  refine ⟨o.now, h o ?_, ?_⟩
  · rw [hfront]
    exact List.mem_append_right earlier List.mem_cons_self
  · rw [(after_config start front).right]
    exact hreset

theorem dropExpired_eq_nil {rl : RateLimiter} {now : Int} (hset : SetBefore rl now)
    (hneg : rl.window < 0) : (dropExpired now rl.hits).entries = [] := by
  refine List.filter_eq_nil_iff.mpr ?_
  intro e he
  have hlookup : rl.hits.lookup e.1 = some e.2 := AList.mem_lookup_iff.mpr he
  rcases hset e.1 e.2 hlookup with ⟨t, ht, hreset⟩
  have hover : e.2.reset < now := by omega
  simpa using hover

theorem openWindow_bounded {rl : RateLimiter} {now : Int} (hset : SetBefore rl now)
    (key : String) :
    (rl.openWindow now key).hits.entries.length <= 1025 ∨
      forall key' w, (rl.openWindow now key).hits.lookup key' = some w -> now <= w.reset := by
  by_cases hbig : 1024 < rl.hits.entries.length
  · have hhits : (rl.openWindow now key).hits =
        (dropExpired now rl.hits).insert key { count := 1, reset := now + rl.window } := by
      simp only [RateLimiter.openWindow, if_pos hbig]
    rw [hhits]
    by_cases hneg : rl.window < 0
    · refine Or.inl ?_
      have hlen := insert_length_le (dropExpired now rl.hits) key
        { count := 1, reset := now + rl.window }
      rw [dropExpired_eq_nil hset hneg, List.length_nil] at hlen
      exact hlen.trans (by decide)
    · refine Or.inr ?_
      intro key' w hlookup
      by_cases hkey : key' = key
      · rw [hkey, AList.lookup_insert] at hlookup
        cases hlookup
        exact Int.le_add_of_nonneg_right (Int.not_lt.mp hneg)
      · rw [AList.lookup_insert_ne hkey] at hlookup
        exact Int.not_lt.mp (of_decide_eq_false (lookup_deleteWhere.mp hlookup).right)
  · refine Or.inl ?_
    have hhits : (rl.openWindow now key).hits =
        rl.hits.insert key { count := 1, reset := now + rl.window } := by
      simp only [RateLimiter.openWindow, if_neg hbig]
    rw [hhits]
    have hlen := insert_length_le rl.hits key { count := 1, reset := now + rl.window }
    omega

theorem allow_of_opens {rl : RateLimiter} {c : AllowCall} (h : rl.Opens c) :
    (rl.allow c.now c.key).1 = rl.openWindow c.now c.key := by
  unfold RateLimiter.allow
  cases hlookup : rl.hits.lookup c.key with
  | none => rfl
  | some w => simp only [if_pos (h w hlookup)]

/-- The others' calls and the sweeps they cause change no result of a key, and the map
does not grow on windows that are over. -/
theorem limiter_isolated {max window : Int} {calls : List AllowCall} (hclock : Clocked calls) :
    (forall key, (newRateLimiter max window).results key calls =
      (newRateLimiter max window).results key (callsFor key calls)) ∧
    (forall front c rest, calls = front ++ c :: rest ->
      ((newRateLimiter max window).after front).Opens c ->
      ((newRateLimiter max window).after (front ++ [c])).hits.entries.length <= 1025 ∨
        forall key w, ((newRateLimiter max window).after (front ++ [c])).hits.lookup key = some w ->
          c.now <= w.reset) := by
  refine ⟨?_, ?_⟩
  · intro key
    exact results_alone hclock rfl rfl (Or.inl rfl)
  · intro front c rest hcalls hopens
    have hbefore : forall o, o ∈ front -> o.now <= c.now := by
      rw [hcalls] at hclock
      intro o ho
      exact (List.pairwise_append.mp hclock).right.right o ho c List.mem_cons_self
    rw [after_append]
    change ((((newRateLimiter max window).after front).allow c.now c.key).1.hits.entries.length <=
      1025 ∨ _)
    have hset : SetBefore ((newRateLimiter max window).after front) c.now :=
      setBefore_after rfl hbefore
    have hbounded := openWindow_bounded hset c.key
    rw [← allow_of_opens hopens] at hbounded
    exact hbounded

/-- Two clients in turn, the first over its limit of one and again after its window. -/
theorem limiter_isolated_inTurn :
    (newRateLimiter 1 second).results "a"
        [⟨0, "a"⟩, ⟨1, "b"⟩, ⟨2, "a"⟩, ⟨second, "b"⟩, ⟨second + 1, "a"⟩] =
      [(true, 0), (false, second - 2), (true, 0)] := by
  have hclock : Clocked [⟨0, "a"⟩, ⟨1, "b"⟩, ⟨2, "a"⟩, ⟨second, "b"⟩, ⟨second + 1, "a"⟩] := by
    unfold Clocked
    decide
  rw [(@limiter_isolated 1 second _ hclock).left "a"]
  decide

/-!
## Waiting as long as the answer says
-/

/-- A request as it comes to the middleware. -/
structure Arrival where
  now : Int
  remoteAddr : String

def RateLimiter.serve (rl : RateLimiter) (arrivals : List Arrival) : RateLimiter :=
  arrivals.foldl (fun rl a => (rl.middleware a.now a.remoteAddr).1) rl

theorem middleware_rejects {rl : RateLimiter} {now : Int} {addr : String} {rejection : Rejection}
    (h : (rl.middleware now addr).2 = some rejection) :
    Limitable (clientIP addr) ∧ (rl.middleware now addr).1 = rl ∧
      exists w, rl.hits.lookup (clientIP addr) = some w ∧ now <= w.reset ∧
        rejection.retryAfter = toString ((w.reset - now).tdiv second + 1) := by
  by_cases hlimit : Limitable (clientIP addr)
  · refine ⟨hlimit, ?_⟩
    have hcount : ¬ (clientIP addr = "" ∨ isLoopback (clientIP addr) = true) := by
      rw [not_or, hlimit.right]
      exact ⟨hlimit.left, Bool.false_ne_true⟩
    unfold RateLimiter.middleware at h ⊢
    simp only [if_neg hcount] at h ⊢
    unfold RateLimiter.allow at h ⊢
    cases hlookup : rl.hits.lookup (clientIP addr) with
    | none => simp only [hlookup, reduceCtorEq] at h
    | some w =>
        by_cases hover : w.reset < now
        · simp only [hlookup, if_pos hover, reduceCtorEq] at h
        · by_cases hfull : rl.max <= w.count
          · simp only [hlookup, if_neg hover, if_pos hfull, Option.some.injEq] at h ⊢
            exact ⟨trivial, w, rfl, Int.not_lt.mp hover, by rw [← h]⟩
          · simp only [hlookup, if_neg hover, if_neg hfull, reduceCtorEq] at h
  · rw [middleware_exempt rl now hlimit] at h
    cases h

theorem lookup_serve {rl : RateLimiter} {key : String} {w : HitWindow} {arrivals : List Arrival}
    (hothers : forall a, a ∈ arrivals -> clientIP a.remoteAddr ≠ key)
    (h : (rl.serve arrivals).hits.lookup key = some w) : rl.hits.lookup key = some w := by
  induction arrivals generalizing rl with
  | nil => exact h
  | cons a rest ih =>
      have hstep : (rl.middleware a.now a.remoteAddr).1.hits.lookup key = some w :=
        ih (fun b hb => hothers b (List.mem_cons_of_mem a hb)) h
      by_cases hlimit : Limitable (clientIP a.remoteAddr)
      · rw [(middleware_allow rl a.now hlimit).left] at hstep
        exact lookup_of_allow (Ne.symm (hothers a List.mem_cons_self)) hstep
      · rw [middleware_exempt rl a.now hlimit] at hstep
        exact hstep

theorem middleware_admits {rl : RateLimiter} {now : Int} {addr : String}
    (h : forall w, rl.hits.lookup (clientIP addr) = some w -> w.reset < now) :
    (rl.middleware now addr).2 = none := by
  by_cases hlimit : Limitable (clientIP addr)
  · have hok := (middleware_allow rl now hlimit).right
    rw [(allow_hit rl now (clientIP addr)).left, admit_of_closed h] at hok
    exact Option.isNone_iff_eq_none.mp hok
  · rw [middleware_exempt rl now hlimit]

theorem tdiv_second_lt {left : Int} (h : 0 <= left) :
    left < (left.tdiv second + 1) * second ∧ (left.tdiv second + 1) * second <= left + second := by
  have hsecond : second = 1000000000 := by decide
  rw [hsecond, Int.tdiv_eq_ediv_of_nonneg h]
  omega

/-- The advertised wait is past the end of the window by a second at most, and a client
that comes back when it is over, whoever came in between, is admitted. -/
theorem retryAfter_admits {rl : RateLimiter} {now : Int} {addr : String} {rejection : Rejection}
    (h : (rl.middleware now addr).2 = some rejection) :
    exists (w : HitWindow) (n : Int), rl.hits.lookup (clientIP addr) = some w ∧
      rejection.retryAfter = toString n ∧ w.reset - now < n * second ∧
      n * second - (w.reset - now) <= second ∧
      forall others later addr', (forall a, a ∈ others -> clientIP a.remoteAddr ≠ clientIP addr) ->
        clientIP addr' = clientIP addr -> now + n * second <= later ->
        (((rl.middleware now addr).1.serve others).middleware later addr').2 = none := by
  rcases middleware_rejects h with ⟨_, hsame, w, hlookup, hin, hretry⟩
  rcases tdiv_second_lt (Int.sub_nonneg_of_le hin) with ⟨hpast, hnear⟩
  refine ⟨w, _, hlookup, hretry, hpast, by omega, ?_⟩
  intro others later addr' hothers hclient hlater
  apply middleware_admits
  intro w' hlookup'
  rw [hsame, hclient] at hlookup'
  have hkept := lookup_serve hothers hlookup'
  rw [hlookup] at hkept
  cases hkept
  omega

/-- The second try of a client in a window of one, on its last instant. -/
theorem retryAfter_admits_atReset :
    (((newRateLimiter 1 minute).serve [⟨0, "9.9.9.9:1"⟩]).middleware minute
        "9.9.9.9:2").2.map (fun r => r.retryAfter) = some "1" ∧
      exists (w : HitWindow) (n : Int), w.reset - minute < n * second ∧
        forall later, minute + n * second <= later ->
          (((((newRateLimiter 1 minute).serve [⟨0, "9.9.9.9:1"⟩]).middleware minute
            "9.9.9.9:2").1.serve [⟨minute, "8.8.8.8:1"⟩]).middleware later "9.9.9.9:3").2 =
              none := by
  have hretry : (((newRateLimiter 1 minute).serve [⟨0, "9.9.9.9:1"⟩]).middleware minute
      "9.9.9.9:2").2.map (fun r => r.retryAfter) = some "1" := by
    decide +kernel
  rcases Option.map_eq_some_iff.mp hretry with ⟨rejection, hrejection, _⟩
  rcases retryAfter_admits hrejection with ⟨w, n, _, _, hpast, _, hadmits⟩
  refine ⟨hretry, w, n, hpast, ?_⟩
  intro later hlater
  exact hadmits [⟨minute, "8.8.8.8:1"⟩] later "9.9.9.9:3"
    (List.forall_mem_singleton.mpr (by decide +kernel)) (by decide +kernel) hlater

end Api
end LodelineManager
