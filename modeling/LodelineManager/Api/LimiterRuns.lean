import LodelineManager.Api.RateLimit
import LodelineManager.Foundation.SlidingWindow

/-!
# Runs of the rate limiter

Calls of {lit}`allow` for any keys, one after the other.  A call for one key may delete the
window of another that is over, which the other key cannot tell from its window being
there: its calls are a trace of its own counter.
-/

namespace LodelineManager
namespace Api

open Foundation FixedWindow Go

/-- One call of {lit}`allow` with what the clock shows. -/
structure AllowCall where
  now : Int
  key : String
  deriving DecidableEq

/-- The clock does not go back from call to call. -/
def Clocked (calls : List AllowCall) : Prop := calls.Pairwise (fun a b => a.now <= b.now)

def RateLimiter.after (rl : RateLimiter) (calls : List AllowCall) : RateLimiter :=
  calls.foldl (fun rl c => (rl.allow c.now c.key).1) rl

def RateLimiter.attempts (key : String) : RateLimiter -> List AllowCall -> Trace
  | _, [] => []
  | rl, c :: rest =>
      if c.key = key then
        (c.now, (rl.allow c.now c.key).2.1) :: (rl.allow c.now c.key).1.attempts key rest
      else (rl.allow c.now c.key).1.attempts key rest

/-- The call opens a window: there is none for its key, or it is over. -/
def RateLimiter.Opens (rl : RateLimiter) (c : AllowCall) : Prop :=
  forall w, rl.hits.lookup c.key = some w -> w.reset < c.now

theorem after_append (rl : RateLimiter) (front back : List AllowCall) :
    rl.after (front ++ back) = (rl.after front).after back :=
  List.foldl_append

theorem after_config (rl : RateLimiter) (calls : List AllowCall) :
    (rl.after calls).max = rl.max ∧ (rl.after calls).window = rl.window := by
  induction calls generalizing rl with
  | nil => exact ⟨rfl, rfl⟩
  | cons c rest ih =>
      rcases ih (rl.allow c.now c.key).1 with ⟨hmax, hwindow⟩
      rcases allow_config rl c.now c.key with ⟨hmax', hwindow'⟩
      exact ⟨hmax.trans hmax', hwindow.trans hwindow'⟩

theorem attempts_own (rl : RateLimiter) {key : String} {c : AllowCall} (h : c.key = key)
    (rest : List AllowCall) :
    rl.attempts key (c :: rest) =
      (c.now, (rl.allow c.now c.key).2.1) :: (rl.allow c.now c.key).1.attempts key rest :=
  if_pos h

theorem attempts_other (rl : RateLimiter) {key : String} {c : AllowCall} (h : c.key ≠ key)
    (rest : List AllowCall) :
    rl.attempts key (c :: rest) = (rl.allow c.now c.key).1.attempts key rest :=
  if_neg h

theorem attempts_append (key : String) (rl : RateLimiter) (front back : List AllowCall) :
    rl.attempts key (front ++ back) =
      rl.attempts key front ++ (rl.after front).attempts key back := by
  induction front generalizing rl with
  | nil => rfl
  | cons c rest ih =>
      by_cases hkey : c.key = key
      · rw [List.cons_append, attempts_own rl hkey, attempts_own rl hkey, ih, List.cons_append]
        rfl
      · rw [List.cons_append, attempts_other rl hkey, attempts_other rl hkey, ih]
        rfl

theorem mem_attempts {key : String} {rl : RateLimiter} {calls : List AllowCall} {b : Int × Bool}
    (h : b ∈ rl.attempts key calls) : exists c, c ∈ calls ∧ c.now = b.1 := by
  induction calls generalizing rl with
  | nil => cases h
  | cons c rest ih =>
      by_cases hkey : c.key = key
      · rw [attempts_own rl hkey] at h
        rcases List.mem_cons.mp h with rfl | h
        · exact ⟨c, List.mem_cons_self, rfl⟩
        · rcases ih h with ⟨c', hc', hnow⟩
          exact ⟨c', List.mem_cons_of_mem c hc', hnow⟩
      · rw [attempts_other rl hkey] at h
        rcases ih h with ⟨c', hc', hnow⟩
        exact ⟨c', List.mem_cons_of_mem c hc', hnow⟩

theorem ordered_attempts (key : String) (rl : RateLimiter) {calls : List AllowCall}
    (h : Clocked calls) : Ordered (rl.attempts key calls) := by
  induction calls generalizing rl with
  | nil => exact List.Pairwise.nil
  | cons c rest ih =>
      rcases List.pairwise_cons.mp h with ⟨hfirst, hrest⟩
      by_cases hkey : c.key = key
      · rw [attempts_own rl hkey]
        refine List.pairwise_cons.mpr ⟨?_, ih _ hrest⟩
        intro b hb
        rcases mem_attempts hb with ⟨c', hc', hnow⟩
        rw [← hnow]
        exact hfirst c' hc'
      · rw [attempts_other rl hkey]
        exact ih _ hrest

/-!
## The counter of a key
-/

theorem lookup_allow_ne (rl : RateLimiter) (now : Int) {key key' : String} (hne : key' ≠ key) :
    (rl.allow now key).1.hits.lookup key' = rl.hits.lookup key' ∨
      ((rl.allow now key).1.hits.lookup key' = none ∧
        exists w, rl.hits.lookup key' = some w ∧ w.reset < now) := by
  have hopen : (rl.openWindow now key).hits.lookup key' = rl.hits.lookup key' ∨
      ((rl.openWindow now key).hits.lookup key' = none ∧
        exists w, rl.hits.lookup key' = some w ∧ w.reset < now) := by
    unfold RateLimiter.openWindow
    rw [AList.lookup_insert_ne hne]
    split
    · cases hbefore : rl.hits.lookup key' with
      | none => exact Or.inl (lookup_none_of_deleteWhere hbefore)
      | some w =>
          by_cases hover : w.reset < now
          · refine Or.inr ⟨?_, w, rfl, hover⟩
            cases hafter : (dropExpired now rl.hits).lookup key' with
            | none => rfl
            | some w' =>
                rcases lookup_deleteWhere.mp hafter with ⟨hsame, hkept⟩
                rw [hbefore] at hsame
                cases hsame
                exact absurd hover (of_decide_eq_false hkept)
          · exact Or.inl (lookup_deleteWhere.mpr ⟨hbefore, decide_eq_false hover⟩)
    · exact Or.inl rfl
  unfold RateLimiter.allow
  split
  · exact hopen
  · split
    · exact hopen
    · split
      · exact Or.inl rfl
      · exact Or.inl (AList.lookup_insert_ne hne)

/-- The limiter holds the counter of a key, or has dropped it when it was over. -/
def Holds (rl : RateLimiter) (key : String) (calls : List AllowCall) (c : Option Counter) : Prop :=
  rl.hits.lookup key = c ∨
    (rl.hits.lookup key = none ∧
      exists o, c = some o ∧ forall call, call ∈ calls -> o.reset < call.now)

theorem Holds.hit_eq {rl : RateLimiter} {call : AllowCall} {rest : List AllowCall}
    {c : Option Counter} (h : Holds rl call.key (call :: rest) c) :
    hit rl.max rl.window call.now (rl.hits.lookup call.key) =
      hit rl.max rl.window call.now c := by
  rcases h with hlookup | ⟨hlookup, o, ho, hover⟩
  · rw [hlookup]
  · have hnow := hover call List.mem_cons_self
    rw [hlookup, ho, hit, hit, if_pos hnow]

theorem Holds.other {rl : RateLimiter} {key : String} {call : AllowCall} {rest : List AllowCall}
    {c : Option Counter} (h : Holds rl key (call :: rest) c) (hkey : call.key ≠ key)
    (hfirst : forall d, d ∈ rest -> call.now <= d.now) :
    Holds (rl.allow call.now call.key).1 key rest c := by
  rcases lookup_allow_ne rl call.now (Ne.symm hkey) with hkept | ⟨hdropped, w, hw, hover⟩
  · rcases h with hlookup | ⟨hlookup, o, ho, hlater⟩
    · exact Or.inl (hkept.trans hlookup)
    · exact Or.inr ⟨hkept.trans hlookup, o, ho,
        fun d hd => hlater d (List.mem_cons_of_mem call hd)⟩
  · rcases h with hlookup | ⟨hlookup, _⟩
    · refine Or.inr ⟨hdropped, w, hlookup.symm.trans hw, ?_⟩
      exact fun d hd => Int.lt_of_lt_of_le hover (hfirst d hd)
    · rw [hlookup] at hw
      cases hw

theorem counted_attempts {key : String} {rl : RateLimiter} {calls : List AllowCall}
    {c : Option Counter} (hclock : Clocked calls) (hholds : Holds rl key calls c) :
    Counted rl.max rl.window c (rl.attempts key calls) := by
  induction calls generalizing rl c with
  | nil => trivial
  | cons call rest ih =>
      rcases List.pairwise_cons.mp hclock with ⟨hfirst, hrest⟩
      rcases allow_config rl call.now call.key with ⟨hmax, hwindow⟩
      by_cases hkey : call.key = key
      · subst hkey
        rcases allow_hit rl call.now call.key with ⟨hok, hlookup⟩
        rw [hholds.hit_eq] at hok hlookup
        have htail := ih hrest (Or.inl hlookup)
        rw [hmax, hwindow] at htail
        rw [attempts_own rl rfl]
        exact ⟨hok, htail⟩
      · rw [attempts_other rl hkey, ← hmax, ← hwindow]
        exact ih hrest (hholds.other hkey hfirst)

/-!
## The window of a call
-/

/-- The calls since one opened the window of the key, as many of them admitted as the
window counts. -/
def OpenedBy (start : RateLimiter) (key : String) (front : List AllowCall) (w : HitWindow) : Prop :=
  exists earlier o since, front = earlier ++ o :: since ∧ o.key = key ∧
    (start.after earlier).Opens o ∧ w.reset = o.now + start.window ∧
    (admitted ((start.after earlier).attempts key (o :: since)) : Int) = w.count

theorem attempts_single (rl : RateLimiter) (c : AllowCall) :
    rl.attempts c.key [c] = [(c.now, (rl.allow c.now c.key).2.1)] :=
  attempts_own rl rfl []

theorem OpenedBy.snoc {start : RateLimiter} {key : String} {front : List AllowCall} {w : HitWindow}
    (h : OpenedBy start key front w) {c : AllowCall} {count : Int}
    (hcount : w.count + admitted ((start.after front).attempts key [c]) = count) :
    OpenedBy start key (front ++ [c]) { w with count := count } := by
  rcases h with ⟨earlier, o, since, hfront, hkey, hopens, hreset, hadmitted⟩
  refine ⟨earlier, o, since ++ [c], ?_, hkey, hopens, hreset, ?_⟩
  · rw [hfront, List.append_assoc, List.cons_append]
  · rw [← List.cons_append, attempts_append, admitted_append, Nat.cast_add, hadmitted,
      ← after_append, ← hfront, hcount]

theorem openedBy_after {start : RateLimiter} (hempty : start.hits = ∅)
    (front : List AllowCall) {key : String} {w : HitWindow}
    (h : (start.after front).hits.lookup key = some w) :
    OpenedBy start key front w ∧ (1 <= start.max -> w.count <= start.max) := by
  induction front using List.reverseRecOn generalizing w with
  | nil =>
      change start.hits.lookup key = some w at h
      rw [hempty, AList.lookup_empty] at h
      cases h
  | append_singleton front c ih =>
      rw [after_append] at h
      change ((start.after front).allow c.now c.key).1.hits.lookup key = some w at h
      rcases after_config start front with ⟨hsame, hwindow⟩
      by_cases hkey : c.key = key
      · subst hkey
        have hallow := allow_hit (start.after front) c.now c.key
        have hone := attempts_single (start.after front) c
        rw [hsame, hwindow] at hallow
        rcases hallow with ⟨hok, hlookup⟩
        rw [hlookup] at h
        cases h
        rw [hok] at hone
        rcases hit_cases start.max start.window c.now ((start.after front).hits.lookup c.key) with
          ⟨hover, hhit⟩ | ⟨o, hbefore, _, _, hhit⟩ | ⟨o, hbefore, _, hroom, hhit⟩
        · rw [hhit] at hone
          rw [hhit]
          refine ⟨⟨front, c, [], rfl, rfl, hover, rfl, ?_⟩, id⟩
          rw [hone]
          rfl
        · rw [hhit] at hone
          rw [hhit]
          rcases ih hbefore with ⟨hopened, hle⟩
          refine ⟨hopened.snoc ?_, hle⟩
          rw [hone]
          exact Int.add_zero o.count
        · rw [hhit] at hone
          rw [hhit]
          rcases ih hbefore with ⟨hopened, _⟩
          refine ⟨hopened.snoc ?_, fun _ => Int.add_one_le_of_lt hroom⟩
          rw [hone]
          rfl
      · rcases ih (lookup_of_allow (Ne.symm hkey) h) with ⟨hopened, hle⟩
        refine ⟨hopened.snoc ?_, hle⟩
        rw [attempts_other _ hkey]
        exact Int.add_zero w.count

theorem rejected_call {start : RateLimiter} (hmax : 1 <= start.max) (hempty : start.hits = ∅)
    {front : List AllowCall} {c : AllowCall}
    (h : ((start.after front).allow c.now c.key).2.1 = false) :
    exists w, (start.after front).hits.lookup c.key = some w ∧ c.now <= w.reset ∧
      w.count = start.max := by
  rcases allow_hit (start.after front) c.now c.key with ⟨hok, _⟩
  rw [hok] at h
  rcases hit_cases (start.after front).max (start.after front).window c.now
    ((start.after front).hits.lookup c.key) with
    ⟨_, hhit⟩ | ⟨o, hlookup, hin, hfull, _⟩ | ⟨o, _, _, _, hhit⟩
  · rw [hhit] at h
    cases h
  · rw [(after_config start front).left] at hfull
    exact ⟨o, hlookup, hin,
      Int.le_antisymm ((openedBy_after hempty front hlookup).right hmax) hfull⟩
  · rw [hhit] at h
    cases h

/-- From the call that opens a window to its last instant the limiter admits at most the
limit, in any interval that is no longer than the window at most twice the limit, and it
rejects a call only in a window in which it has admitted the limit. -/
theorem limiter_windows {max window : Int} (hmax : 1 <= max) {calls : List AllowCall}
    (hclock : Clocked calls) :
    (forall front c rest, calls = front ++ c :: rest ->
      ((newRateLimiter max window).after front).Opens c ->
      (admitted (upTo (c.now + window)
        (((newRateLimiter max window).after front).attempts c.key (c :: rest))) : Int) <= max) ∧
    (forall key first last, last - first <= window ->
      (admitted (between first last ((newRateLimiter max window).attempts key calls)) : Int) <=
        2 * max) ∧
    (forall front c rest, calls = front ++ c :: rest ->
      (((newRateLimiter max window).after front).allow c.now c.key).2.1 = false ->
      exists earlier o since, front = earlier ++ o :: since ∧ o.key = c.key ∧
        ((newRateLimiter max window).after earlier).Opens o ∧
        o.now <= c.now ∧ c.now <= o.now + window ∧
        (admitted (((newRateLimiter max window).after earlier).attempts c.key
          (o :: since)) : Int) = max) := by
  refine ⟨?_, ?_, ?_⟩
  · intro front c rest hcalls hopens
    have hback : Clocked (c :: rest) := by
      rw [hcalls] at hclock
      exact (List.pairwise_append.mp hclock).right.left
    have hcounted := counted_attempts hback
      (Or.inl (Eq.refl (((newRateLimiter max window).after front).hits.lookup c.key)))
    have hordered := ordered_attempts c.key ((newRateLimiter max window).after front) hback
    rcases after_config (newRateLimiter max window) front with ⟨hsame, hwindow⟩
    rw [hsame, hwindow] at hcounted
    rw [attempts_own _ rfl] at hcounted hordered ⊢
    refine admitted_window_le hmax ?_ hordered hcounted
    intro a rest' o htrace ho
    cases htrace
    exact hopens o ho
  · intro key first last hlen
    have hcounted := counted_attempts hclock
      (Or.inl (Eq.refl ((newRateLimiter max window).hits.lookup key)))
    refine admitted_between_le hmax ?_ (ordered_attempts key _ hclock) hcounted hlen
    intro o ho
    cases ho
  · intro front c rest hcalls hrejected
    rcases rejected_call hmax rfl hrejected with ⟨w, hlookup, hin, hfull⟩
    rcases (openedBy_after rfl front hlookup).left with
      ⟨earlier, o, since, hfront, hkey, hopens, hreset, hadmitted⟩
    have hbefore : o.now <= c.now := by
      rw [hcalls, hfront] at hclock
      exact (List.pairwise_append.mp hclock).right.right o
        (List.mem_append_right earlier List.mem_cons_self) c List.mem_cons_self
    rw [hreset] at hin
    rw [hfull] at hadmitted
    exact ⟨earlier, o, since, hfront, hkey, hopens, hbefore, hin, hadmitted⟩

def callsToReset : List AllowCall :=
  [⟨0, "a"⟩, ⟨second, "a"⟩, ⟨second, "b"⟩, ⟨minute, "a"⟩]

theorem limiter_windows_toReset :
    (((newRateLimiter 2 minute).after (callsToReset.take 3)).allow minute "a").2.1 = false ∧
      exists earlier o since, callsToReset.take 3 = earlier ++ o :: since ∧ o.key = "a" ∧
        ((newRateLimiter 2 minute).after earlier).Opens o ∧
        o.now <= minute ∧ minute <= o.now + minute ∧
        (admitted (((newRateLimiter 2 minute).after earlier).attempts "a" (o :: since)) : Int) =
          2 := by
  have hclock : Clocked callsToReset := by
    unfold Clocked
    decide
  have hrejected :
      (((newRateLimiter 2 minute).after (callsToReset.take 3)).allow minute "a").2.1 = false := by
    decide
  exact ⟨hrejected, (@limiter_windows 2 minute (by decide) callsToReset hclock).right.right
    (callsToReset.take 3) ⟨minute, "a"⟩ [] rfl hrejected⟩

end Api
end LodelineManager
