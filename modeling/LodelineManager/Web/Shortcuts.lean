import LodelineManager.Foundation.Runs

/-!
# Keyboard shortcuts

{lit}`useShortcuts` keeps one listener for all key presses and lets {lit}`g` lead another key
for a second.  The closure of the listener and the timeouts of the browser are one state here,
so a timeout may run late, or after later presses.  The module says which handler each press
calls, from the history of the presses alone.
-/

namespace LodelineManager
namespace Web

open Foundation

/-- The keys of {lit}`ShortcutHandlers`. -/
inductive Binding where
  | arrowDown
  | arrowUp
  | j
  | k
  | enter
  | escape
  | a
  | c
  | r
  | i
  | n
  | slash
  | goAlerts
  | goFleet
  | goSettings
  | question
  deriving DecidableEq

namespace Binding

def all : List Binding :=
  [.arrowDown, .arrowUp, .j, .k, .enter, .escape, .a, .c, .r, .i, .n, .slash, .goAlerts,
    .goFleet, .goSettings, .question]

def name : Binding -> String
  | .arrowDown => "ArrowDown"
  | .arrowUp => "ArrowUp"
  | .j => "j"
  | .k => "k"
  | .enter => "Enter"
  | .escape => "Escape"
  | .a => "a"
  | .c => "c"
  | .r => "r"
  | .i => "i"
  | .n => "n"
  | .slash => "/"
  | .goAlerts => "g a"
  | .goFleet => "g f"
  | .goSettings => "g s"
  | .question => "?"

def named (text : String) : Option Binding := all.find? (fun b => decide (b.name = text))

end Binding

def ShortcutHandlers (handler : Type) := Binding -> Option handler

/-- What {lit}`isTypingTarget` reads of an element. -/
structure Element where
  tagName : String
  isContentEditable : Bool
  role : Option String

def isTypingTarget : Option Element -> Bool
  | none => false
  | some target =>
      if target.tagName = "INPUT" ∨ target.tagName = "TEXTAREA" ∨ target.tagName = "SELECT" then
        true
      else if target.isContentEditable then true
      else decide (target.role = some "textbox")

structure KeyboardEvent where
  key : String
  target : Option Element
  ctrlKey : Bool
  metaKey : Bool
  altKey : Bool

def leaderTimeoutMs : Nat := 1000

/-- The hook of a page with the clock and the pending timeouts of its window: a timeout is
an id and the earliest time at which its callback runs. -/
structure Keyboard (handler : Type) where
  handlers : ShortcutHandlers handler
  attached : Bool
  leaderActive : Bool
  leaderTimer : Option Nat
  now : Nat
  timers : List (Nat × Nat)
  nextTimer : Nat

inductive KeyboardLabel (handler : Type) where
  | render (handlers : ShortcutHandlers handler)
  | wait (ms : Nat)
  | keydown (e : KeyboardEvent)
  | timeout (timer : Nat)
  | unmount

variable {handler : Type}

/-- {lit}`ref.current` at a text. -/
def ShortcutHandlers.at (handlers : ShortcutHandlers handler) (text : String) : Option handler :=
  (Binding.named text).bind handlers

namespace Keyboard

def mounted (handlers : ShortcutHandlers handler) : Keyboard handler where
  handlers := handlers
  attached := true
  leaderActive := false
  leaderTimer := none
  now := 0
  timers := []
  nextTimer := 1

variable (s : Keyboard handler)

/-- {lit}`window.clearTimeout` -/
def clearTimeout (timer : Nat) : Keyboard handler :=
  { s with timers := s.timers.filter (fun t => decide (t.1 ≠ timer)) }

def clearLeader : Keyboard handler :=
  let off := { s with leaderActive := false }
  match s.leaderTimer with
  | none => off
  | some timer => { off.clearTimeout timer with leaderTimer := none }

def setLeader : Keyboard handler :=
  { s with
    leaderActive := true
    leaderTimer := some s.nextTimer
    timers := (s.nextTimer, s.now + leaderTimeoutMs) :: s.timers
    nextTimer := s.nextTimer + 1 }

def single (e : KeyboardEvent) : Keyboard handler × Option handler :=
  if e.key = "g" then (s.setLeader, none) else (s, s.handlers.at e.key)

def press (e : KeyboardEvent) : Keyboard handler × Option handler :=
  if e.key = "Escape" then (s.clearLeader, s.handlers .escape)
  else if isTypingTarget e.target then (s, none)
  else if e.ctrlKey || e.metaKey || e.altKey then (s, none)
  else if s.leaderActive then
    match s.handlers.at ("g " ++ e.key) with
    | some fn => (s.clearLeader, some fn)
    -- No match: the key falls through without the leader.
    | none => s.clearLeader.single e
  else s.single e

/-- Once its time has come the browser runs a pending callback when it likes, and after the
clean-up of the effect no press reaches the listener. -/
def step : KeyboardLabel handler -> Option (Keyboard handler)
  | .render handlers => if s.attached then some { s with handlers := handlers } else none
  | .wait ms => some { s with now := s.now + ms }
  | .keydown e => if s.attached then some (s.press e).1 else none
  | .timeout timer =>
      match s.timers.find? (fun t => decide (t.1 = timer)) with
      | none => none
      | some t => if t.2 <= s.now then some (s.clearTimeout timer).clearLeader else none
  | .unmount => if s.attached then some { s.clearLeader with attached := false } else none

end Keyboard

/-!
## Presses by their history
-/

def KeyboardEvent.ignored (e : KeyboardEvent) : Bool :=
  isTypingTarget e.target || (e.ctrlKey || e.metaKey || e.altKey)

/-- The handler for a press, by whether a {lit}`g` leads it. -/
def dispatch (handlers : ShortcutHandlers handler) (led : Bool) (e : KeyboardEvent) :
    Option handler :=
  if e.key = "Escape" then handlers .escape
  else if e.ignored then none
  else if led then (handlers.at ("g " ++ e.key)).or (handlers.at e.key)
  else handlers.at e.key

/-- The time since the last press that counts, when that was a {lit}`g`. -/
def sinceG (age : Option Nat) : KeyboardLabel handler -> Option Nat
  | .wait ms => age.map (fun n => n + ms)
  | .keydown e =>
      if e.key = "Escape" then none
      else if e.ignored then age
      else if e.key = "g" then some 0
      else none
  | _ => age

def lastRendered (handlers : ShortcutHandlers handler) :
    KeyboardLabel handler -> ShortcutHandlers handler
  | .render handlers' => handlers'
  | _ => handlers

/-- What the closure and the timeouts have to do with the time since the last {lit}`g`: the
one pending timeout belongs to it, and without one the {lit}`g` is a second old. -/
structure Keyboard.Tracks (s : Keyboard handler) (age : Option Nat) : Prop where
  off : s.leaderActive = false -> s.leaderTimer = none ∧ s.timers = [] ∧
    (s.attached = true -> forall n, age = some n -> leaderTimeoutMs <= n)
  on : s.leaderActive = true -> s.attached = true ∧ exists timer pressed n,
    s.leaderTimer = some timer ∧ s.timers = [(timer, pressed + leaderTimeoutMs)] ∧
      age = some n ∧ pressed + n = s.now

/-- No callback is overdue. -/
def Keyboard.Prompt (s : Keyboard handler) : Prop := forall t, t ∈ s.timers -> s.now < t.2

/-- A press calls the handler that the history picks: for the combination while the {lit}`g`
is younger than a second, for the key alone without a {lit}`g`, and afterwards for the
combination only when the callback is late. -/
structure Keyboard.Answers (s : Keyboard handler) (handlers : ShortcutHandlers handler)
    (age : Option Nat) (e : KeyboardEvent) : Prop where
  alone : age = none -> (s.press e).2 = dispatch handlers false e
  led : forall n, age = some n -> n < leaderTimeoutMs -> (s.press e).2 = dispatch handlers true e
  late : forall n, age = some n -> leaderTimeoutMs <= n ->
    exists led, (s.press e).2 = dispatch handlers led e ∧ (s.Prompt -> led = false)

/-!
## The pending timeout
-/

section

variable {s s' : Keyboard handler} {age : Option Nat} {l : KeyboardLabel handler}
variable {e : KeyboardEvent}

theorem at_g (handlers : ShortcutHandlers handler) :
    handlers.at "g" = none ∧ handlers.at ("g " ++ "g") = none := by
  have hsingle : Binding.named "g" = none := by decide
  have htwice : Binding.named ("g " ++ "g") = none := by decide
  unfold ShortcutHandlers.at
  rw [hsingle, htwice]
  exact ⟨rfl, rfl⟩

theorem sinceG_keydown : sinceG age (.keydown e : KeyboardLabel handler) =
    if e.key = "Escape" then none
    else if e.ignored then age
    else if e.key = "g" then some 0
    else none := rfl

namespace Keyboard

theorem press_escape (hkey : e.key = "Escape") :
    s.press e = (s.clearLeader, s.handlers .escape) := if_pos hkey

theorem press_ignored (hkey : e.key ≠ "Escape") (hignored : e.ignored = true) :
    s.press e = (s, none) := by
  unfold press
  rw [if_neg hkey]
  rcases Bool.or_eq_true_iff.mp hignored with htyping | hmodified
  · rw [if_pos htyping]
  · rw [if_pos hmodified, ite_self]

theorem press_counted (hkey : e.key ≠ "Escape") (hignored : e.ignored = false) :
    s.press e =
      if s.leaderActive then
        match s.handlers.at ("g " ++ e.key) with
        | some fn => (s.clearLeader, some fn)
        | none => s.clearLeader.single e
      else s.single e := by
  rcases Bool.or_eq_false_iff.mp hignored with ⟨htyping, hmodified⟩
  unfold press
  rw [if_neg hkey, htyping, hmodified]
  rfl

theorem clearLeader_handlers : s.clearLeader.handlers = s.handlers := by
  unfold clearLeader
  cases s.leaderTimer <;> rfl

theorem single_called : (s.single e).2 = s.handlers.at e.key := by
  unfold Keyboard.single
  by_cases hg : e.key = "g"
  · rw [if_pos hg, hg, (at_g s.handlers).left]
  · rw [if_neg hg]

theorem single_handlers : (s.single e).1.handlers = s.handlers := by
  unfold Keyboard.single
  split <;> rfl

theorem press_handlers : (s.press e).1.handlers = s.handlers := by
  by_cases hkey : e.key = "Escape"
  · rw [press_escape hkey]
    exact clearLeader_handlers
  · cases hignored : e.ignored with
    | true => rw [press_ignored hkey hignored]
    | false =>
        rw [press_counted hkey hignored]
        cases s.leaderActive with
        | false => exact single_handlers
        | true =>
            cases s.handlers.at ("g " ++ e.key) with
            | some fn => exact clearLeader_handlers
            | none => exact single_handlers.trans clearLeader_handlers

theorem press_called : (s.press e).2 = dispatch s.handlers s.leaderActive e := by
  unfold dispatch
  by_cases hkey : e.key = "Escape"
  · rw [press_escape hkey, if_pos hkey]
  · rw [if_neg hkey]
    cases hignored : e.ignored with
    | true =>
        rw [press_ignored hkey hignored]
        rfl
    | false =>
        rw [press_counted hkey hignored]
        cases s.leaderActive with
        | false => exact single_called
        | true =>
            cases hcombo : s.handlers.at ("g " ++ e.key) with
            | some fn => simp only [if_true, Bool.false_eq_true, if_false, Option.some_or]
            | none =>
                simp only [if_true, Bool.false_eq_true, if_false, Option.none_or]
                rw [single_called, clearLeader_handlers]

theorem Tracks.clearLeader_eq (h : s.Tracks age) :
    s.clearLeader = { s with leaderActive := false, leaderTimer := none, timers := [] } := by
  cases hactive : s.leaderActive with
  | false =>
      rcases h.off hactive with ⟨htimer, htimers, _⟩
      simp only [clearLeader, htimer, htimers]
  | true =>
      rcases h.on hactive with ⟨_, timer, pressed, n, htimer, htimers, _, _⟩
      simp only [clearLeader, htimer, clearTimeout, htimers]
      simp

theorem tracks_mounted (handlers : ShortcutHandlers handler) : (mounted handlers).Tracks none where
  off := by
    intro _
    refine ⟨rfl, rfl, ?_⟩
    intro _ n hn
    cases hn
  on := by
    intro hactive
    cases hactive

theorem Tracks.cleared (h : s.Tracks age) {age' : Option Nat}
    (hage : forall n, age' = some n -> leaderTimeoutMs <= n) : s.clearLeader.Tracks age' := by
  rw [h.clearLeader_eq]
  constructor
  · intro _
    exact ⟨rfl, rfl, fun _ => hage⟩
  · intro hactive
    cases hactive

theorem Tracks.single (h : s.Tracks age) (hattached : s.attached = true)
    (hactive : s.leaderActive = false) :
    (s.single e).1.Tracks (if e.key = "g" then some 0 else none) := by
  rcases h.off hactive with ⟨htimer, htimers, _⟩
  unfold Keyboard.single
  by_cases hg : e.key = "g"
  · rw [if_pos hg, if_pos hg]
    constructor
    · intro hoff
      cases hoff
    · intro _
      refine ⟨hattached, s.nextTimer, s.now, 0, rfl, ?_, rfl, rfl⟩
      show (s.nextTimer, s.now + leaderTimeoutMs) :: s.timers = _
      rw [htimers]
  · rw [if_neg hg, if_neg hg]
    constructor
    · intro _
      refine ⟨htimer, htimers, ?_⟩
      intro _ n hn
      cases hn
    · intro hon
      exact absurd (hactive.symm.trans hon) Bool.false_ne_true

theorem Tracks.wait (h : s.Tracks age) (ms : Nat) :
    { s with now := s.now + ms }.Tracks (age.map (fun n => n + ms)) where
  off := by
    intro hactive
    rcases h.off hactive with ⟨htimer, htimers, hold⟩
    refine ⟨htimer, htimers, ?_⟩
    intro hattached n hn
    rcases Option.map_eq_some_iff.mp hn with ⟨m, hm, heq⟩
    have hm' := hold hattached m hm
    omega
  on := by
    intro hactive
    rcases h.on hactive with ⟨hattached, timer, pressed, n, htimer, htimers, hage, hnow⟩
    refine ⟨hattached, timer, pressed, n + ms, htimer, htimers, ?_, ?_⟩
    · rw [hage]
      rfl
    · show pressed + (n + ms) = s.now + ms
      omega

theorem Tracks.press (h : s.Tracks age) (hattached : s.attached = true) :
    (s.press e).1.Tracks (sinceG age (.keydown e : KeyboardLabel handler)) := by
  have hfresh : s.clearLeader.Tracks none := by
    apply h.cleared
    intro n hn
    cases hn
  rw [sinceG_keydown]
  by_cases hkey : e.key = "Escape"
  · rw [press_escape hkey, if_pos hkey]
    exact hfresh
  · rw [if_neg hkey]
    cases hignored : e.ignored with
    | true =>
        rw [press_ignored hkey hignored, if_pos rfl]
        exact h
    | false =>
        rw [press_counted hkey hignored, if_neg Bool.false_ne_true]
        cases hactive : s.leaderActive with
        | false => exact h.single hattached hactive
        | true =>
            have hsingle : (s.clearLeader.single e).1.Tracks
                (if e.key = "g" then some 0 else none) := by
              apply hfresh.single
              · rw [h.clearLeader_eq]
                exact hattached
              · rw [h.clearLeader_eq]
            cases hcombo : s.handlers.at ("g " ++ e.key) with
            | none => exact hsingle
            | some fn =>
                have hg : e.key ≠ "g" := by
                  intro hg
                  rw [hg, (at_g s.handlers).right] at hcombo
                  cases hcombo
                rw [if_neg hg]
                exact hfresh

theorem Tracks.timeout (h : s.Tracks age) {timer : Nat}
    (hstep : s.step (.timeout timer) = some s') : s'.Tracks age := by
  cases hfind : s.timers.find? (fun t => decide (t.1 = timer)) with
  | none =>
      simp only [step, hfind] at hstep
      cases hstep
  | some t =>
      simp only [step, hfind] at hstep
      rcases Option.ite_none_right_eq_some.mp hstep with ⟨hdue, heq⟩
      cases heq
      have hmem := List.mem_of_find?_eq_some hfind
      have hid : t.1 = timer := by simpa using List.find?_some hfind
      cases hactive : s.leaderActive with
      | false =>
          rw [(h.off hactive).right.left] at hmem
          cases hmem
      | true =>
          rcases h.on hactive with ⟨_, own, pressed, n, htimer, htimers, hage, hnow⟩
          rw [htimers] at hmem
          cases List.mem_singleton.mp hmem
          cases hid
          have hclear : (s.clearTimeout own).clearLeader = s.clearLeader := by
            simp only [clearLeader, clearTimeout, htimer, List.filter_filter, Bool.and_self]
          rw [hclear]
          apply h.cleared
          intro m hm
          cases hage.symm.trans hm
          exact Nat.le_of_add_le_add_left (le_of_le_of_eq hdue hnow.symm)

theorem tracks_step (h : s.Tracks age) (hstep : s.step l = some s') :
    s'.Tracks (sinceG age l) := by
  cases l with
  | render handlers =>
      rcases Option.ite_none_right_eq_some.mp hstep with ⟨_, heq⟩
      cases heq
      exact ⟨h.off, h.on⟩
  | wait ms =>
      cases hstep
      exact h.wait ms
  | keydown e =>
      rcases Option.ite_none_right_eq_some.mp hstep with ⟨hattached, heq⟩
      cases heq
      exact h.press hattached
  | timeout timer => exact h.timeout hstep
  | unmount =>
      rcases Option.ite_none_right_eq_some.mp hstep with ⟨_, heq⟩
      cases heq
      rw [h.clearLeader_eq]
      constructor
      · intro _
        refine ⟨rfl, rfl, ?_⟩
        intro hattached
        cases hattached
      · intro hactive
        cases hactive

theorem tracks_run {labels : List (KeyboardLabel handler)} (h : s.Tracks age)
    (hrun : runSteps step s labels = some s') : s'.Tracks (labels.foldl sinceG age) := by
  induction labels generalizing s age with
  | nil =>
      cases hrun
      exact h
  | cons l rest ih =>
      rcases runSteps_cons hrun with ⟨mid, hmid, hrest⟩
      exact ih (tracks_step h hmid) hrest

theorem handlers_step (hstep : s.step l = some s') :
    s'.handlers = lastRendered s.handlers l := by
  cases l with
  | render handlers =>
      rcases Option.ite_none_right_eq_some.mp hstep with ⟨_, heq⟩
      cases heq
      rfl
  | wait ms =>
      cases hstep
      rfl
  | keydown e =>
      rcases Option.ite_none_right_eq_some.mp hstep with ⟨_, heq⟩
      cases heq
      exact press_handlers
  | timeout timer =>
      simp only [step] at hstep
      split at hstep
      · cases hstep
      · rcases Option.ite_none_right_eq_some.mp hstep with ⟨_, heq⟩
        cases heq
        exact clearLeader_handlers
  | unmount =>
      rcases Option.ite_none_right_eq_some.mp hstep with ⟨_, heq⟩
      cases heq
      exact clearLeader_handlers

theorem handlers_run {labels : List (KeyboardLabel handler)}
    (hrun : runSteps step s labels = some s') :
    s'.handlers = labels.foldl lastRendered s.handlers := by
  induction labels generalizing s with
  | nil =>
      cases hrun
      rfl
  | cons l rest ih =>
      rcases runSteps_cons hrun with ⟨mid, hmid, hrest⟩
      rw [ih hrest, handlers_step hmid]
      rfl

theorem Tracks.answers (h : s.Tracks age) (hattached : s.attached = true) (e : KeyboardEvent) :
    s.Answers s.handlers age e where
  alone := by
    intro hnone
    cases hactive : s.leaderActive with
    | false => rw [press_called, hactive]
    | true =>
        rcases h.on hactive with ⟨_, _, _, n, _, _, hage, _⟩
        cases hnone.symm.trans hage
  led := by
    intro n hn hyoung
    cases hactive : s.leaderActive with
    | true => rw [press_called, hactive]
    | false => exact absurd ((h.off hactive).right.right hattached n hn) (Nat.not_le.mpr hyoung)
  late := by
    intro n hn hold
    refine ⟨s.leaderActive, press_called, ?_⟩
    intro hprompt
    cases hactive : s.leaderActive with
    | false => rfl
    | true =>
        rcases h.on hactive with ⟨_, timer, pressed, m, _, htimers, hage, hnow⟩
        cases hage.symm.trans hn
        have hpending := hprompt (timer, pressed + leaderTimeoutMs)
          (htimers ▸ List.mem_singleton.mpr rfl)
        have hsum := Nat.add_le_add_left hold pressed
        exact absurd hpending (Nat.not_lt.mpr (le_of_le_of_eq hsum hnow))

/-- Without the listener and without a timeout only time passes. -/
structure Quiet (s : Keyboard handler) : Prop where
  attached : s.attached = false
  timers : s.timers = []

theorem Quiet.step (h : s.Quiet) (hstep : s.step l = some s') :
    s'.Quiet ∧ exists ms, l = .wait ms := by
  have hoff : forall t, ¬ (if s.attached then some t else none) = some s' := by
    intro t heq
    rw [h.attached] at heq
    cases heq
  cases l with
  | wait ms =>
      cases hstep
      exact ⟨⟨h.attached, h.timers⟩, ms, rfl⟩
  | timeout timer =>
      simp only [Keyboard.step, h.timers, List.find?_nil] at hstep
      cases hstep
  | render handlers => exact absurd hstep (hoff _)
  | keydown e => exact absurd hstep (hoff _)
  | unmount => exact absurd hstep (hoff _)

theorem Quiet.run {labels : List (KeyboardLabel handler)} (h : s.Quiet)
    (hrun : runSteps Keyboard.step s labels = some s') :
    forall l, l ∈ labels -> exists ms, l = KeyboardLabel.wait ms := by
  induction labels generalizing s with
  | nil =>
      intro l hl
      cases hl
  | cons a rest ih =>
      rcases runSteps_cons hrun with ⟨mid, hmid, hrest⟩
      have hhead := h.step hmid
      intro l hl
      rcases List.mem_cons.mp hl with heq | hmem
      · exact heq ▸ hhead.right
      · exact ih hhead.left hrest l hmem

end Keyboard

/-- In every run of presses, renders, waits and timeouts each press calls the handler that the
history picks, and after the unmount nothing of the hook runs. -/
theorem presses_answered (first : ShortcutHandlers handler)
    (front back : List (KeyboardLabel handler)) :
    (forall e s', runSteps Keyboard.step (Keyboard.mounted first) (front ++ .keydown e :: back) =
        some s' ->
      exists s, runSteps Keyboard.step (Keyboard.mounted first) front = some s ∧
        s.Answers (front.foldl lastRendered first) (front.foldl sinceG none) e) ∧
    (forall s', runSteps Keyboard.step (Keyboard.mounted first) (front ++ .unmount :: back) =
        some s' ->
      forall l, l ∈ back -> exists ms, l = KeyboardLabel.wait ms) := by
  constructor
  · intro e s' hrun
    rcases runSteps_split hrun with ⟨s, after, hfront, hstep, _⟩
    rcases Option.ite_none_right_eq_some.mp hstep with ⟨hattached, _⟩
    refine ⟨s, hfront, ?_⟩
    have hanswers := (Keyboard.tracks_run (Keyboard.tracks_mounted first) hfront).answers
      hattached e
    rw [Keyboard.handlers_run hfront] at hanswers
    exact hanswers
  · intro s' hrun
    rcases runSteps_split hrun with ⟨s, after, hfront, hstep, hback⟩
    rcases Option.ite_none_right_eq_some.mp hstep with ⟨_, heq⟩
    cases heq
    have htracks := Keyboard.tracks_run (Keyboard.tracks_mounted first) hfront
    apply Keyboard.Quiet.run ?_ hback
    rw [htracks.clearLeader_eq]
    exact ⟨rfl, rfl⟩

end

/-!
## The handlers of the Alerts page
-/

inductive PageCommand where
  | moveCursor (delta : Int)
  | dismiss
  | openFirst
  | focusAssign
  | focusNote
  | triggerStatusButton (label : String)
  | focusSearch
  | openCheatsheet
  | navigate (path : String)
  deriving DecidableEq

def alertsHandlers : ShortcutHandlers PageCommand
  | .j | .arrowDown => some (.moveCursor 1)
  | .k | .arrowUp => some (.moveCursor (-1))
  | .escape => some .dismiss
  | .enter => some .openFirst
  | .a => some .focusAssign
  | .n => some .focusNote
  | .c => some (.triggerStatusButton "Acknowledge")
  | .r => some (.triggerStatusButton "Resolve")
  | .i => some (.triggerStatusButton "Investigating")
  | .slash => some .focusSearch
  | .question => some .openCheatsheet
  | .goAlerts => some (.navigate "/alerts")
  | .goFleet => some (.navigate "/fleet")
  | .goSettings => some (.navigate "/settings")

def plainPress (key : String) : KeyboardEvent where
  key := key
  target := none
  ctrlKey := false
  metaKey := false
  altKey := false

/-- {lit}`g` leads {lit}`s` to the settings; it does not keep {lit}`c` from acknowledging, and
no callback follows the unmount. -/
theorem presses_answered_gLeads :
    (exists s, runSteps Keyboard.step (Keyboard.mounted alertsHandlers)
        [.keydown (plainPress "g"), .wait 400] = some s ∧
      (s.press (plainPress "s")).2 = some (.navigate "/settings")) ∧
    (exists s, runSteps Keyboard.step (Keyboard.mounted alertsHandlers)
        [.keydown (plainPress "g"), .wait 400] = some s ∧
      (s.press (plainPress "c")).2 = some (.triggerStatusButton "Acknowledge")) ∧
    exists ms, (KeyboardLabel.wait 2000 : KeyboardLabel PageCommand) = .wait ms := by
  refine ⟨?_, ?_, ?_⟩
  · rcases (presses_answered alertsHandlers [.keydown (plainPress "g"), .wait 400] []).left
      (plainPress "s") _ rfl with ⟨s, hs, h⟩
    exact ⟨s, hs, h.led 400 rfl (by decide)⟩
  · rcases (presses_answered alertsHandlers [.keydown (plainPress "g"), .wait 400] []).left
      (plainPress "c") _ rfl with ⟨s, hs, h⟩
    exact ⟨s, hs, h.led 400 rfl (by decide)⟩
  · exact (presses_answered alertsHandlers [.keydown (plainPress "g")] [.wait 2000]).right
      _ rfl _ (List.mem_singleton.mpr rfl)

end Web
end LodelineManager
