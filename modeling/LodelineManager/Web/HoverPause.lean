import LodelineManager.Web.Alerts

/-!
# The hover pause

The queue stops polling while the pointer is over a row.  {lit}`useAlerts` counts the rows
that the pointer has entered and not left; a row that goes away under the pointer is
never left.
-/

namespace LodelineManager
namespace Web

open Foundation

/-!
## The counter of useAlerts
-/

structure HoverPause where
  paused : Bool
  hoverDepth : Nat
  deriving DecidableEq

namespace HoverPause

def onRowHoverEnter (h : HoverPause) : HoverPause :=
  { paused := true, hoverDepth := h.hoverDepth + 1 }

/-- {lit}`Math.max(0, hoverDepth.current - 1)`. -/
def onRowHoverLeave (h : HoverPause) : HoverPause :=
  { paused := if h.hoverDepth - 1 = 0 then false else h.paused, hoverDepth := h.hoverDepth - 1 }

end HoverPause

/-- The page, the key of the row that the browser has last found under the pointer, and the
counter. -/
structure HoverTab where
  page : AlertsPage
  pointer : Option String
  hover : HoverPause

/-- What moves the pointer, and the steps of the page, which change the rows. -/
inductive HoverLabel where
  | page (l : Label)
  | enter (key : String)
  | leave
  | cross (key : String)
  | elsewhere

namespace HoverTab

variable (toLowerCase : String -> String)

def start (page : AlertsPage) : HoverTab :=
  { page := page, pointer := none, hover := ⟨false, 0⟩ }

def mounted (s : HoverTab) : List String :=
  (s.page.visibleRows toLowerCase).map eventIdentity

def render (s : HoverTab) (page : AlertsPage) : HoverTab :=
  let next : HoverTab := { s with page := page }
  { next with pointer := s.pointer.filter (fun key => decide (key ∈ next.mounted toLowerCase)) }

/-- To cross from a row to another is to leave the one and to enter the other. -/
def step (s : HoverTab) : HoverLabel -> Option HoverTab
  | .page l => (s.page.step toLowerCase l).map (s.render toLowerCase)
  | .enter key =>
      if s.pointer = none ∧ key ∈ s.mounted toLowerCase then
        some { s with pointer := some key, hover := s.hover.onRowHoverEnter }
      else none
  | .leave =>
      if s.pointer.isSome then
        some { s with pointer := none, hover := s.hover.onRowHoverLeave }
      else none
  | .cross key =>
      if s.pointer.isSome ∧ s.pointer ≠ some key ∧ key ∈ s.mounted toLowerCase then
        some { s with
          pointer := some key, hover := s.hover.onRowHoverLeave.onRowHoverEnter }
      else none
  | .elsewhere => if s.pointer = none then some s else none

/-- The pointer is over a row that is mounted. -/
def Hovered (s : HoverTab) : Prop :=
  exists key, s.pointer = some key ∧ key ∈ s.mounted toLowerCase

def PausedIffHovered (s : HoverTab) : Prop :=
  s.hover.paused = true <-> s.Hovered toLowerCase

/-- The row under the pointer, if any, is still there. -/
def KeepsHovered (s s' : HoverTab) : Prop :=
  forall key, s.pointer = some key -> key ∈ s'.mounted toLowerCase

end HoverTab

/-!
## Entered and not left
-/

/-- The counter is the number of rows that went away under the pointer, and one more for
the row that is there. -/
structure HoverTab.Counts (toLowerCase : String -> String) (missed : Nat) (s : HoverTab) :
    Prop where
  depth : s.hover.hoverDepth = missed + s.pointer.toList.length
  paused : s.hover.paused = true <-> s.hover.hoverDepth ≠ 0
  pointer : forall key, s.pointer = some key -> key ∈ s.mounted toLowerCase

section

variable {toLowerCase : String -> String} {s s' : HoverTab} {l : HoverLabel} {missed : Nat}

theorem counts_start (page : AlertsPage) :
    (HoverTab.start page).Counts toLowerCase 0 where
  depth := rfl
  paused := by
    constructor
    · intro h
      cases h
    · intro h
      exact absurd rfl h
  pointer := by
    intro key hkey
    cases hkey

theorem HoverTab.Counts.hovered_iff (h : s.Counts toLowerCase missed) :
    s.Hovered toLowerCase <-> s.pointer ≠ none := by
  constructor
  · intro hover
    rcases hover with ⟨key, hkey, _⟩
    rw [hkey]
    exact Option.some_ne_none key
  · intro hne
    rcases Option.ne_none_iff_exists'.mp hne with ⟨key, hkey⟩
    exact ⟨key, hkey, h.pointer key hkey⟩

theorem HoverTab.Counts.pausedIffHovered (h : s.Counts toLowerCase 0) :
    s.PausedIffHovered toLowerCase := by
  unfold HoverTab.PausedIffHovered
  rw [h.hovered_iff, h.paused, h.depth]
  cases s.pointer with
  | none => exact ⟨fun hne => absurd rfl hne, fun hne => absurd rfl hne⟩
  | some key => exact ⟨fun _ => Option.some_ne_none key, fun _ => Nat.succ_ne_zero 0⟩

theorem HoverTab.Counts.paused_of_missed (h : s.Counts toLowerCase (missed + 1)) :
    s.hover.paused = true := by
  apply h.paused.mpr
  rw [h.depth, Nat.add_right_comm]
  exact Nat.succ_ne_zero _

theorem render_pointer (s : HoverTab) (page : AlertsPage) :
    (s.render toLowerCase page).pointer = s.pointer.filter
      (fun key => decide (key ∈ (s.render toLowerCase page).mounted toLowerCase)) := rfl

theorem mounted_of_render {page : AlertsPage} {key : String}
    (h : (s.render toLowerCase page).pointer = some key) :
    key ∈ (s.render toLowerCase page).mounted toLowerCase :=
  of_decide_eq_true (Option.filter_eq_some_iff.mp h).right

theorem HoverTab.Counts.rendered {page : AlertsPage} (h : s.Counts toLowerCase missed)
    (hkeeps : s.KeepsHovered toLowerCase (s.render toLowerCase page)) :
    (s.render toLowerCase page).Counts toLowerCase missed where
  depth := by
    have hsame : (s.render toLowerCase page).pointer = s.pointer := by
      rw [render_pointer]
      cases hpointer : s.pointer with
      | none => rfl
      | some key => rw [Option.filter_some, if_pos (decide_eq_true (hkeeps key hpointer))]
    rw [hsame]
    exact h.depth
  paused := h.paused
  pointer := fun _ hkey => mounted_of_render hkey

theorem HoverTab.Counts.missed_leave {page : AlertsPage} (h : s.Counts toLowerCase missed)
    (hgone : ¬ s.KeepsHovered toLowerCase (s.render toLowerCase page)) :
    (s.render toLowerCase page).Counts toLowerCase (missed + 1) ∧
      (s.render toLowerCase page).pointer = none := by
  unfold HoverTab.KeepsHovered at hgone
  push Not at hgone
  rcases hgone with ⟨key, hkey, hmissing⟩
  have hnone : (s.render toLowerCase page).pointer = none := by
    rw [render_pointer, hkey, Option.filter_some, decide_eq_false hmissing]
    rfl
  have hdepth := h.depth
  rw [hkey] at hdepth
  refine ⟨⟨?_, h.paused, fun _ hsome => mounted_of_render hsome⟩, hnone⟩
  rw [hnone]
  exact hdepth

theorem HoverTab.Counts.entered {key : String} (h : s.Counts toLowerCase missed)
    (hnone : s.pointer = none) (hkey : key ∈ s.mounted toLowerCase) :
    ({ s with pointer := some key, hover := s.hover.onRowHoverEnter } : HoverTab).Counts
      toLowerCase missed where
  depth := by
    have hdepth := h.depth
    rw [hnone] at hdepth
    exact congrArg Nat.succ hdepth
  paused := ⟨fun _ => Nat.succ_ne_zero _, fun _ => rfl⟩
  pointer := by
    intro key' hkey'
    cases hkey'
    exact hkey

theorem HoverTab.Counts.left {key : String} (h : s.Counts toLowerCase missed)
    (hkey : s.pointer = some key) :
    ({ s with pointer := none, hover := s.hover.onRowHoverLeave } : HoverTab).Counts
      toLowerCase missed where
  depth := by
    have hdepth := h.depth
    rw [hkey] at hdepth
    exact congrArg Nat.pred hdepth
  paused := by
    have hdepth := h.depth
    rw [hkey] at hdepth
    have hpaused : s.hover.paused = true := by
      apply h.paused.mpr
      rw [hdepth]
      exact Nat.succ_ne_zero _
    show (if s.hover.hoverDepth - 1 = 0 then false else s.hover.paused) = true <->
      s.hover.hoverDepth - 1 ≠ 0
    rw [hpaused]
    split
    · rename_i hzero
      exact ⟨fun hfalse => absurd hfalse Bool.false_ne_true, fun hne => absurd hzero hne⟩
    · rename_i hne
      exact ⟨fun _ => hne, fun _ => rfl⟩
  pointer := by
    intro key' hkey'
    cases hkey'

theorem counts_step (h : s.Counts toLowerCase missed) (hstep : s.step toLowerCase l = some s') :
    (s.KeepsHovered toLowerCase s' -> s'.Counts toLowerCase missed) ∧
    (¬ s.KeepsHovered toLowerCase s' ->
      s'.Counts toLowerCase (missed + 1) ∧ s'.pointer = none) := by
  have hmoved : s'.page = s.page -> s'.Counts toLowerCase missed ->
      (s.KeepsHovered toLowerCase s' -> s'.Counts toLowerCase missed) ∧
      (¬ s.KeepsHovered toLowerCase s' ->
        s'.Counts toLowerCase (missed + 1) ∧ s'.pointer = none) := by
    intro hpage hcounts
    constructor
    · intro _
      exact hcounts
    · intro hgone
      apply absurd _ hgone
      intro key hkey
      unfold HoverTab.mounted
      rw [hpage]
      exact h.pointer key hkey
  cases l with
  | page l =>
      rcases Option.map_eq_some_iff.mp hstep with ⟨page, _, hs'⟩
      rw [← hs']
      exact ⟨h.rendered, h.missed_leave⟩
  | enter key =>
      simp only [HoverTab.step] at hstep
      split at hstep
      · rename_i hcan
        cases hstep
        exact hmoved rfl (h.entered hcan.left hcan.right)
      · cases hstep
  | leave =>
      simp only [HoverTab.step] at hstep
      split at hstep
      · rename_i hcan
        cases hstep
        rcases Option.isSome_iff_exists.mp hcan with ⟨key, hkey⟩
        exact hmoved rfl (h.left hkey)
      · cases hstep
  | cross key =>
      simp only [HoverTab.step] at hstep
      split at hstep
      · rename_i hcan
        cases hstep
        rcases Option.isSome_iff_exists.mp hcan.left with ⟨old, hold⟩
        exact hmoved rfl ((h.left hold).entered rfl hcan.right.right)
      · cases hstep
  | elsewhere =>
      simp only [HoverTab.step] at hstep
      split at hstep
      · cases hstep
        exact hmoved rfl h
      · cases hstep

theorem HoverTab.Counts.not_pausedIffHovered (h : s.Counts toLowerCase missed)
    (hstep : s.step toLowerCase l = some s') (hgone : ¬ s.KeepsHovered toLowerCase s') :
    ¬ s'.PausedIffHovered toLowerCase := by
  rcases (counts_step h hstep).right hgone with ⟨hcounts, hnone⟩
  intro hright
  exact hcounts.hovered_iff.mp (hright.mp hcounts.paused_of_missed) hnone

theorem everyStep_pausedIffHovered_iff (h : s.Counts toLowerCase 0) (labels : List HoverLabel) :
    EveryStep (HoverTab.step toLowerCase) (fun _ _ after => after.PausedIffHovered toLowerCase) s
        labels <->
      EveryStep (HoverTab.step toLowerCase)
        (fun before _ after => before.KeepsHovered toLowerCase after) s labels := by
  have hiff : forall (t : HoverTab) (l : HoverLabel) (t' : HoverTab), t.Counts toLowerCase 0 ->
      t.step toLowerCase l = some t' ->
      (t'.PausedIffHovered toLowerCase <-> t.KeepsHovered toLowerCase t') := by
    intro t l t' ht hstep
    constructor
    · intro hright
      exact not_not.mp (fun hgone => ht.not_pausedIffHovered hstep hgone hright)
    · intro hkeeps
      exact ((counts_step ht hstep).left hkeeps).pausedIffHovered
  exact everyStep_congr hiff (fun _ _ _ ht hstep => (counts_step ht hstep).left) h labels

theorem counts_run {labels : List HoverLabel} (h : s.Counts toLowerCase missed)
    (hrun : runSteps (HoverTab.step toLowerCase) s labels = some s') :
    exists more, s'.Counts toLowerCase (missed + more) := by
  have hstep : forall (t : HoverTab) (l : HoverLabel) (t' : HoverTab),
      (exists more, t.Counts toLowerCase (missed + more)) ->
      t.step toLowerCase l = some t' -> exists more, t'.Counts toLowerCase (missed + more) := by
    intro t l t' ht hafter
    rcases ht with ⟨more, ht⟩
    rcases Classical.em (t.KeepsHovered toLowerCase t') with hkeeps | hgone
    · exact ⟨more, (counts_step ht hafter).left hkeeps⟩
    · exact ⟨more + 1, ((counts_step ht hafter).right hgone).left⟩
  exact run_invariant hstep ⟨0, h⟩ hrun

end

/-- In a run the queue is paused exactly while a row is hovered, in every state, if and only
if no step takes away the row under the pointer. -/
theorem paused_iff_hovered (toLowerCase : String -> String) (page : AlertsPage)
    (labels : List HoverLabel) :
    ((HoverTab.start page).PausedIffHovered toLowerCase ∧
      EveryStep (HoverTab.step toLowerCase)
        (fun _ _ after => after.PausedIffHovered toLowerCase) (HoverTab.start page) labels) <->
      EveryStep (HoverTab.step toLowerCase)
        (fun before _ after => before.KeepsHovered toLowerCase after) (HoverTab.start page)
        labels := by
  have hstart : (HoverTab.start page).Counts toLowerCase 0 := counts_start page
  rw [← everyStep_pausedIffHovered_iff hstart labels]
  exact ⟨fun h => h.right, fun h => ⟨hstart.pausedIffHovered, h⟩⟩

theorem pause_stays (toLowerCase : String -> String) (page : AlertsPage)
    {front back : List HoverLabel} {l : HoverLabel} {s t u : HoverTab}
    (hfront : runSteps (HoverTab.step toLowerCase) (HoverTab.start page) front = some s)
    (hstep : s.step toLowerCase l = some t) (hgone : ¬ s.KeepsHovered toLowerCase t)
    (hback : runSteps (HoverTab.step toLowerCase) t back = some u) : u.hover.paused = true := by
  rcases counts_run (counts_start page) hfront with ⟨missed, hs⟩
  rcases counts_run ((counts_step hs hstep).right hgone).left hback with ⟨more, hu⟩
  rw [Nat.add_right_comm] at hu
  exact hu.paused_of_missed

/-!
## A row that is filtered away
-/

def queueRow (hostID : String) : EventWithTriage :=
  { eventID := "e", ts := "", hostID := hostID, severity := "warn",
    evidence := ⟨none, none, none⟩, triage := none }

def twoHosts : AlertsPage :=
  { engine := ArraySort.insertion
    pages := [⟨some [queueRow "h1", queueRow "h2"], none⟩]
    filter := ⟨[], ""⟩, sort := .severityDesc, alert := none, byID := fun _ => none
    details := fun _ => DetailQuery.loading, cheatsheetOpen := false }

def filteredAway : List HoverLabel :=
  [.enter "h1:e", .page (.filterChange ⟨[], "h2"⟩ []), .page (.loaded twoHosts.pages),
    .enter "h2:e", .leave, .elsewhere]

/-- The queue is still paused, and no row is hovered. -/
theorem not_paused_iff_hovered :
    exists s, runSteps (HoverTab.step id) (HoverTab.start twoHosts) filteredAway = some s ∧
      s.hover.paused = true ∧ s.pointer = none ∧ ¬ s.PausedIffHovered id := by
  have hrun : exists s, runSteps (HoverTab.step id) (HoverTab.start twoHosts) filteredAway =
      some s ∧ s.hover.paused = true ∧ s.pointer = none := by
    refine ⟨_, rfl, ?_⟩
    decide +kernel
  rcases hrun with ⟨s, hs, hpaused, hnone⟩
  refine ⟨s, hs, hpaused, hnone, ?_⟩
  intro hright
  rcases hright.mp hpaused with ⟨key, hkey, _⟩
  rw [hnone] at hkey
  cases hkey

end Web
end LodelineManager
