import LodelineManager.Foundation.Runs
import LodelineManager.Web.SlideOver

/-!
# Selecting an alert

The loaded rows are told apart by host and event id, but a selection travels
through the URL as the event id alone and is resolved again against the loaded
rows.  The module follows a selection through the page: what the slide-over shows
afterwards, and what its forms send.
-/

namespace LodelineManager
namespace Web

open Foundation Triage

/-- The page with its part of the URL and of the query cache, in a browser with some
sort; {lit}`byID` holds the lookups of events outside the loaded pages. -/
structure AlertsPage where
  engine : ArraySort EventWithTriage
  pages : List EventsPage
  filter : AlertFilter
  sort : SortMode
  alert : Option String
  byID : String -> Option EventWithTriage
  details : String × String -> DetailQuery
  cheatsheetOpen : Bool

inductive Shortcut where
  | j
  | arrowDown
  | k
  | arrowUp
  | enter
  | escape
  | question
  deriving DecidableEq

inductive Label where
  | click (ev : EventWithTriage)
  | press (key : Shortcut)
  | close
  | sortChange (mode : SortMode)
  | filterChange (f : AlertFilter) (pages : List EventsPage)
  | loaded (pages : List EventsPage)
  | eventAnswered (id : String) (ev : EventWithTriage)
  | detailAnswered (key : String × String) (q : DetailQuery)
  | act (a : Action)

/-- {lit}`validateSearch` drops an empty id. -/
def validAlert (id : String) : Option String := if id = "" then none else some id

/-- The event that the details of an id show; {lit}`hostID` is the host a page insists on,
and the Alerts page gives none. -/
def eventDetails (eventID : Option String) (rows : List EventWithTriage)
    (hostID : Option String) (answer : String -> Option EventWithTriage) :
    Option EventWithTriage :=
  match eventID with
  | none => none
  | some id =>
      if id = "" then none
      else
        let event :=
          match rows.find? (fun row => decide (row.eventID = id)) with
          | some loaded => some loaded
          | none => answer id
        event.filter (fun ev =>
          decide (hostID.getD "" = "") || decide (hostID = some ev.hostID))

namespace AlertsPage

variable (toLowerCase : String -> String) (s : AlertsPage)

def rows : List EventWithTriage :=
  applyClientFilter toLowerCase (pagedRows s.pages) s.filter

def visibleRows : List EventWithTriage := sortRows s.engine (s.rows toLowerCase) s.sort

def cursorIndex : Int :=
  match (s.visibleRows toLowerCase).findIdx? (fun ev => decide (some ev.eventID = s.alert)) with
  | none => -1
  | some i => i

/-- The row that {lit}`moveCursor` selects. -/
def moveCursor (delta : Int) : Option EventWithTriage :=
  let visible := s.visibleRows toLowerCase
  let cursor := s.cursorIndex toLowerCase
  if visible.length = 0 then none
  else
    let next : Int :=
      if cursor < 0 then (if delta > 0 then 0 else visible.length - 1)
      else min (max 0 (cursor + delta)) (visible.length - 1)
    visible[next.toNat]?

def target : Shortcut -> Option EventWithTriage
  | .j | .arrowDown => s.moveCursor toLowerCase 1
  | .k | .arrowUp => s.moveCursor toLowerCase (-1)
  | .enter => if s.cursorIndex toLowerCase < 0 then (s.visibleRows toLowerCase)[0]? else none
  | .escape | .question => none

def selects : Label -> Option EventWithTriage
  | .click ev => if ev ∈ s.visibleRows toLowerCase then some ev else none
  | .press key => s.target toLowerCase key
  | _ => none

/-- {lit}`setSearch` with the id of the row. -/
def select (ev : EventWithTriage) : AlertsPage := { s with alert := validAlert ev.eventID }

def pressOther : Shortcut -> AlertsPage
  | .escape =>
      if s.cheatsheetOpen then { s with cheatsheetOpen := false } else { s with alert := none }
  | .question => { s with cheatsheetOpen := true }
  | _ => s

def shown : Option EventWithTriage :=
  eventDetails s.alert (s.rows toLowerCase) none s.byID

def payloads (a : Action) : List Payload :=
  match s.shown toLowerCase with
  | none => []
  | some ev => a.payloads ev (useTriageDetailOrNull (s.details ev.key))

/-- A filter is part of the query key: the pages are those of the new key, and none while
it is pending. -/
def step : Label -> Option AlertsPage
  | .click ev => if ev ∈ s.visibleRows toLowerCase then some (s.select ev) else none
  | .press key =>
      match s.target toLowerCase key with
      | some ev => some (s.select ev)
      | none => some (s.pressOther key)
  | .close => some { s with alert := none }
  | .sortChange mode => some { s with sort := mode }
  | .filterChange f pages => some { s with filter := f, pages := pages }
  | .loaded pages => some { s with pages := pages }
  | .eventAnswered id ev => some { s with byID := Function.update s.byID id (some ev) }
  | .detailAnswered key q => some { s with details := Function.update s.details key q }
  | .act _ => if (s.shown toLowerCase).isSome then some s else none

end AlertsPage

/-!
## Selected rows
-/

variable {toLowerCase : String -> String} {s s' : AlertsPage} {l : Label} {row : EventWithTriage}

theorem mem_visibleRows {ev : EventWithTriage} :
    ev ∈ s.visibleRows toLowerCase <-> ev ∈ s.rows toLowerCase :=
  mem_sortRows

theorem target_mem {key : Shortcut} (h : s.target toLowerCase key = some row) :
    row ∈ s.rows toLowerCase := by
  have hmove : forall delta, s.moveCursor toLowerCase delta = some row ->
      row ∈ s.visibleRows toLowerCase := by
    intro delta hd
    unfold AlertsPage.moveCursor at hd
    simp only at hd
    split at hd
    · cases hd
    · exact List.mem_of_getElem? hd
  apply mem_visibleRows.mp
  cases key with
  | j => exact hmove 1 h
  | arrowDown => exact hmove 1 h
  | k => exact hmove (-1) h
  | arrowUp => exact hmove (-1) h
  | enter =>
      unfold AlertsPage.target at h
      simp only at h
      split at h
      · exact List.mem_of_getElem? h
      · cases h
  | escape => cases h
  | question => cases h

theorem step_click (h : row ∈ s.visibleRows toLowerCase) :
    s.step toLowerCase (.click row) = some (s.select row) := by
  unfold AlertsPage.step
  exact if_pos h

theorem step_of_selects (hsel : s.selects toLowerCase l = some row)
    (hstep : s.step toLowerCase l = some s') :
    s' = s.select row ∧ row ∈ s.rows toLowerCase := by
  cases l with
  | click ev =>
      unfold AlertsPage.selects at hsel
      unfold AlertsPage.step at hstep
      simp only at hsel hstep
      split at hsel
      · rename_i hmem
        cases hsel
        rw [if_pos hmem] at hstep
        cases hstep
        exact ⟨rfl, mem_visibleRows.mp hmem⟩
      · cases hsel
  | press key =>
      have htarget : s.target toLowerCase key = some row := hsel
      simp only [AlertsPage.step, htarget] at hstep
      cases hstep
      exact ⟨rfl, target_mem htarget⟩
  | _ => cases hsel

theorem eventDetails_none (rows : List EventWithTriage) (hostID : Option String)
    (answer : String -> Option EventWithTriage) :
    eventDetails none rows hostID answer = none := rfl

theorem eventDetails_some {id : String} (hid : id ≠ "") (rows : List EventWithTriage)
    (answer : String -> Option EventWithTriage) :
    eventDetails (some id) rows none answer =
      (rows.find? (fun ev => decide (ev.eventID = id))).or (answer id) := by
  have hany : forall event : Option EventWithTriage,
      event.filter (fun ev => decide ((none : Option String).getD "" = "") ||
        decide (none = some ev.hostID)) = event := by
    intro event
    cases event <;> rfl
  unfold eventDetails
  simp only [if_neg hid, hany]
  cases rows.find? (fun ev => decide (ev.eventID = id)) <;> rfl

theorem shown_select_iff (hmem : row ∈ s.rows toLowerCase) :
    (s.select row).shown toLowerCase = some row <->
      row.eventID ≠ "" ∧ FirstWith EventWithTriage.eventID (s.rows toLowerCase) row := by
  show eventDetails (validAlert row.eventID) (s.rows toLowerCase) none s.byID = some row <-> _
  unfold validAlert
  by_cases hid : row.eventID = ""
  · rw [if_pos hid, eventDetails_none]
    constructor
    · intro h
      cases h
    · intro h
      exact absurd hid h.left
  · rw [if_neg hid, eventDetails_some hid, ← find?_eq_some_iff_firstWith]
    rcases find?_isSome_of_mem EventWithTriage.eventID hmem with ⟨ev, hfind, _, _⟩
    rw [hfind, Option.some_or]
    exact ⟨fun h => ⟨hid, h⟩, fun h => h.right⟩

/-!
## What follows a selection
-/

/-- The slide-over shows the row, and all that its forms send is about it. -/
structure AlertsPage.Follows (toLowerCase : String -> String) (s : AlertsPage)
    (row : EventWithTriage) : Prop where
  shown : s.shown toLowerCase = some row
  sent : forall a p, p ∈ s.payloads toLowerCase a -> p.About row

/-- Whatever the slide-over shows and sends is the same event of the same host. -/
structure AlertsPage.NoOther (toLowerCase : String -> String) (s : AlertsPage)
    (row : EventWithTriage) : Prop where
  shown : forall ev, s.shown toLowerCase = some ev ->
    ev.key = row.key ∧ ev.evidence = row.evidence
  sent : forall a p, p ∈ s.payloads toLowerCase a -> p.About row

theorem AlertsPage.NoOther.of_shown
    (h : forall ev, s.shown toLowerCase = some ev ->
      ev.key = row.key ∧ ev.evidence = row.evidence) :
    s.NoOther toLowerCase row where
  shown := h
  sent := by
    intro a p hp
    unfold AlertsPage.payloads at hp
    cases hshown : s.shown toLowerCase with
    | none =>
        rw [hshown] at hp
        cases hp
    | some ev =>
        rw [hshown] at hp
        have hsame := h ev hshown
        exact (payloads_about hp).congr hsame.left hsame.right

theorem AlertsPage.Follows.of_shown (h : s.shown toLowerCase = some row) :
    s.Follows toLowerCase row where
  shown := h
  sent := by
    have hno : s.NoOther toLowerCase row := by
      apply AlertsPage.NoOther.of_shown
      intro ev hev
      rw [h] at hev
      cases hev
      exact ⟨rfl, rfl⟩
    exact hno.sent

def Label.steady : Label -> Bool
  | .sortChange _ | .eventAnswered _ _ | .detailAnswered _ _ | .act _ => true
  | .press .question => true
  | _ => false

theorem step_steady (hsteady : l.steady = true) (hstep : s.step toLowerCase l = some s') :
    s'.alert = s.alert ∧ s'.rows toLowerCase = s.rows toLowerCase := by
  cases l with
  | sortChange mode =>
      cases hstep
      exact ⟨rfl, rfl⟩
  | eventAnswered id ev =>
      cases hstep
      exact ⟨rfl, rfl⟩
  | detailAnswered key q =>
      cases hstep
      exact ⟨rfl, rfl⟩
  | act a =>
      unfold AlertsPage.step at hstep
      simp only at hstep
      split at hstep
      · cases hstep
        exact ⟨rfl, rfl⟩
      · cases hstep
  | press key =>
      cases key with
      | question =>
          cases hstep
          exact ⟨rfl, rfl⟩
      | _ => cases hsteady
  | _ => cases hsteady

theorem run_steady {labels : List Label} (hsteady : forall m, m ∈ labels -> m.steady = true)
    (hrun : runSteps (AlertsPage.step toLowerCase) s labels = some s') :
    s'.alert = s.alert ∧ s'.rows toLowerCase = s.rows toLowerCase := by
  have hstep : forall (t : AlertsPage) (m : Label) (t' : AlertsPage), m.steady = true ->
      t.alert = s.alert ∧ t.rows toLowerCase = s.rows toLowerCase ->
      t.step toLowerCase m = some t' ->
      t'.alert = s.alert ∧ t'.rows toLowerCase = s.rows toLowerCase := by
    intro t m t' hm ht hafter
    rcases step_steady hm hafter with ⟨halert, hrows⟩
    exact ⟨halert.trans ht.left, hrows.trans ht.right⟩
  exact run_invariant_on hstep hsteady ⟨rfl, rfl⟩ hrun

theorem shown_of_run_steady {labels : List Label}
    (hfirst : FirstWith EventWithTriage.eventID (s.rows toLowerCase) row)
    (hid : row.eventID ≠ "") (hsteady : forall m, m ∈ labels -> m.steady = true)
    (hrun : runSteps (AlertsPage.step toLowerCase) (s.select row) labels = some s') :
    s'.shown toLowerCase = some row := by
  have hsame := run_steady hsteady hrun
  have halert : s'.alert = some row.eventID := by
    rw [hsame.left]
    exact if_neg hid
  have hrows : s'.rows toLowerCase = s.rows toLowerCase := hsame.right
  unfold AlertsPage.shown
  rw [halert, hrows, eventDetails_some hid, find?_eq_some_iff_firstWith.mpr hfirst]
  rfl

/-!
## New pages under a selection
-/

/-- An event that the id of the row may stand for without harm. -/
def SameUnder (row ev : EventWithTriage) : Prop :=
  ev.eventID = row.eventID -> ev.key = row.key ∧ ev.evidence = row.evidence

/-- Whatever the browser has loaded under the id of the row is that event. -/
structure AlertsPage.Unmixed (s : AlertsPage) (row : EventWithTriage) : Prop where
  pages : forall ev, ev ∈ s.pages.flatMap selectEvents -> SameUnder row ev
  byID : forall ev, s.byID row.eventID = some ev -> ev.key = row.key ∧ ev.evidence = row.evidence

/-- A step that brings nothing else under the id, and neither selects nor closes. -/
def Label.Unmixed (row : EventWithTriage) : Label -> Prop
  | .click _ | .press _ | .close => False
  | .filterChange _ pages | .loaded pages =>
      forall ev, ev ∈ pages.flatMap selectEvents -> SameUnder row ev
  | .eventAnswered id ev => id = row.eventID -> ev.key = row.key ∧ ev.evidence = row.evidence
  | _ => True

theorem step_unmixed (hl : l.Unmixed row) (hs : s.Unmixed row)
    (hstep : s.step toLowerCase l = some s') : s'.Unmixed row ∧ s'.alert = s.alert := by
  cases l with
  | click ev => exact absurd hl id
  | press key => exact absurd hl id
  | close => exact absurd hl id
  | sortChange mode =>
      cases hstep
      exact ⟨⟨hs.pages, hs.byID⟩, rfl⟩
  | filterChange f pages =>
      cases hstep
      exact ⟨⟨hl, hs.byID⟩, rfl⟩
  | loaded pages =>
      cases hstep
      exact ⟨⟨hl, hs.byID⟩, rfl⟩
  | eventAnswered id ev =>
      cases hstep
      refine ⟨⟨hs.pages, ?_⟩, rfl⟩
      intro ev' hev'
      by_cases hid : row.eventID = id
      · have heq : (some ev : Option EventWithTriage) = some ev' := by
          rw [← hev', hid]
          exact (Function.update_self id (some ev) s.byID).symm
        cases heq
        exact hl hid.symm
      · apply hs.byID
        rw [← hev']
        exact (Function.update_of_ne hid (some ev) s.byID).symm
  | detailAnswered key q =>
      cases hstep
      exact ⟨⟨hs.pages, hs.byID⟩, rfl⟩
  | act a =>
      unfold AlertsPage.step at hstep
      simp only at hstep
      split at hstep
      · cases hstep
        exact ⟨hs, rfl⟩
      · cases hstep

theorem run_unmixed {labels : List Label} (hl : forall m, m ∈ labels -> m.Unmixed row)
    (hs : s.Unmixed row) (hrun : runSteps (AlertsPage.step toLowerCase) s labels = some s') :
    s'.Unmixed row ∧ s'.alert = s.alert := by
  have hstep : forall (t : AlertsPage) (m : Label) (t' : AlertsPage), m.Unmixed row ->
      t.Unmixed row ∧ t.alert = s.alert -> t.step toLowerCase m = some t' ->
      t'.Unmixed row ∧ t'.alert = s.alert := by
    intro t m t' hm ht hafter
    rcases step_unmixed hm ht.left hafter with ⟨hunmixed, halert⟩
    exact ⟨hunmixed, halert.trans ht.right⟩
  exact run_invariant_on hstep hl ⟨hs, rfl⟩ hrun

theorem noOther_of_unmixed (hs : s.Unmixed row) (halert : s.alert = validAlert row.eventID) :
    s.NoOther toLowerCase row := by
  apply AlertsPage.NoOther.of_shown
  intro ev hev
  unfold AlertsPage.shown at hev
  rw [halert] at hev
  unfold validAlert at hev
  split at hev
  · cases hev
  · rename_i hid
    rw [eventDetails_some hid] at hev
    cases hfind : (s.rows toLowerCase).find?
        (fun ev => decide (ev.eventID = row.eventID)) with
    | none =>
        rw [hfind, Option.none_or] at hev
        exact hs.byID ev hev
    | some found =>
        rw [hfind, Option.some_or] at hev
        cases hev
        have hmem : ev ∈ s.rows toLowerCase := List.mem_of_find?_eq_some hfind
        have hloaded : ev ∈ s.pages.flatMap selectEvents :=
          (keepFirst_sublist eventIdentity [] _).subset
            ((applyClientFilter_sublist toLowerCase _ s.filter).subset hmem)
        have hid : ev.eventID = row.eventID := by simpa using List.find?_some hfind
        exact hs.pages ev hloaded hid

/-- A selected row stays the one that is shown and written to, while selection and
list stay, exactly when it is the first loaded row with its id; and whatever is
loaded later, no other event takes its place as long as none has its id. -/
theorem selection_followed_iff (hsel : s.selects toLowerCase l = some row)
    (hstep : s.step toLowerCase l = some s') :
    ((forall labels t, (forall m, m ∈ labels -> m.steady = true) ->
        runSteps (AlertsPage.step toLowerCase) s' labels = some t ->
        t.Follows toLowerCase row) <->
      row.eventID ≠ "" ∧ FirstWith EventWithTriage.eventID (s.rows toLowerCase) row) ∧
    (s.Unmixed row -> forall labels t, (forall m, m ∈ labels -> m.Unmixed row) ->
      runSteps (AlertsPage.step toLowerCase) s' labels = some t ->
      t.NoOther toLowerCase row) := by
  rcases step_of_selects hsel hstep with ⟨hs', hmem⟩
  subst hs'
  constructor
  · constructor
    · intro hfollows
      have hnow := hfollows [] (s.select row) (fun m hm => by cases hm) rfl
      exact (shown_select_iff hmem).mp hnow.shown
    · intro hfirst labels t hsteady hrun
      exact AlertsPage.Follows.of_shown
        (shown_of_run_steady hfirst.right hfirst.left hsteady hrun)
  · intro hunmixed labels t hlabels hrun
    have hselected : (s.select row).Unmixed row := ⟨hunmixed.pages, hunmixed.byID⟩
    have hend := run_unmixed hlabels hselected hrun
    exact noOther_of_unmixed hend.left hend.right

def twinRow (hostID : String) (json : RawMessage) : EventWithTriage :=
  { eventID := "e1", ts := "", hostID := hostID, severity := "warn",
    evidence := ⟨none, none, some json⟩, triage := none }

def twinPage : AlertsPage :=
  { engine := ArraySort.insertion
    pages := [⟨some [twinRow "h1" [123, 125], twinRow "h2" [91, 93]], none⟩]
    filter := ⟨[], ""⟩, sort := .severityDesc, alert := none, byID := fun _ => none
    details := fun _ => DetailQuery.loading, cheatsheetOpen := false }

/-- The first of the two rows stays selected. -/
theorem selection_followed_twinRow :
    twinPage.step id (.click (twinRow "h1" [123, 125])) =
        some (twinPage.select (twinRow "h1" [123, 125])) ∧
    forall labels t, (forall m, m ∈ labels -> m.steady = true) ->
      runSteps (AlertsPage.step id) (twinPage.select (twinRow "h1" [123, 125])) labels = some t ->
      t.Follows id (twinRow "h1" [123, 125]) := by
  have hsel : twinPage.selects id (.click (twinRow "h1" [123, 125])) =
      some (twinRow "h1" [123, 125]) := by decide
  have hmem : twinRow "h1" [123, 125] ∈ twinPage.visibleRows id := by decide
  have hrows : twinPage.rows id = [twinRow "h1" [123, 125], twinRow "h2" [91, 93]] := by decide
  have hfirst : FirstWith EventWithTriage.eventID (twinPage.rows id)
      (twinRow "h1" [123, 125]) := by
    refine ⟨[], [twinRow "h2" [91, 93]], hrows, ?_⟩
    intro y hy
    cases hy
  constructor
  · exact step_click hmem
  · exact (selection_followed_iff hsel (step_click hmem)).left.mpr ⟨by decide, hfirst⟩

/-- Clicking the second row, or reaching it with a key, shows the first; resolving what is
shown then resolves the event of the other host and hands over its evidence. -/
theorem twinRow_not_followed :
    ((twinPage.rows id).map EventWithTriage.key).Nodup ∧
    twinPage.selects id (.click (twinRow "h2" [91, 93])) = some (twinRow "h2" [91, 93]) ∧
    twinPage.selects id (.press .k) = some (twinRow "h2" [91, 93]) ∧
    exists after, twinPage.step id (.click (twinRow "h2" [91, 93])) = some after ∧
      twinPage.step id (.press .k) = some after ∧
      after.shown id = some (twinRow "h1" [123, 125]) ∧
      after.payloads id (.setStatus statusResolved) =
        [.upsert { hostID := "h1", eventID := "e1", status := some statusResolved,
                   assignee := none, clearAssignee := none,
                   evidenceSnapshot := some [123, 125] }] ∧
      ¬ after.Follows id (twinRow "h2" [91, 93]) := by
  have hshown : (twinPage.select (twinRow "h2" [91, 93])).shown id =
      some (twinRow "h1" [123, 125]) := by decide
  refine ⟨by decide, by decide, by decide, twinPage.select (twinRow "h2" [91, 93]), ?_, ?_,
    hshown, by decide, ?_⟩
  · exact step_click (by decide)
  · have htarget : twinPage.target id .k = some (twinRow "h2" [91, 93]) := by decide
    simp only [AlertsPage.step, htarget]
  · intro hfollows
    have hother := hfollows.shown
    rw [hshown] at hother
    exact absurd hother (by decide)

end Web
end LodelineManager
