import LodelineManager.Foundation.KeyCursor
import LodelineManager.Web.Alerts

/-!
# Moving the cursor with the keys

The page keeps no cursor.  After every press of {lit}`j` or {lit}`k` it looks for the event id
of the URL in the sorted rows, and moves from the first row that has it.
-/

namespace LodelineManager
namespace Web

open Foundation KeyCursor

/-- {lit}`n` presses of a key. -/
def presses (key : Shortcut) (n : Nat) : List Label := List.replicate n (.press key)

/-- After the labels the cursor is on the row at a place of the displayed list. -/
def AlertsPage.CursorAt (toLowerCase : String -> String) (s : AlertsPage) (labels : List Label)
    (i : Nat) : Prop :=
  exists t, runSteps (AlertsPage.step toLowerCase) s labels = some t ∧
    t.visibleRows toLowerCase = s.visibleRows toLowerCase ∧ t.cursorIndex toLowerCase = i

/-- As many presses of {lit}`j` as there are rows visit them in turn and end on the last, where
further presses stay; presses of {lit}`k` then return in reverse order. -/
structure AlertsPage.KeysVisit (toLowerCase : String -> String) (s : AlertsPage) : Prop where
  down : forall i, i < (s.visibleRows toLowerCase).length ->
    s.CursorAt toLowerCase (presses .j (i + 1)) i
  stay : forall m, s.CursorAt toLowerCase
    (presses .j ((s.visibleRows toLowerCase).length + m))
    ((s.visibleRows toLowerCase).length - 1)
  up : forall m i, i < (s.visibleRows toLowerCase).length -> s.CursorAt toLowerCase
    (presses .j ((s.visibleRows toLowerCase).length + m) ++ presses .k i)
    ((s.visibleRows toLowerCase).length - 1 - i)

/-!
## The cursor of the page
-/

def AlertsPage.ids (toLowerCase : String -> String) (s : AlertsPage) : List String :=
  (s.visibleRows toLowerCase).map EventWithTriage.eventID

def AlertsPage.withAlert (s : AlertsPage) (alert : Option String) : AlertsPage :=
  { s with alert := alert }

def keyOf : Direction -> Shortcut
  | .forward => .j
  | .back => .k

def deltaOf : Direction -> Int
  | .forward => 1
  | .back => -1

section

variable {toLowerCase : String -> String} {s : AlertsPage} {d : Direction}

theorem validAlert_cases (id : String) : validAlert id = none ∨ validAlert id = some id := by
  unfold validAlert
  split
  · exact Or.inl rfl
  · exact Or.inr rfl

theorem validAlert_eq_some_iff (id : String) : validAlert id = some id <-> id ≠ "" := by
  unfold validAlert
  split
  · rename_i hempty
    exact ⟨fun h => absurd h.symm (Option.some_ne_none id), fun h => absurd hempty h⟩
  · rename_i hne
    exact ⟨fun _ => hne, fun _ => rfl⟩

theorem ids_length :
    (s.ids toLowerCase).length = (s.visibleRows toLowerCase).length := List.length_map _

theorem cursorIndex_eq : s.cursorIndex toLowerCase =
    match index (s.ids toLowerCase) s.alert with
    | none => -1
    | some i => (i : Int) := by
  unfold AlertsPage.cursorIndex index AlertsPage.ids
  rw [List.findIdx?_map]
  rfl

theorem cursorIndex_eq_iff {i : Nat} : s.cursorIndex toLowerCase = i <->
    index (s.ids toLowerCase) s.alert = some i := by
  rw [cursorIndex_eq]
  cases index (s.ids toLowerCase) s.alert with
  | none =>
      constructor
      · intro h
        cases h
      · intro h
        cases h
  | some j => exact ⟨fun h => congrArg some (Int.ofNat.inj h), fun h => by rw [Option.some.inj h]⟩

theorem moveCursor_eq (hne : s.visibleRows toLowerCase ≠ []) :
    s.moveCursor toLowerCase (deltaOf d) =
      (s.visibleRows toLowerCase)[next (s.ids toLowerCase).length d
        (index (s.ids toLowerCase) s.alert)]? := by
  have hlen : (s.visibleRows toLowerCase).length ≠ 0 := by
    intro hzero
    exact hne (List.length_eq_zero_iff.mp hzero)
  unfold AlertsPage.moveCursor
  simp only [if_neg hlen, ids_length, cursorIndex_eq]
  congr 1
  cases hindex : index (s.ids toLowerCase) s.alert with
  | none =>
      cases d with
      | forward => rfl
      | back =>
          simp only [deltaOf, next]
          omega
  | some i =>
      have hlt := index_lt hindex
      rw [ids_length] at hlt
      cases d with
      | forward =>
          simp only [deltaOf, next]
          omega
      | back =>
          simp only [deltaOf, next]
          omega

theorem step_press (hne : s.visibleRows toLowerCase ≠ []) :
    s.step toLowerCase (.press (keyOf d)) =
      some (s.withAlert (move (s.ids toLowerCase) validAlert d s.alert)) := by
  have hids : s.ids toLowerCase ≠ [] := fun hnil => hne (List.map_eq_nil_iff.mp hnil)
  have hlt : next (s.ids toLowerCase).length d (index (s.ids toLowerCase) s.alert) <
      (s.visibleRows toLowerCase).length :=
    Nat.lt_of_lt_of_eq (next_lt hids) ids_length
  have htarget : s.target toLowerCase (keyOf d) = s.moveCursor toLowerCase (deltaOf d) := by
    cases d <;> rfl
  rw [moveCursor_eq hne, List.getElem?_eq_getElem hlt] at htarget
  simp only [AlertsPage.step, htarget]
  congr 1
  unfold AlertsPage.select AlertsPage.withAlert move
  unfold AlertsPage.ids at hlt ⊢
  rw [List.getElem?_map, List.getElem?_eq_getElem hlt]
  rfl

theorem run_presses (hne : s.visibleRows toLowerCase ≠ []) (n : Nat) (cursor : Option String) :
    runSteps (AlertsPage.step toLowerCase) (s.withAlert cursor) (presses (keyOf d) n) =
      some (s.withAlert ((move (s.ids toLowerCase) validAlert d)^[n] cursor)) := by
  induction n generalizing cursor with
  | zero => rfl
  | succ n ih =>
      have hstep : (s.withAlert cursor).step toLowerCase (.press (keyOf d)) =
          some (s.withAlert (move (s.ids toLowerCase) validAlert d cursor)) :=
        step_press (s := s.withAlert cursor) hne
      have hlabels : presses (keyOf d) (n + 1) = .press (keyOf d) :: presses (keyOf d) n := rfl
      rw [hlabels, runSteps_cons_of_step hstep]
      exact ih _

theorem cursorAt_iff (hnone : s.alert = none) (hne : s.visibleRows toLowerCase ≠ [])
    (forward back i : Nat) :
    s.CursorAt toLowerCase (presses .j forward ++ presses .k back) i <->
      index (s.ids toLowerCase) (moves (s.ids toLowerCase) validAlert forward back) = some i := by
  have hstart : s = s.withAlert none := by
    rw [← hnone]
    rfl
  have hforward : runSteps (AlertsPage.step toLowerCase) s (presses .j forward) =
      some (s.withAlert (moves (s.ids toLowerCase) validAlert forward 0)) := by
    have h := run_presses (d := .forward) hne forward none
    rw [← hstart] at h
    exact h
  have hrun : runSteps (AlertsPage.step toLowerCase) s (presses .j forward ++ presses .k back) =
      some (s.withAlert (moves (s.ids toLowerCase) validAlert forward back)) := by
    rw [runSteps_append, hforward]
    exact run_presses (d := .back) hne back _
  constructor
  · intro h
    rcases h with ⟨t, ht, _, hi⟩
    cases hrun.symm.trans ht
    exact cursorIndex_eq_iff.mp hi
  · intro h
    exact ⟨_, hrun, rfl, cursorIndex_eq_iff.mpr h⟩

theorem keysVisit_iff (hnone : s.alert = none) (hne : s.visibleRows toLowerCase ≠ []) :
    s.KeysVisit toLowerCase <-> Visits (s.ids toLowerCase) validAlert := by
  have hno : forall n, presses .j n = presses .j n ++ presses .k 0 :=
    fun n => (List.append_nil _).symm
  constructor
  · intro h
    refine ⟨?_, ?_, ?_⟩
    · intro i hi
      rw [ids_length] at hi
      apply (cursorAt_iff hnone hne (i + 1) 0 i).mp
      rw [← hno]
      exact h.down i hi
    · intro m
      rw [ids_length]
      apply (cursorAt_iff hnone hne _ 0 _).mp
      rw [← hno]
      exact h.stay m
    · intro m i hi
      rw [ids_length] at hi ⊢
      exact (cursorAt_iff hnone hne _ i _).mp (h.up m i hi)
  · intro h
    have hlen : (s.ids toLowerCase).length = (s.visibleRows toLowerCase).length := ids_length
    refine ⟨?_, ?_, ?_⟩
    · intro i hi
      rw [hno]
      apply (cursorAt_iff hnone hne (i + 1) 0 i).mpr
      exact h.forward i (hlen.symm ▸ hi)
    · intro m
      rw [hno, ← hlen]
      exact (cursorAt_iff hnone hne _ 0 _).mpr (h.stay m)
    · intro m i hi
      rw [← hlen] at hi ⊢
      exact (cursorAt_iff hnone hne _ i _).mpr (h.back m i hi)

end

/-- From no selection the keys visit the rows of a list that is not empty in turn, and back,
exactly when the event ids of its rows are distinct and none of them is empty. -/
theorem keys_visit_iff (toLowerCase : String -> String) {s : AlertsPage}
    (hnone : s.alert = none) (hne : s.visibleRows toLowerCase ≠ []) :
    s.KeysVisit toLowerCase <->
      ((s.visibleRows toLowerCase).map EventWithTriage.eventID).Nodup ∧
        forall ev, ev ∈ s.visibleRows toLowerCase -> ev.eventID ≠ "" := by
  have hids : s.ids toLowerCase ≠ [] := fun hnil => hne (List.map_eq_nil_iff.mp hnil)
  rw [keysVisit_iff hnone hne, visits_iff hids validAlert_cases]
  apply and_congr Iff.rfl
  unfold AlertsPage.ids
  rw [List.forall_mem_map]
  apply forall_congr'
  intro ev
  rw [validAlert_eq_some_iff]

/-!
## Twins
-/

def queued (hostID eventID : String) : EventWithTriage :=
  { eventID := eventID, ts := "", hostID := hostID, severity := "warn",
    evidence := ⟨none, none, none⟩, triage := none }

def queueOf (rows : List EventWithTriage) : AlertsPage :=
  { engine := ArraySort.insertion, pages := [⟨some rows, none⟩], filter := ⟨[], ""⟩
    sort := .severityDesc, alert := none
    byID := fun _ => none, details := fun _ => DetailQuery.loading, cheatsheetOpen := false }

theorem keys_visit_three :
    (queueOf [queued "h1" "e1", queued "h2" "e2", queued "h1" "e3"]).KeysVisit id := by
  apply (keys_visit_iff id rfl _).mpr
  · decide +kernel
  · decide +kernel

def twins : AlertsPage := queueOf [queued "h1" "e1", queued "h2" "e1", queued "h1" "e2"]

/-- Three presses of {lit}`j` leave the cursor on the first of three rows. -/
theorem keys_stop_at_twins :
    (twins.visibleRows id).map EventWithTriage.key =
        [("h1", "e1"), ("h2", "e1"), ("h1", "e2")] ∧
      twins.alert = none ∧
      (runSteps (AlertsPage.step id) twins (presses .j 3)).map (AlertsPage.cursorIndex id) =
        some 0 ∧
      ¬ twins.KeysVisit id := by
  have hstuck : (runSteps (AlertsPage.step id) twins (presses .j 3)).map
      (AlertsPage.cursorIndex id) = some 0 := by
    decide +kernel
  refine ⟨by decide +kernel, rfl, hstuck, ?_⟩
  intro h
  rcases h.down 2 (by decide +kernel) with ⟨t, ht, _, hi⟩
  rw [ht, Option.map_some, hi] at hstuck
  cases hstuck

end Web
end LodelineManager
