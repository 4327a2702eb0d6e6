import Mathlib.Data.List.Nodup
import Mathlib.Logic.Function.Iterate

/-!
# Cursors kept as keys

A cursor over a list of keys that is kept as the key it is on.  Every move looks for the
key again, goes one place on or back, stops at both ends, and keeps what it can of the key
that it comes to.  The cursor visits the places in turn exactly when the keys can be kept
and told apart.
-/

namespace LodelineManager
namespace Foundation
namespace KeyCursor

universe u

variable {key : Type u} [DecidableEq key]

inductive Direction where
  | forward
  | back

def index (keys : List key) (cursor : Option key) : Option Nat :=
  keys.findIdx? (fun k => decide (some k = cursor))

/-- The place that a move goes to in a list of length {lit}`n`. -/
def next (n : Nat) : Direction -> Option Nat -> Nat
  | .forward, none => 0
  | .forward, some i => min (i + 1) (n - 1)
  | .back, none => n - 1
  | .back, some i => i - 1

def move (keys : List key) (keep : key -> Option key) (d : Direction) (cursor : Option key) :
    Option key :=
  (keys[next keys.length d (index keys cursor)]?).bind keep

def moves (keys : List key) (keep : key -> Option key) (forward back : Nat) : Option key :=
  (move keys keep .back)^[back] ((move keys keep .forward)^[forward] none)

/-- The moves forward visit the places in turn and end on the last; the moves back return
in reverse order. -/
structure Visits (keys : List key) (keep : key -> Option key) : Prop where
  forward : forall i, i < keys.length -> index keys (moves keys keep (i + 1) 0) = some i
  stay : forall m, index keys (moves keys keep (keys.length + m) 0) = some (keys.length - 1)
  back : forall m i, i < keys.length ->
    index keys (moves keys keep (keys.length + m) i) = some (keys.length - 1 - i)

variable {keys : List key} {keep : key -> Option key} {d : Direction} {cursor : Option key}
  {i : Nat}

/-- Every place is found again by what is kept of its key. -/
def Found (keys : List key) (keep : key -> Option key) : Prop :=
  forall i (h : i < keys.length), index keys (keep keys[i]) = some i

@[simp] theorem index_none : index keys none = none :=
  List.findIdx?_eq_none_iff.mpr (fun _ _ => rfl)

theorem index_some_iff {k : key} : index keys (some k) = some i <->
    exists h : i < keys.length, keys[i] = k ∧ forall j (hj : j < i), keys[j] ≠ k := by
  unfold index
  rw [List.findIdx?_eq_some_iff_getElem]
  simp only [decide_eq_true_eq, Option.some.injEq, ne_eq]

theorem index_lt (h : index keys cursor = some i) : i < keys.length :=
  (List.findIdx?_eq_some_iff_findIdx_eq.mp h).left

theorem next_lt (hne : keys ≠ []) : next keys.length d (index keys cursor) < keys.length := by
  have hpos : 0 < keys.length := List.length_pos_of_ne_nil hne
  have hlast : keys.length - 1 < keys.length := Nat.pred_lt (Nat.ne_of_gt hpos)
  cases hindex : index keys cursor with
  | none =>
      cases d with
      | forward => exact hpos
      | back => exact hlast
  | some i =>
      cases d with
      | forward => exact Nat.lt_of_le_of_lt (Nat.min_le_right _ _) hlast
      | back => exact Nat.lt_of_le_of_lt (Nat.sub_le i 1) (index_lt hindex)

theorem move_eq (h : i < keys.length) (hnext : next keys.length d (index keys cursor) = i) :
    move keys keep d cursor = keep keys[i] := by
  unfold move
  rw [hnext, List.getElem?_eq_getElem h]
  rfl

theorem moves_forward (m : Nat) :
    moves keys keep (m + 1) 0 = move keys keep .forward (moves keys keep m 0) :=
  Function.iterate_succ_apply' _ _ _

theorem moves_back (m i : Nat) :
    moves keys keep m (i + 1) = move keys keep .back (moves keys keep m i) :=
  Function.iterate_succ_apply' _ _ _

/-!
## Keys that are found again
-/

theorem found_iff (hkeep : forall k, keep k = none ∨ keep k = some k) :
    Found keys keep <-> keys.Nodup ∧ forall k, k ∈ keys -> keep k = some k := by
  constructor
  · intro hfound
    have hkept : forall i (h : i < keys.length), keep keys[i] = some keys[i] := by
      intro i h
      rcases hkeep keys[i] with hnone | hsome
      · have hi := hfound i h
        rw [hnone, index_none] at hi
        cases hi
      · exact hsome
    constructor
    · rw [List.nodup_iff_pairwise_ne, List.pairwise_iff_getElem]
      intro i j hi hj hij
      have hfirst := hfound j hj
      rw [hkept j hj] at hfirst
      rcases index_some_iff.mp hfirst with ⟨_, _, hbefore⟩
      exact hbefore i hij
    · intro k hk
      rcases List.getElem_of_mem hk with ⟨i, h, hi⟩
      rw [← hi]
      exact hkept i h
  · intro h i hi
    rw [h.right keys[i] (List.getElem_mem hi)]
    apply index_some_iff.mpr
    refine ⟨hi, rfl, ?_⟩
    intro j hj hsame
    exact Nat.ne_of_lt hj ((h.left.getElem_inj_iff).mp hsame)

theorem Found.move (hfound : Found keys keep) (h : i < keys.length)
    (hnext : next keys.length d (index keys cursor) = i) :
    index keys (move keys keep d cursor) = some i := by
  rw [move_eq h hnext]
  exact hfound i h

theorem Found.visits (hfound : Found keys keep) (hne : keys ≠ []) : Visits keys keep := by
  have hpos : 0 < keys.length := List.length_pos_of_ne_nil hne
  have hforward : forall i, i < keys.length ->
      index keys (moves keys keep (i + 1) 0) = some i := by
    intro i
    induction i with
    | zero => exact fun h => hfound.move h (congrArg (next keys.length .forward) index_none)
    | succ i ih =>
        intro h
        rw [moves_forward]
        apply hfound.move h
        rw [ih (Nat.lt_of_succ_lt h)]
        exact Nat.min_eq_left (Nat.le_pred_of_lt h)
  have hstay : forall m,
      index keys (moves keys keep (keys.length + m) 0) = some (keys.length - 1) := by
    intro m
    induction m with
    | zero =>
        have hlast := hforward (keys.length - 1) (Nat.pred_lt (Nat.ne_of_gt hpos))
        rw [Nat.sub_add_cancel hpos] at hlast
        exact hlast
    | succ m ih =>
        rw [← Nat.add_assoc, moves_forward]
        apply hfound.move (Nat.pred_lt (Nat.ne_of_gt hpos))
        rw [ih]
        exact Nat.min_eq_right (Nat.le_succ_of_le (Nat.le_refl _))
  refine ⟨hforward, hstay, ?_⟩
  intro m i
  induction i with
  | zero => exact fun _ => hstay m
  | succ i ih =>
      intro h
      rw [moves_back]
      apply hfound.move (Nat.lt_of_le_of_lt (Nat.sub_le _ _) (Nat.pred_lt (Nat.ne_of_gt hpos)))
      rw [ih (Nat.lt_of_succ_lt h)]
      rfl

theorem Visits.found (h : Visits keys keep) : Found keys keep := by
  intro i hi
  have hnext : next keys.length .forward (index keys (moves keys keep i 0)) = i := by
    cases i with
    | zero =>
        have hnone : index keys (moves keys keep 0 0) = none := index_none
        rw [hnone]
        rfl
    | succ j =>
        rw [h.forward j (Nat.lt_of_succ_lt hi)]
        exact Nat.min_eq_left (Nat.le_pred_of_lt hi)
  have hvisit := h.forward i hi
  rw [moves_forward, move_eq hi hnext] at hvisit
  exact hvisit

theorem visits_iff (hne : keys ≠ []) (hkeep : forall k, keep k = none ∨ keep k = some k) :
    Visits keys keep <-> keys.Nodup ∧ forall k, k ∈ keys -> keep k = some k := by
  rw [← found_iff hkeep]
  exact ⟨Visits.found, fun hfound => hfound.visits hne⟩

end KeyCursor
end Foundation
end LodelineManager
