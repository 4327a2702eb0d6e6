import Mathlib.Data.List.Basic
import Mathlib.Data.List.Induction

/-!
# Runs of a labelled transition function

A component is a state and a partial step function: a label that is not enabled
in a state leaves the run undefined.  A run replays a list of labels, so an
interleaving of several parties is one list of labels and a reachable state is
the end of one.  This module packages the inductions over runs that the
components reuse.
-/

namespace LodelineManager
namespace Foundation

universe u v

variable {state : Type u} {label : Type v}

def runSteps (step : state -> label -> Option state) :
    state -> List label -> Option state
  | s, [] => some s
  | s, a :: rest =>
      match step s a with
      | none => none
      | some s' => runSteps step s' rest

/-- A predicate on single steps holds at every step of a run. -/
def EveryStep (step : state -> label -> Option state)
    (P : state -> label -> state -> Prop) : state -> List label -> Prop
  | _, [] => True
  | s, a :: rest =>
      match step s a with
      | none => True
      | some s' => P s a s' ∧ EveryStep step P s' rest

variable {step : state -> label -> Option state}

@[simp] theorem runSteps_nil (s : state) : runSteps step s [] = some s := rfl

theorem runSteps_cons {s s' : state} {a : label} {rest : List label}
    (h : runSteps step s (a :: rest) = some s') :
    exists mid, step s a = some mid ∧ runSteps step mid rest = some s' := by
  unfold runSteps at h
  cases hstep : step s a with
  | none =>
      rw [hstep] at h
      cases h
  | some mid =>
      rw [hstep] at h
      exact ⟨mid, rfl, h⟩

theorem runSteps_cons_of_step {s mid : state} {a : label} {rest : List label}
    (h : step s a = some mid) :
    runSteps step s (a :: rest) = runSteps step mid rest := by
  rw [runSteps, h]

theorem runSteps_append (s : state) (front back : List label) :
    runSteps step s (front ++ back) =
      (runSteps step s front).bind (fun mid => runSteps step mid back) := by
  induction front generalizing s with
  | nil => rfl
  | cons a rest ih =>
      show runSteps step s (a :: (rest ++ back)) = _
      cases hstep : step s a with
      | none => simp only [runSteps, hstep, Option.bind_none]
      | some mid =>
          simp only [runSteps, hstep]
          exact ih mid

theorem runSteps_append_some {s s' : state} {front back : List label}
    (h : runSteps step s (front ++ back) = some s') :
    exists mid, runSteps step s front = some mid ∧
      runSteps step mid back = some s' := by
  rw [runSteps_append] at h
  exact Option.bind_eq_some_iff.mp h

theorem runSteps_split {s s' : state} {front back : List label} {a : label}
    (h : runSteps step s (front ++ a :: back) = some s') :
    exists before after, runSteps step s front = some before ∧
      step before a = some after ∧ runSteps step after back = some s' := by
  rcases runSteps_append_some h with ⟨before, hfront, hback⟩
  rcases runSteps_cons hback with ⟨after, hstep, hrest⟩
  exact ⟨before, after, hfront, hstep, hrest⟩

theorem runSteps_concat {s s' : state} {front : List label} {a : label}
    (h : runSteps step s (front ++ [a]) = some s') :
    exists mid, runSteps step s front = some mid ∧ step mid a = some s' := by
  rcases runSteps_split h with ⟨mid, after, hfront, hstep, hrest⟩
  cases hrest
  exact ⟨mid, hfront, hstep⟩

/-!
## Invariants and relations along a run
-/

theorem run_invariant {P : state -> Prop}
    (hstep : forall s a s', P s -> step s a = some s' -> P s')
    {s s' : state} {labels : List label}
    (hinit : P s) (h : runSteps step s labels = some s') : P s' := by
  induction labels generalizing s with
  | nil =>
      cases h
      exact hinit
  | cons a rest ih =>
      rcases runSteps_cons h with ⟨mid, hmid, hrest⟩
      exact ih (hstep s a mid hinit hmid) hrest

theorem run_invariant_on {P : state -> Prop} {kind : label -> Prop}
    (hstep : forall s a s', kind a -> P s -> step s a = some s' -> P s')
    {s s' : state} {labels : List label} (hkind : forall a, a ∈ labels -> kind a)
    (hinit : P s) (h : runSteps step s labels = some s') : P s' := by
  induction labels generalizing s with
  | nil =>
      cases h
      exact hinit
  | cons a rest ih =>
      rcases runSteps_cons h with ⟨mid, hmid, hrest⟩
      rcases List.forall_mem_cons.mp hkind with ⟨ha, hkind'⟩
      exact ih hkind' (hstep s a mid ha hinit hmid) hrest

theorem run_history {P : List label -> state -> Prop} {s0 : state} (hinit : P [] s0)
    (hstep : forall front a s s', runSteps step s0 front = some s -> P front s ->
      step s a = some s' -> P (front ++ [a]) s')
    {s : state} {labels : List label} (h : runSteps step s0 labels = some s) : P labels s := by
  induction labels using List.reverseRecOn generalizing s with
  | nil =>
      cases h
      exact hinit
  | append_singleton front a ih =>
      rcases runSteps_concat h with ⟨mid, hmid, hlast⟩
      exact hstep front a mid s hmid (ih hmid) hlast

theorem run_first_holds {P : state -> Prop} {s s' : state} {labels : List label}
    (hrun : runSteps step s labels = some s') (hnot : ¬ P s) (hend : P s') :
    exists front a back before after, labels = front ++ a :: back ∧
      runSteps step s front = some before ∧ step before a = some after ∧
      ¬ P before ∧ P after := by
  induction labels generalizing s with
  | nil =>
      cases hrun
      exact absurd hend hnot
  | cons a rest ih =>
      rcases runSteps_cons hrun with ⟨mid, hmid, hrest⟩
      by_cases hP : P mid
      · exact ⟨[], a, rest, s, mid, rfl, rfl, hmid, hnot, hP⟩
      · rcases ih hrest hP with ⟨front, b, back, before, after, hlabels, hfront, hstep, hrel⟩
        refine ⟨a :: front, b, back, before, after, ?_, ?_, hstep, hrel⟩
        · rw [hlabels]
          rfl
        · rw [runSteps_cons_of_step hmid]
          exact hfront

/-!
## Properties of every step
-/

theorem everyStep_cons {P : state -> label -> state -> Prop} {s mid : state}
    {a : label} {rest : List label} (hstep : step s a = some mid) :
    EveryStep step P s (a :: rest) <-> P s a mid ∧ EveryStep step P mid rest := by
  rw [EveryStep, hstep]

theorem everyStep_split {P : state -> label -> state -> Prop} {s before after : state}
    {front back : List label} {a : label}
    (hall : EveryStep step P s (front ++ a :: back))
    (hfront : runSteps step s front = some before)
    (hstep : step before a = some after) : P before a after := by
  induction front generalizing s with
  | nil =>
      cases hfront
      exact ((everyStep_cons hstep).mp hall).left
  | cons b rest ih =>
      rcases runSteps_cons hfront with ⟨mid, hmid, hrest⟩
      exact ih ((everyStep_cons hmid).mp hall).right hrest

theorem run_invariant_every {P : state -> Prop} {Q : state -> label -> state -> Prop}
    (hstep : forall s a s', Q s a s' -> P s -> step s a = some s' -> P s')
    {s s' : state} {labels : List label} (hall : EveryStep step Q s labels)
    (hinit : P s) (h : runSteps step s labels = some s') : P s' := by
  induction labels generalizing s with
  | nil =>
      cases h
      exact hinit
  | cons a rest ih =>
      rcases runSteps_cons h with ⟨mid, hmid, hrest⟩
      rcases (everyStep_cons hmid).mp hall with ⟨hQ, hall'⟩
      exact ih hall' (hstep s a mid hQ hinit hmid) hrest

theorem everyStep_congr {I : state -> Prop} {P Q : state -> label -> state -> Prop}
    (hiff : forall s a s', I s -> step s a = some s' -> (P s a s' <-> Q s a s'))
    (hI : forall s a s', I s -> step s a = some s' -> Q s a s' -> I s')
    {s : state} (hinit : I s) (labels : List label) :
    EveryStep step P s labels <-> EveryStep step Q s labels := by
  induction labels generalizing s with
  | nil => exact Iff.rfl
  | cons a rest ih =>
      cases hstep : step s a with
      | none => simp only [EveryStep, hstep]
      | some mid =>
          rw [everyStep_cons hstep, everyStep_cons hstep]
          have hhead := hiff s a mid hinit hstep
          constructor
          · intro h
            have hQ := hhead.mp h.left
            exact ⟨hQ, (ih (hI s a mid hinit hstep hQ)).mp h.right⟩
          · intro h
            exact ⟨hhead.mpr h.left, (ih (hI s a mid hinit hstep h.left)).mpr h.right⟩

/-!
## Runs of two components
-/

theorem run_map {state' : Type u} {label' : Type v} {step' : state' -> label' -> Option state'}
    {f : state -> state'} {g : label -> label'}
    (hstep : forall s a s', step s a = some s' -> step' (f s) (g a) = some (f s'))
    {s s' : state} {labels : List label} (h : runSteps step s labels = some s') :
    runSteps step' (f s) (labels.map g) = some (f s') := by
  induction labels generalizing s with
  | nil =>
      cases h
      rfl
  | cons a rest ih =>
      rcases runSteps_cons h with ⟨mid, hmid, hrest⟩
      exact (runSteps_cons_of_step (hstep s a mid hmid)).trans (ih hrest)

end Foundation
end LodelineManager
