import Mathlib.Data.List.TakeWhile
import Mathlib.Algebra.Order.Ring.Int

/-!
# Fixed-window counting

A counter admits so many events in a window of time; the first event after the
window has closed opens the next one.  A trace lists the events with their
instants and whether they were admitted, and falls into windows by the instants
alone.  The module proves that a trace the counter produced has at most the
limit in each of its windows.
-/

namespace LodelineManager
namespace Foundation
namespace FixedWindow

/-- The events counted in the open window, and the last instant of it. -/
structure Counter where
  count : Int
  reset : Int
  deriving DecidableEq

def hit (max window now : Int) : Option Counter -> Counter × Bool
  | none => ({ count := 1, reset := now + window }, true)
  | some c =>
      if c.reset < now then ({ count := 1, reset := now + window }, true)
      else if max <= c.count then (c, false)
      else ({ c with count := c.count + 1 }, true)

abbrev Trace := List (Int × Bool)

/-- The windows of a trace. -/
inductive IsWindow (window : Int) : Trace -> Trace -> Prop where
  | first (a : Int × Bool) (rest : Trace) :
      IsWindow window (a :: rest) (a :: rest.takeWhile (fun b => decide (b.1 <= a.1 + window)))
  | later {a : Int × Bool} {rest w : Trace} :
      IsWindow window (rest.dropWhile (fun b => decide (b.1 <= a.1 + window))) w ->
      IsWindow window (a :: rest) w

def admitted (trace : Trace) : Nat := trace.countP (fun b => b.2)

/-- No window of the trace admits more than the limit. -/
def Limited (max window : Int) (trace : Trace) : Prop :=
  forall w, IsWindow window trace w -> (admitted w : Int) <= max

/-- The trace is what the counter makes of its instants. -/
def Counted (max window : Int) : Option Counter -> Trace -> Prop
  | _, [] => True
  | c, (now, ok) :: rest =>
      ok = (hit max window now c).2 ∧ Counted max window (some (hit max window now c).1) rest

/-- The counter has no window open for the first event. -/
def Closed (c : Option Counter) (trace : Trace) : Prop :=
  forall a rest o, trace = a :: rest -> c = some o -> o.reset < a.1

@[simp] theorem admitted_nil : admitted [] = 0 := rfl

theorem admitted_cons (now : Int) (ok : Bool) (rest : Trace) :
    admitted ((now, ok) :: rest) = admitted rest + if ok then 1 else 0 := by
  unfold admitted
  rw [List.countP_cons]

theorem admit_of_closed {max window now : Int} {c : Option Counter}
    (h : forall o, c = some o -> o.reset < now) :
    hit max window now c = ({ count := 1, reset := now + window }, true) := by
  cases c with
  | none => rfl
  | some o => exact if_pos (h o rfl)

theorem counted_open {max window count reset : Int} {trace : Trace} (hle : count <= max)
    (h : Counted max window (some ⟨count, reset⟩) trace) :
    count + admitted (trace.takeWhile (fun b => decide (b.1 <= reset))) <= max ∧
      exists count', Counted max window (some ⟨count', reset⟩)
        (trace.dropWhile (fun b => decide (b.1 <= reset))) := by
  induction trace generalizing count with
  | nil => exact ⟨by simpa using hle, count, trivial⟩
  | cons a rest ih =>
      rcases a with ⟨now, ok⟩
      by_cases hin : now <= reset
      · rw [List.takeWhile_cons_of_pos (by simpa using hin),
          List.dropWhile_cons_of_pos (by simpa using hin), admitted_cons]
        rcases h with ⟨hok, hrest⟩
        rw [hit, if_neg (Int.not_lt.mpr hin)] at hok hrest
        by_cases hfull : max <= count
        · rw [if_pos hfull] at hok hrest
          rw [hok]
          simpa using ih hle hrest
        · rw [if_neg hfull] at hok hrest
          rw [hok]
          change Counted max window (some ⟨count + 1, reset⟩) rest at hrest
          change ¬ max <= count at hfull
          rcases ih (by omega) hrest with ⟨hcount, hout⟩
          refine ⟨?_, hout⟩
          push_cast
          simp only [if_true]
          omega
      · rw [List.takeWhile_cons_of_neg (by simpa using hin),
          List.dropWhile_cons_of_neg (by simpa using hin)]
        exact ⟨by simpa using hle, count, h⟩

theorem closed_dropWhile (count reset : Int) (trace : Trace) :
    Closed (some ⟨count, reset⟩) (trace.dropWhile (fun b => decide (b.1 <= reset))) := by
  intro a rest o htrace ho
  cases ho
  have hnot := List.head?_dropWhile_not (fun b : Int × Bool => decide (b.1 <= reset)) trace
  rw [htrace] at hnot
  simpa using hnot

theorem limited_of_counted {max window : Int} (hmax : 1 <= max) {trace : Trace}
    {c : Option Counter} (hclosed : Closed c trace) (h : Counted max window c trace) :
    Limited max window trace := by
  intro w hw
  induction hw generalizing c with
  | first a rest =>
      rcases a with ⟨now, ok⟩
      rcases h with ⟨hok, hrest⟩
      rw [admit_of_closed (fun o ho => hclosed _ _ o rfl ho)] at hok hrest
      have hcount : 1 + (admitted (rest.takeWhile (fun b => decide (b.1 <= now + window))) : Int) <=
          max := (counted_open hmax hrest).left
      rw [admitted_cons, hok, if_pos rfl, Nat.cast_add, Nat.cast_one, Int.add_comm]
      exact hcount
  | @later a rest w _ ih =>
      rcases a with ⟨now, ok⟩
      rcases h with ⟨_, hrest⟩
      rw [admit_of_closed (fun o ho => hclosed _ _ o rfl ho)] at hrest
      rcases (counted_open hmax hrest).right with ⟨count, hnext⟩
      exact ih (closed_dropWhile count _ rest) hnext

theorem isWindow_whole {window : Int} {a : Int × Bool} {rest : Trace}
    (h : forall b, b ∈ rest -> b.1 <= a.1 + window) : IsWindow window (a :: rest) (a :: rest) := by
  have hall : rest.takeWhile (fun b => decide (b.1 <= a.1 + window)) = rest :=
    List.takeWhile_eq_self_iff.mpr (fun b hb => decide_eq_true (h b hb))
  have hfirst := @IsWindow.first window a rest
  rw [hall] at hfirst
  exact hfirst

end FixedWindow
end Foundation
end LodelineManager
