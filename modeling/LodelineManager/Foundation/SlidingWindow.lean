import LodelineManager.Foundation.FixedWindow
import Mathlib.Data.List.Basic

/-!
# Sliding intervals over fixed windows

The events that a fixed-window counter admits in an interval of time, wherever the
interval begins.  An interval that is no longer than a window meets at most two windows:
what is left of the one that is open when it begins, and the next.
-/

namespace LodelineManager
namespace Foundation
namespace FixedWindow

/-- The clock of a trace does not go back. -/
def Ordered (trace : Trace) : Prop := trace.Pairwise (fun a b => a.1 <= b.1)

def upTo (last : Int) (trace : Trace) : Trace := trace.filter (fun b => decide (b.1 <= last))

def between (first last : Int) (trace : Trace) : Trace :=
  trace.filter (fun b => decide (first <= b.1 ∧ b.1 <= last))

/-- The count of a window is in the range of the limit. -/
def Within (max : Int) (c : Option Counter) : Prop :=
  forall o, c = some o -> 0 <= o.count ∧ o.count <= max

theorem admitted_append (front back : Trace) :
    admitted (front ++ back) = admitted front + admitted back :=
  List.countP_append

theorem admitted_le_of_sublist {part trace : Trace} (h : part.Sublist trace) :
    admitted part <= admitted trace :=
  h.countP_le

theorem upTo_sublist (last : Int) (trace : Trace) : (upTo last trace).Sublist trace :=
  List.filter_sublist

theorem upTo_append (last : Int) (front back : Trace) :
    upTo last (front ++ back) = upTo last front ++ upTo last back :=
  List.filter_append front back

theorem Ordered.takeWhile_eq_upTo {trace : Trace} (h : Ordered trace) (last : Int) :
    trace.takeWhile (fun b => decide (b.1 <= last)) = upTo last trace := by
  induction trace with
  | nil => rfl
  | cons a rest ih =>
      rcases List.pairwise_cons.mp h with ⟨hfirst, hrest⟩
      unfold upTo
      by_cases ha : a.1 <= last
      · rw [List.takeWhile_cons_of_pos (by simpa using ha),
          List.filter_cons_of_pos (by simpa using ha), ih hrest, upTo]
      · rw [List.takeWhile_cons_of_neg (by simpa using ha)]
        symm
        apply List.filter_eq_nil_iff.mpr
        intro b hb hlast
        have hle : b.1 <= last := of_decide_eq_true hlast
        rcases List.mem_cons.mp hb with rfl | hb
        · exact ha hle
        · exact ha (Int.le_trans (hfirst b hb) hle)

theorem Ordered.lt_of_mem_dropWhile {trace : Trace} (h : Ordered trace) {last : Int}
    {b : Int × Bool} (hb : b ∈ trace.dropWhile (fun b => decide (b.1 <= last))) : last < b.1 := by
  induction trace with
  | nil => cases hb
  | cons a rest ih =>
      rcases List.pairwise_cons.mp h with ⟨hfirst, hrest⟩
      by_cases ha : a.1 <= last
      · rw [List.dropWhile_cons_of_pos (by simpa using ha)] at hb
        exact ih hrest hb
      · rw [List.dropWhile_cons_of_neg (by simpa using ha)] at hb
        have hlast := Int.not_le.mp ha
        rcases List.mem_cons.mp hb with rfl | hb
        · exact hlast
        · exact Int.lt_of_lt_of_le hlast (hfirst b hb)

theorem Ordered.sublist {part trace : Trace} (h : Ordered trace) (hpart : part.Sublist trace) :
    Ordered part :=
  List.Pairwise.sublist hpart h

theorem hit_cases (max window now : Int) (c : Option Counter) :
    ((forall o, c = some o -> o.reset < now) ∧
        hit max window now c = ({ count := 1, reset := now + window }, true)) ∨
      (exists o, c = some o ∧ now <= o.reset ∧ max <= o.count ∧
        hit max window now c = (o, false)) ∨
      (exists o, c = some o ∧ now <= o.reset ∧ o.count < max ∧
        hit max window now c = ({ o with count := o.count + 1 }, true)) := by
  cases c with
  | none =>
      refine Or.inl ⟨?_, rfl⟩
      intro o ho
      cases ho
  | some o =>
      by_cases hover : o.reset < now
      · refine Or.inl ⟨?_, if_pos hover⟩
        intro o' ho
        cases ho
        exact hover
      · refine Or.inr ?_
        by_cases hfull : max <= o.count
        · exact Or.inl ⟨o, rfl, Int.not_lt.mp hover, hfull, by rw [hit, if_neg hover, if_pos hfull]⟩
        · exact Or.inr ⟨o, rfl, Int.not_lt.mp hover, Int.not_le.mp hfull,
            by rw [hit, if_neg hover, if_neg hfull]⟩

theorem Within.hit {max window now : Int} (hmax : 1 <= max) {c : Option Counter}
    (h : Within max c) : Within max (some (hit max window now c).1) := by
  intro o ho
  cases ho
  rcases hit_cases max window now c with ⟨_, hhit⟩ | ⟨o, hc, _, _, hhit⟩ | ⟨o, hc, _, hroom, hhit⟩
  · rw [hhit]
    exact ⟨Int.zero_le_ofNat 1, hmax⟩
  · rw [hhit]
    exact h o hc
  · rw [hhit]
    exact ⟨Int.le_add_one (h o hc).left, Int.add_one_le_of_lt hroom⟩

theorem counted_rest {max window : Int} (hmax : 1 <= max) {front back : Trace}
    {c : Option Counter} (hc : Within max c) (h : Counted max window c (front ++ back)) :
    exists c', Within max c' ∧ Counted max window c' back := by
  induction front generalizing c with
  | nil => exact ⟨c, hc, h⟩
  | cons a rest ih => exact ih (hc.hit hmax) h.right

theorem admitted_window_le {max window now : Int} {ok : Bool} {rest : Trace} {c : Option Counter}
    (hmax : 1 <= max) (hclosed : Closed c ((now, ok) :: rest))
    (hordered : Ordered ((now, ok) :: rest)) (h : Counted max window c ((now, ok) :: rest)) :
    (admitted (upTo (now + window) ((now, ok) :: rest)) : Int) <= max := by
  have hrest : Ordered rest := (List.pairwise_cons.mp hordered).right
  have hwindow := limited_of_counted hmax hclosed h _ (IsWindow.first (now, ok) rest)
  rw [hrest.takeWhile_eq_upTo] at hwindow
  have hpart : (upTo (now + window) ((now, ok) :: rest)).Sublist
      ((now, ok) :: upTo (now + window) rest) := by
    unfold upTo
    rw [List.filter_cons]
    split
    · exact List.Sublist.refl _
    · exact List.sublist_cons_self _ _
  exact Int.le_trans (Int.ofNat_le.mpr (admitted_le_of_sublist hpart)) hwindow

theorem upTo_sublist_upTo {last last' : Int} (h : last <= last') (trace : Trace) :
    (upTo last trace).Sublist (upTo last' trace) := by
  apply List.monotone_filter_right
  intro b hb
  exact decide_eq_true (Int.le_trans (of_decide_eq_true hb) h)

theorem admitted_closed_le {max window first last : Int} {trace : Trace} {c : Option Counter}
    (hmax : 1 <= max) (hclosed : Closed c trace) (hordered : Ordered trace)
    (h : Counted max window c trace) (hfirst : forall b, b ∈ trace -> first <= b.1)
    (hlen : last <= first + window) : (admitted (upTo last trace) : Int) <= max := by
  cases trace with
  | nil => exact Int.le_trans (Int.zero_le_ofNat 1) hmax
  | cons a rest =>
      have hlast : last <= a.1 + window :=
        Int.le_trans hlen (Int.add_le_add_right (hfirst a List.mem_cons_self) window)
      have hwindow := admitted_window_le hmax hclosed hordered h
      exact Int.le_trans
        (Int.ofNat_le.mpr (admitted_le_of_sublist (upTo_sublist_upTo hlast (a :: rest)))) hwindow

theorem admitted_upTo_le {max window first last : Int} {trace : Trace} {c : Option Counter}
    (hmax : 1 <= max) (hc : Within max c) (hordered : Ordered trace)
    (h : Counted max window c trace) (hfirst : forall b, b ∈ trace -> first <= b.1)
    (hlen : last <= first + window) : (admitted (upTo last trace) : Int) <= 2 * max := by
  have htwice : max <= 2 * max := by omega
  cases c with
  | none =>
      have hclosed : Closed none trace := fun _ _ _ _ ho => by cases ho
      exact Int.le_trans (admitted_closed_le hmax hclosed hordered h hfirst hlen) htwice
  | some o =>
      rcases o with ⟨count, reset⟩
      rcases hc _ rfl with ⟨hnonneg, hle⟩
      by_cases hover : reset < first
      · have hclosed : Closed (some ⟨count, reset⟩) trace := by
          intro a rest o htrace ho
          cases ho
          exact Int.lt_of_lt_of_le hover (hfirst a (htrace ▸ List.mem_cons_self))
        exact Int.le_trans (admitted_closed_le hmax hclosed hordered h hfirst hlen) htwice
      · -- the open window up to its end, and the next one after it
        rcases counted_open hle h with ⟨hopen, count', hnext⟩
        have hafter : forall b, b ∈ trace.dropWhile (fun b => decide (b.1 <= reset)) ->
            reset <= b.1 := fun b hb => Int.le_of_lt (hordered.lt_of_mem_dropWhile hb)
        have hsecond := admitted_closed_le hmax (closed_dropWhile count' reset trace)
          (hordered.sublist (List.dropWhile_sublist _)) hnext hafter
          (Int.le_trans hlen (Int.add_le_add_right (Int.not_lt.mp hover) window))
        have hsplit := List.takeWhile_append_dropWhile
          (p := fun b : Int × Bool => decide (b.1 <= reset)) (l := trace)
        rw [← hsplit, upTo_append, admitted_append]
        have hfirst := admitted_le_of_sublist
          (upTo_sublist last (trace.takeWhile (fun b => decide (b.1 <= reset))))
        push_cast
        omega

theorem between_append (first last : Int) (front back : Trace) :
    between first last (front ++ back) = between first last front ++ between first last back :=
  List.filter_append front back

theorem between_sublist_upTo (first last : Int) (trace : Trace) :
    (between first last trace).Sublist (upTo last trace) := by
  apply List.monotone_filter_right
  intro b hb
  exact decide_eq_true (of_decide_eq_true hb).right

theorem between_of_before {first last : Int} {trace : Trace}
    (h : forall b, b ∈ trace -> b.1 < first) : between first last trace = [] := by
  apply List.filter_eq_nil_iff.mpr
  intro b hb hin
  exact Int.not_lt.mpr (of_decide_eq_true hin).left (h b hb)

theorem admitted_between_le {max window first last : Int} {trace : Trace} {c : Option Counter}
    (hmax : 1 <= max) (hc : Within max c) (hordered : Ordered trace)
    (h : Counted max window c trace) (hlen : last - first <= window) :
    (admitted (between first last trace) : Int) <= 2 * max := by
  -- the events before the interval leave a counter for those from its beginning on
  have hsplit := List.takeWhile_append_dropWhile
    (p := fun b : Int × Bool => decide (b.1 <= first - 1)) (l := trace)
  rw [← hsplit] at h
  rcases counted_rest hmax hc h with ⟨c', hc', hback⟩
  have hfrom : forall b, b ∈ trace.dropWhile (fun b => decide (b.1 <= first - 1)) ->
      first <= b.1 := by
    intro b hb
    have hlt := hordered.lt_of_mem_dropWhile hb
    omega
  have hbefore : forall b, b ∈ trace.takeWhile (fun b => decide (b.1 <= first - 1)) ->
      b.1 < first := by
    intro b hb
    have hle := List.mem_takeWhile_imp hb
    simp only [decide_eq_true_eq] at hle
    omega
  have hupTo := admitted_upTo_le hmax hc' (hordered.sublist (List.dropWhile_sublist _)) hback hfrom
    (show last <= first + window by omega)
  rw [← hsplit, between_append, between_of_before hbefore, List.nil_append]
  exact Int.le_trans
    (Int.ofNat_le.mpr (admitted_le_of_sublist (between_sublist_upTo first last _))) hupTo

/-!
## Longer intervals
-/

theorem upTo_of_after {last : Int} {trace : Trace} (h : forall b, b ∈ trace -> last < b.1) :
    upTo last trace = [] := by
  apply List.filter_eq_nil_iff.mpr
  intro b hb hlast
  exact Int.not_le.mpr (h b hb) (of_decide_eq_true hlast)

theorem admitted_first_window {max window last now : Int} {ok : Bool} {rest : Trace}
    {c : Option Counter} (hmax : 1 <= max) (hclosed : Closed c ((now, ok) :: rest))
    (h : Counted max window c ((now, ok) :: rest)) :
    exists count,
      Counted max window (some ⟨count, now + window⟩)
        (rest.dropWhile (fun b => decide (b.1 <= now + window))) ∧
      (admitted (upTo last ((now, ok) :: rest)) : Int) <=
        max + admitted (upTo last (rest.dropWhile (fun b => decide (b.1 <= now + window)))) := by
  have hwindow := limited_of_counted hmax hclosed h _ (IsWindow.first (now, ok) rest)
  rcases h with ⟨_, hrest⟩
  rw [admit_of_closed (fun o ho => hclosed _ _ o rfl ho)] at hrest
  rcases (counted_open hmax hrest).right with ⟨count, hnext⟩
  refine ⟨count, hnext, ?_⟩
  have hsplit : (now, ok) :: rest =
      ((now, ok) :: rest.takeWhile (fun b => decide (b.1 <= now + window))) ++
        rest.dropWhile (fun b => decide (b.1 <= now + window)) := by
    rw [List.cons_append, List.takeWhile_append_dropWhile]
  rw [hsplit, upTo_append, admitted_append, Nat.cast_add]
  have hpart := admitted_le_of_sublist (upTo_sublist last
    ((now, ok) :: rest.takeWhile (fun b => decide (b.1 <= now + window))))
  exact Int.add_le_add_right (Int.le_trans (Int.ofNat_le.mpr hpart) hwindow) _

theorem admitted_closed_windows {max window last : Int} (hmax : 1 <= max) (n : Nat) {first : Int}
    {trace : Trace} {c : Option Counter} (hclosed : Closed c trace) (hordered : Ordered trace)
    (h : Counted max window c trace) (hfirst : forall b, b ∈ trace -> first <= b.1)
    (hlen : last < first + n * (window + 1)) : (admitted (upTo last trace) : Int) <= n * max := by
  induction n generalizing first trace c with
  | zero =>
      have hafter : forall b, b ∈ trace -> last < b.1 := by
        intro b hb
        have hle := hfirst b hb
        rw [Nat.cast_zero, Int.zero_mul, Int.add_zero] at hlen
        exact Int.lt_of_lt_of_le hlen hle
      rw [upTo_of_after hafter, Nat.cast_zero, Int.zero_mul]
      exact Int.le_refl 0
  | succ n ih =>
      rw [Nat.cast_succ, Int.add_mul, Int.one_mul] at hlen ⊢
      cases trace with
      | nil =>
          have hpos : (0 : Int) <= n * max :=
            Int.mul_nonneg (Int.natCast_nonneg n) (Int.le_trans Int.one_nonneg hmax)
          change (0 : Int) <= n * max + max
          omega
      | cons a rest =>
          rcases a with ⟨now, ok⟩
          have hle : first <= now := hfirst (now, ok) List.mem_cons_self
          have hrest : Ordered rest := (List.pairwise_cons.mp hordered).right
          rcases @admitted_first_window max window last now ok rest c hmax hclosed h with
            ⟨count, hnext, hsum⟩
          have hafter : forall b, b ∈ rest.dropWhile (fun b => decide (b.1 <= now + window)) ->
              now + window + 1 <= b.1 := fun b hb => Int.add_one_le_of_lt
            (hrest.lt_of_mem_dropWhile hb)
          have htail := ih (closed_dropWhile count (now + window) rest)
            (hrest.sublist (List.dropWhile_sublist _)) hnext hafter (by omega)
          omega

theorem admitted_upTo_windows {max window first last : Int} (hmax : 1 <= max) (n : Nat)
    {trace : Trace} {c : Option Counter} (hc : Within max c) (hordered : Ordered trace)
    (h : Counted max window c trace) (hfirst : forall b, b ∈ trace -> first <= b.1)
    (hlen : last < first + n * (window + 1)) :
    (admitted (upTo last trace) : Int) <= n * max + max := by
  have hclosedCase : Closed c trace -> (admitted (upTo last trace) : Int) <= n * max + max := by
    intro hclosed
    have hle := admitted_closed_windows hmax n hclosed hordered h hfirst hlen
    omega
  cases c with
  | none => exact hclosedCase (fun _ _ _ _ ho => by cases ho)
  | some o =>
      rcases o with ⟨count, reset⟩
      rcases hc _ rfl with ⟨hnonneg, hle⟩
      by_cases hover : reset < first
      · apply hclosedCase
        intro a rest o htrace ho
        cases ho
        exact Int.lt_of_lt_of_le hover (hfirst a (htrace ▸ List.mem_cons_self))
      · -- what is left of the open window, and the windows after it
        rcases counted_open hle h with ⟨hopen, count', hnext⟩
        have hafter : forall b, b ∈ trace.dropWhile (fun b => decide (b.1 <= reset)) ->
            first <= b.1 := fun b hb =>
          Int.le_trans (Int.not_lt.mp hover) (Int.le_of_lt (hordered.lt_of_mem_dropWhile hb))
        have hlater := admitted_closed_windows hmax n (closed_dropWhile count' reset trace)
          (hordered.sublist (List.dropWhile_sublist _)) hnext hafter hlen
        have hsplit := List.takeWhile_append_dropWhile
          (p := fun b : Int × Bool => decide (b.1 <= reset)) (l := trace)
        rw [← hsplit, upTo_append, admitted_append, Nat.cast_add]
        have hleft := Int.ofNat_le.mpr (admitted_le_of_sublist
          (upTo_sublist last (trace.takeWhile (fun b => decide (b.1 <= reset)))))
        omega

theorem admitted_between_windows {max window first last : Int} (hmax : 1 <= max) (n : Nat)
    {trace : Trace} {c : Option Counter} (hc : Within max c) (hordered : Ordered trace)
    (h : Counted max window c trace) (hlen : last < first + n * (window + 1)) :
    (admitted (between first last trace) : Int) <= n * max + max := by
  have hsplit := List.takeWhile_append_dropWhile
    (p := fun b : Int × Bool => decide (b.1 <= first - 1)) (l := trace)
  rw [← hsplit] at h
  rcases counted_rest hmax hc h with ⟨c', hc', hback⟩
  have hfrom : forall b, b ∈ trace.dropWhile (fun b => decide (b.1 <= first - 1)) ->
      first <= b.1 := by
    intro b hb
    have hlt := hordered.lt_of_mem_dropWhile hb
    omega
  have hbefore : forall b, b ∈ trace.takeWhile (fun b => decide (b.1 <= first - 1)) ->
      b.1 < first := by
    intro b hb
    have hle := List.mem_takeWhile_imp hb
    simp only [decide_eq_true_eq] at hle
    omega
  have hupTo := admitted_upTo_windows hmax n hc' (hordered.sublist (List.dropWhile_sublist _))
    hback hfrom hlen
  rw [← hsplit, between_append, between_of_before hbefore, List.nil_append]
  exact Int.le_trans
    (Int.ofNat_le.mpr (admitted_le_of_sublist (between_sublist_upTo first last _))) hupTo

end FixedWindow
end Foundation
end LodelineManager
