import LodelineManager.Foundation.FirstMatch
import Mathlib.Data.List.Induction

/-!
# Bounded lists of the most recent items

A list holds at most one item of each key, newest first, and never more than a
bound.  Touching an item puts it in front, drops the older item of its key and
cuts the list at the bound.  After any history the list is the newest item of each
key of the history, cut once at the bound: nothing that was cut away on the way
would have stood in it.
-/

namespace LodelineManager
namespace Foundation

universe u v

variable {item : Type u} {key : Type v} [DecidableEq key]

/-!
## The newest item of each key
-/

theorem keepFirst_congr (keyOf : item -> key) {seen seen' : List key} (xs : List item)
    (h : forall k, k ∈ seen <-> k ∈ seen') :
    keepFirst keyOf seen xs = keepFirst keyOf seen' xs := by
  induction xs generalizing seen seen' with
  | nil => rfl
  | cons x rest ih =>
      have hcons : forall k, k ∈ keyOf x :: seen <-> k ∈ keyOf x :: seen' := by
        intro k
        rw [List.mem_cons, List.mem_cons, h k]
      unfold keepFirst
      by_cases hx : keyOf x ∈ seen
      · rw [if_pos hx, if_pos ((h _).mp hx)]
        exact ih h
      · rw [if_neg hx, if_neg (fun hx' => hx ((h _).mpr hx')), ih hcons]

theorem keepFirst_cons_seen (keyOf : item -> key) (k : key) (seen : List key) (xs : List item) :
    keepFirst keyOf (k :: seen) xs =
      (keepFirst keyOf seen xs).filter (fun x => decide (keyOf x ≠ k)) := by
  induction xs generalizing seen with
  | nil => rfl
  | cons x rest ih =>
      unfold keepFirst
      by_cases hseen : keyOf x ∈ seen
      · rw [if_pos hseen, if_pos (List.mem_cons_of_mem k hseen)]
        exact ih seen
      · rw [if_neg hseen]
        by_cases hk : keyOf x = k
        · subst hk
          have hkept : (keepFirst keyOf (keyOf x :: seen) rest).filter
              (fun y => decide (keyOf y ≠ keyOf x)) = keepFirst keyOf (keyOf x :: seen) rest := by
            rw [List.filter_eq_self]
            intro y hy
            have hnew := keepFirst_not_seen hy
            rw [decide_eq_true_iff]
            intro heq
            apply hnew
            rw [heq]
            exact List.mem_cons_self
          rw [if_pos List.mem_cons_self, List.filter_cons_of_neg (by simp), hkept]
        · have hnew : keyOf x ∉ k :: seen := by
            intro hmem
            rcases List.mem_cons.mp hmem with heq | hmem
            · exact hk heq
            · exact hseen hmem
          have hswap : forall k', k' ∈ keyOf x :: k :: seen <-> k' ∈ k :: keyOf x :: seen := by
            intro k'
            simp only [List.mem_cons]
            exact or_left_comm
          rw [if_neg hnew, List.filter_cons_of_pos (by simpa using hk),
            keepFirst_congr keyOf rest hswap, ih (keyOf x :: seen)]

def latest (keyOf : item -> key) (history : List item) : List item :=
  keepFirst keyOf [] history.reverse

theorem latest_concat (keyOf : item -> key) (history : List item) (x : item) :
    latest keyOf (history ++ [x]) =
      x :: (latest keyOf history).filter (fun y => decide (keyOf y ≠ keyOf x)) := by
  unfold latest
  rw [List.reverse_append, List.reverse_singleton, List.singleton_append]
  rw [show keepFirst keyOf [] (x :: history.reverse) =
      x :: keepFirst keyOf [keyOf x] history.reverse from if_neg List.not_mem_nil]
  rw [keepFirst_cons_seen]

theorem latest_nodup (keyOf : item -> key) (history : List item) :
    ((latest keyOf history).map keyOf).Nodup :=
  keepFirst_nodup keyOf [] history.reverse

theorem latest_sublist (keyOf : item -> key) (history : List item) :
    (latest keyOf history).Sublist history.reverse :=
  keepFirst_sublist keyOf [] history.reverse

/-!
## Touching
-/

def touch (keyOf : item -> key) (bound : Nat) (xs : List item) (x : item) : List item :=
  (x :: xs.filter (fun y => decide (keyOf y ≠ keyOf x))).take bound

theorem take_filter_take (keyOf : item -> key) (k : key) {xs : List item}
    (h : (xs.map keyOf).Nodup) (n : Nat) :
    ((xs.take (n + 1)).filter (fun y => decide (keyOf y ≠ k))).take n =
      (xs.filter (fun y => decide (keyOf y ≠ k))).take n := by
  induction xs generalizing n with
  | nil => rfl
  | cons x rest ih =>
      rw [List.map_cons, List.nodup_cons] at h
      rw [List.take_succ_cons]
      by_cases hk : keyOf x = k
      · have hrest : forall y, y ∈ rest -> decide (keyOf y ≠ k) = true := by
          intro y hy
          rw [decide_eq_true_iff, <- hk]
          intro heq
          exact h.left (List.mem_map.mpr ⟨y, hy, heq⟩)
        rw [List.filter_cons_of_neg (by simpa using hk), List.filter_cons_of_neg (by simpa using hk),
          List.filter_eq_self.mpr hrest,
          List.filter_eq_self.mpr (fun y hy => hrest y (List.mem_of_mem_take hy)),
          List.take_take, Nat.min_self]
      · rw [List.filter_cons_of_pos (by simpa using hk), List.filter_cons_of_pos (by simpa using hk)]
        cases n with
        | zero => rfl
        | succ n => rw [List.take_succ_cons, List.take_succ_cons, ih h.right n]

theorem touch_take (keyOf : item -> key) (bound : Nat) {xs : List item}
    (h : (xs.map keyOf).Nodup) (x : item) :
    touch keyOf bound (xs.take bound) x = touch keyOf bound xs x := by
  unfold touch
  cases bound with
  | zero => rfl
  | succ n => rw [List.take_succ_cons, List.take_succ_cons, take_filter_take keyOf _ h n]

theorem foldl_touch (keyOf : item -> key) (bound : Nat) (history : List item) :
    history.foldl (touch keyOf bound) [] = (latest keyOf history).take bound := by
  induction history using List.reverseRecOn with
  | nil => exact List.take_nil.symm
  | append_singleton history x ih =>
      rw [List.foldl_concat, ih, touch_take keyOf bound (latest_nodup keyOf history),
        latest_concat]
      rfl

end Foundation
end LodelineManager
