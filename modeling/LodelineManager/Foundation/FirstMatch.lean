import Mathlib.Data.List.Nodup

/-!
# Lists searched by a key that may repeat

A list is cleared of repeated keys by keeping the first item of each, and is
later searched by another key.  The search finds a given item exactly when no
item before it has the same search key.
-/

namespace LodelineManager
namespace Foundation

universe u v

variable {item : Type u} {key : Type v}

/-!
## The first item of each key
-/

def keepFirst [DecidableEq key] (keyOf : item -> key) : List key -> List item -> List item
  | _, [] => []
  | seen, x :: rest =>
      if keyOf x ∈ seen then keepFirst keyOf seen rest
      else x :: keepFirst keyOf (keyOf x :: seen) rest

theorem keepFirst_sublist [DecidableEq key] (keyOf : item -> key) (seen : List key)
    (xs : List item) : (keepFirst keyOf seen xs).Sublist xs := by
  induction xs generalizing seen with
  | nil => exact List.Sublist.refl []
  | cons x rest ih =>
      unfold keepFirst
      split
      · exact (ih seen).cons x
      · exact (ih (keyOf x :: seen)).cons_cons x

theorem keepFirst_not_seen [DecidableEq key] {keyOf : item -> key} {seen : List key}
    {xs : List item} {x : item} (h : x ∈ keepFirst keyOf seen xs) : keyOf x ∉ seen := by
  induction xs generalizing seen with
  | nil => cases h
  | cons y rest ih =>
      unfold keepFirst at h
      split at h
      · exact ih h
      · rename_i hnew
        cases h with
        | head => exact hnew
        | tail _ hrest => exact fun hseen => ih hrest (List.mem_cons_of_mem _ hseen)

theorem keepFirst_nodup [DecidableEq key] (keyOf : item -> key) (seen : List key)
    (xs : List item) : ((keepFirst keyOf seen xs).map keyOf).Nodup := by
  induction xs generalizing seen with
  | nil => exact List.nodup_nil
  | cons x rest ih =>
      unfold keepFirst
      split
      · exact ih seen
      · refine List.nodup_cons.mpr ⟨?_, ih (keyOf x :: seen)⟩
        intro hmem
        rcases List.mem_map.mp hmem with ⟨y, hy, hkey⟩
        apply keepFirst_not_seen hy
        rw [hkey]
        exact List.mem_cons_self

theorem exists_keepFirst [DecidableEq key] (keyOf : item -> key) {seen : List key}
    {xs : List item} {x : item} (hx : x ∈ xs) (hnew : keyOf x ∉ seen) :
    exists y, y ∈ keepFirst keyOf seen xs ∧ keyOf y = keyOf x := by
  induction xs generalizing seen with
  | nil => cases hx
  | cons z rest ih =>
      unfold keepFirst
      by_cases hkey : keyOf z = keyOf x
      · rw [if_neg (by rw [hkey]; exact hnew)]
        exact ⟨z, List.mem_cons_self, hkey⟩
      · have hrest : x ∈ rest := by
          rcases List.mem_cons.mp hx with heq | hrest
          · rw [heq] at hkey
            exact absurd rfl hkey
          · exact hrest
        split
        · exact ih hrest hnew
        · have hnew' : keyOf x ∉ keyOf z :: seen := by
            intro hmem
            rcases List.mem_cons.mp hmem with heq | hseen
            · exact hkey heq.symm
            · exact hnew hseen
          rcases ih hrest hnew' with ⟨y, hy, hyx⟩
          exact ⟨y, List.mem_cons_of_mem _ hy, hyx⟩

theorem forall₂_keepFirst {item' : Type*} [DecidableEq key] {keyOf : item -> key}
    {keyOf' : item' -> key} {R : item -> item' -> Prop} (hkey : forall x y, R x y ->
      keyOf x = keyOf' y) {xs : List item} {ys : List item'} (h : List.Forall₂ R xs ys)
    (seen : List key) : List.Forall₂ R (keepFirst keyOf seen xs) (keepFirst keyOf' seen ys) := by
  induction h generalizing seen with
  | nil => exact .nil
  | @cons x y xs ys hxy _ ih =>
      unfold keepFirst
      rw [hkey x y hxy]
      split
      · exact ih seen
      · exact .cons hxy (ih (keyOf' y :: seen))

/-!
## Searching
-/

/-- The item stands in the list and no item before it has its search key. -/
def FirstWith (searchKey : item -> key) (xs : List item) (x : item) : Prop :=
  exists front back, xs = front ++ x :: back ∧ forall y, y ∈ front -> searchKey y ≠ searchKey x

theorem find?_eq_some_iff_firstWith [DecidableEq key] {searchKey : item -> key}
    {xs : List item} {x : item} :
    xs.find? (fun y => decide (searchKey y = searchKey x)) = some x <->
      FirstWith searchKey xs x := by
  rw [List.find?_eq_some_iff_append]
  constructor
  · intro h
    rcases h.right with ⟨front, back, hxs, hfront⟩
    refine ⟨front, back, hxs, ?_⟩
    intro y hy
    simpa using hfront y hy
  · intro h
    rcases h with ⟨front, back, hxs, hfront⟩
    refine ⟨decide_eq_true rfl, front, back, hxs, ?_⟩
    intro y hy
    simpa using hfront y hy

theorem find?_isSome_of_mem [DecidableEq key] (searchKey : item -> key) {xs : List item}
    {x : item} (h : x ∈ xs) :
    exists y, xs.find? (fun y => decide (searchKey y = searchKey x)) = some y ∧ y ∈ xs ∧
      searchKey y = searchKey x := by
  cases hfind : xs.find? (fun y => decide (searchKey y = searchKey x)) with
  | none =>
      have hnone := List.find?_eq_none.mp hfind x h
      exact absurd (decide_eq_true rfl) hnone
  | some y =>
      refine ⟨y, rfl, List.mem_of_find?_eq_some hfind, ?_⟩
      simpa using List.find?_some hfind

end Foundation
end LodelineManager
