import Mathlib.Data.List.Nodup
import Mathlib.Data.List.Basic

/-!
# Tables with a primary key

A table is a list of rows no two of which have the same key, so a table that
violates its key cannot be built.  Inserting a present key is refused; an update
may change anything but the key.
-/

namespace LodelineManager
namespace Foundation

structure KeyedTable {row key : Type} (keyOf : row -> key) where
  rows : List row
  pk : (rows.map keyOf).Nodup

namespace KeyedTable

variable {row key : Type} {keyOf : row -> key} [DecidableEq key]

def empty (keyOf : row -> key) : KeyedTable keyOf :=
  { rows := [], pk := List.nodup_nil }

def find? (t : KeyedTable keyOf) (k : key) : Option row :=
  t.rows.find? (fun r => decide (keyOf r = k))

/-- Add a row at the end; refused when its key is taken. -/
def insert? (t : KeyedTable keyOf) (r : row) : Option (KeyedTable keyOf) :=
  if h : keyOf r ∈ t.rows.map keyOf then none
  else
    some
      { rows := t.rows ++ [r]
        pk := by
          rw [List.map_append]
          refine List.Nodup.append t.pk (List.nodup_singleton _) ?_
          intro k hk hkr
          rw [List.map_cons, List.map_nil, List.mem_singleton] at hkr
          exact h (hkr ▸ hk) }

/-- Rewrite the row of a key. -/
def update (t : KeyedTable keyOf) (k : key) (f : row -> row)
    (hf : forall r, keyOf (f r) = keyOf r) : KeyedTable keyOf where
  rows := t.rows.map (fun r => if keyOf r = k then f r else r)
  pk := by
    have hkeys : (t.rows.map (fun r => if keyOf r = k then f r else r)).map keyOf =
        t.rows.map keyOf := by
      rw [List.map_map]
      apply List.map_congr_left
      intro r _
      show keyOf (if keyOf r = k then f r else r) = keyOf r
      split
      · exact hf r
      · rfl
    rw [hkeys]
    exact t.pk

omit [DecidableEq key] in
theorem eq_of_mem_of_key {t : KeyedTable keyOf} {r s : row}
    (hr : r ∈ t.rows) (hs : s ∈ t.rows) (h : keyOf r = keyOf s) : r = s :=
  List.inj_on_of_nodup_map t.pk hr hs h

theorem find?_eq_some_iff {t : KeyedTable keyOf} {k : key} {r : row} :
    t.find? k = some r <-> r ∈ t.rows ∧ keyOf r = k := by
  constructor
  · intro h
    exact ⟨List.mem_of_find?_eq_some h,
      by simpa using List.find?_some (p := fun r => decide (keyOf r = k)) h⟩
  · intro h
    cases hfind : t.find? k with
    | none =>
        have hnone := List.find?_eq_none.mp hfind r h.left
        simp [h.right] at hnone
    | some s =>
        have hs : s ∈ t.rows ∧ keyOf s = k :=
          ⟨List.mem_of_find?_eq_some hfind,
            by simpa using List.find?_some (p := fun r => decide (keyOf r = k)) hfind⟩
        rw [eq_of_mem_of_key hs.left h.left (hs.right.trans h.right.symm)]

theorem find?_eq_none_iff {t : KeyedTable keyOf} {k : key} :
    t.find? k = none <-> forall r, r ∈ t.rows -> keyOf r ≠ k := by
  constructor
  · intro h r hr
    simpa using List.find?_eq_none.mp h r hr
  · intro h
    apply List.find?_eq_none.mpr
    intro r hr
    simpa using h r hr

theorem insert?_of_find?_none {t : KeyedTable keyOf} {r : row} (h : t.find? (keyOf r) = none) :
    exists t', t.insert? r = some t' ∧ t'.rows = t.rows ++ [r] := by
  have hfree : ¬ keyOf r ∈ t.rows.map keyOf := by
    intro hmem
    rcases List.mem_map.mp hmem with ⟨s, hs, hkey⟩
    exact find?_eq_none_iff.mp h s hs hkey
  unfold insert?
  rw [dif_neg hfree]
  exact ⟨_, rfl, rfl⟩

theorem find?_of_rows_append {t t' : KeyedTable keyOf} {r : row}
    (hrows : t'.rows = t.rows ++ [r]) (k : key) :
    t'.find? k = if keyOf r = k then some r else t.find? k := by
  split
  · rename_i hk
    apply find?_eq_some_iff.mpr
    rw [hrows]
    exact ⟨List.mem_append.mpr (Or.inr (List.mem_singleton.mpr rfl)), hk⟩
  · rename_i hk
    unfold find?
    rw [hrows, List.find?_append]
    simp [hk]

theorem find?_update (t : KeyedTable keyOf) (k : key) (f : row -> row)
    (hf : forall r, keyOf (f r) = keyOf r) (k' : key) :
    (t.update k f hf).find? k' = if k' = k then (t.find? k').map f else t.find? k' := by
  cases hfind : t.find? k' with
  | none =>
      have hnone : (t.update k f hf).find? k' = none := by
        apply find?_eq_none_iff.mpr
        intro s hs
        rcases List.mem_map.mp hs with ⟨r, hr, hsr⟩
        have hkey : keyOf s = keyOf r := by
          rw [← hsr]
          split
          · exact hf r
          · rfl
        rw [hkey]
        exact find?_eq_none_iff.mp hfind r hr
      rw [hnone]
      split <;> rfl
  | some r =>
      have hr := find?_eq_some_iff.mp hfind
      split
      · rename_i hk
        apply find?_eq_some_iff.mpr
        refine ⟨List.mem_map.mpr ⟨r, hr.left, ?_⟩, ?_⟩
        · rw [if_pos (hr.right.trans hk)]
        · rw [hf]
          exact hr.right
      · rename_i hk
        apply find?_eq_some_iff.mpr
        refine ⟨List.mem_map.mpr ⟨r, hr.left, ?_⟩, hr.right⟩
        rw [if_neg (by rw [hr.right]; exact hk)]

end KeyedTable

end Foundation
end LodelineManager
