import Mathlib.Data.List.Basic

/-!
# Following next cursors

A listing is asked page after page, each from the cursor that the one before gave, until
a page gives none.  The answers need not depend on the cursor alone: the requests are
numbered.  When every cursor stands for the rows that are left, the pages are those rows;
when a walk can come back to a cursor, it never ends from there.
-/

namespace LodelineManager
namespace Foundation
namespace FollowCursors

variable {row cursor : Type} (fetch : Nat -> cursor -> List row × Option cursor)

def follow : Nat -> Nat -> cursor -> Option (List (List row))
  | 0, _, _ => none
  | fuel + 1, n, c =>
      match fetch n c with
      | (rows, none) => some [rows]
      | (rows, some next) => (follow fuel (n + 1) next).map (rows :: ·)

/-- The walk from a cursor ends, and its pages hold these rows one after the other. -/
def Returns (c : cursor) (rows : List row) : Prop :=
  exists fuel pages, follow fetch fuel 0 c = some pages ∧ pages.flatten = rows

variable {fetch}

theorem follow_last {n : Nat} {c : cursor} {rows : List row} (h : fetch n c = (rows, none))
    (fuel : Nat) : follow fetch (fuel + 1) n c = some [rows] := by
  unfold follow
  rw [h]

theorem follow_more {n : Nat} {c next : cursor} {rows : List row}
    (h : fetch n c = (rows, some next)) (fuel : Nat) :
    follow fetch (fuel + 1) n c = (follow fetch fuel (n + 1) next).map (rows :: ·) := by
  rw [follow, h]

/-!
## Cursors that stand for the rows left
-/

/-- A page is all that is left, or the first rows of it with a cursor for the others. -/
def Pages (Stands : cursor -> List row -> Prop)
    (fetch : Nat -> cursor -> List row × Option cursor) : Prop :=
  forall n c left, Stands c left -> fetch n c = (left, none) ∨
    exists k next, 0 < k ∧ k < left.length ∧ fetch n c = (left.take k, some next) ∧
      Stands next (left.drop k)

theorem follow_of_pages {Stands : cursor -> List row -> Prop} (h : Pages Stands fetch)
    {fuel n : Nat} {c : cursor} {left : List row} (hstands : Stands c left)
    (hfuel : left.length < fuel) :
    exists pages, follow fetch fuel n c = some pages ∧ pages.flatten = left := by
  induction fuel generalizing n c left with
  | zero => exact absurd hfuel (Nat.not_lt_zero _)
  | succ fuel ih =>
      rcases h n c left hstands with hlast | ⟨k, next, hpos, hk, hmore, hnext⟩
      · refine ⟨[left], follow_last hlast fuel, ?_⟩
        rw [List.flatten_cons, List.flatten_nil, List.append_nil]
      · have hshort : (left.drop k).length < fuel := by
          rw [List.length_drop]
          omega
        rcases ih (n := n + 1) hnext hshort with ⟨pages, hpages, hflat⟩
        refine ⟨left.take k :: pages, ?_, ?_⟩
        · rw [follow_more hmore, hpages]
          rfl
        · rw [List.flatten_cons, hflat, List.take_append_drop]

theorem returns_of_pages {Stands : cursor -> List row -> Prop} (h : Pages Stands fetch)
    {c : cursor} {left : List row} (hstands : Stands c left) : Returns fetch c left :=
  ⟨left.length + 1, follow_of_pages h hstands (Nat.lt_succ_self _)⟩

theorem follow_mono {fuel more n : Nat} {c : cursor} {pages : List (List row)}
    (h : follow fetch fuel n c = some pages) (hle : fuel <= more) :
    follow fetch more n c = some pages := by
  induction fuel generalizing more n c pages with
  | zero => cases h
  | succ fuel ih =>
      cases more with
      | zero => exact absurd hle (Nat.not_succ_le_zero fuel)
      | succ more =>
          cases hfetch : fetch n c with
          | mk rows next =>
              cases next with
              | none =>
                  rw [follow_last hfetch] at h ⊢
                  exact h
              | some next =>
                  rw [follow_more hfetch] at h ⊢
                  rcases Option.map_eq_some_iff.mp h with ⟨rest, hrest, hpages⟩
                  rw [ih hrest (Nat.le_of_succ_le_succ hle), Option.map_some, hpages]

theorem Returns.unique {c : cursor} {left left' : List row} (h : Returns fetch c left)
    (h' : Returns fetch c left') : left = left' := by
  rcases h with ⟨fuel, pages, hpages, hflat⟩
  rcases h' with ⟨fuel', pages', hpages', hflat'⟩
  have hmax := follow_mono hpages (Nat.le_max_left fuel fuel')
  rw [follow_mono hpages' (Nat.le_max_right fuel fuel')] at hmax
  cases hmax
  exact hflat.symm.trans hflat'

/-!
## Cursors that come back
-/

/-- The requests lead from one cursor to another. -/
inductive Leads (fetch : Nat -> cursor -> List row × Option cursor) :
    Nat -> cursor -> Nat -> cursor -> Prop where
  | refl {n : Nat} {c : cursor} : Leads fetch n c n c
  | step {n m : Nat} {c mid last : cursor} {rows : List row} : Leads fetch n c m mid ->
      fetch m mid = (rows, some last) -> Leads fetch n c (m + 1) last

theorem Leads.le {n m : Nat} {c last : cursor} (h : Leads fetch n c m last) : n <= m := by
  induction h with
  | refl => exact Nat.le_refl _
  | step _ _ ih => exact Nat.le_succ_of_le ih

theorem Leads.follow_none {n m : Nat} {c last : cursor} (h : Leads fetch n c m last) {fuel : Nat}
    (hend : forall fuel', fuel' + (m - n) <= fuel -> follow fetch fuel' m last = none) :
    follow fetch fuel n c = none := by
  induction h generalizing fuel with
  | refl => exact hend fuel (by omega)
  | step hlead hfetch ih =>
      have hle := hlead.le
      apply ih
      intro fuel' hfuel
      cases fuel' with
      | zero => rfl
      | succ fuel' =>
          rw [follow_more hfetch, hend fuel' (by omega)]
          rfl

theorem follow_none_of_cycle {c : cursor} (h : forall n, exists m, n < m ∧ Leads fetch n c m c)
    (fuel n : Nat) : follow fetch fuel n c = none := by
  induction fuel using Nat.strongRecOn generalizing n with
  | ind fuel ih =>
      rcases h n with ⟨m, hm, hlead⟩
      apply hlead.follow_none
      intro fuel' hfuel
      cases fuel with
      | zero =>
          have hzero : fuel' = 0 := by omega
          rw [hzero]
          rfl
      | succ fuel => exact ih fuel' (by omega) m

theorem not_returns_of_cycle {c : cursor} (h : forall n, exists m, n < m ∧ Leads fetch n c m c)
    (rows : List row) : ¬ Returns fetch c rows := by
  rintro ⟨fuel, pages, hpages, _⟩
  rw [follow_none_of_cycle h] at hpages
  cases hpages

end FollowCursors
end Foundation
end LodelineManager
