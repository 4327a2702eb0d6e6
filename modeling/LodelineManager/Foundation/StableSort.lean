import Mathlib.Data.List.Sort

/-!
# Stable sorts

A list has one stable sort.  A sort by one comparison is a stable sort by a second one
exactly when the two decide alike about every item and those that come after it in the
input.  The last part is about the sort of a language that promises this only for
comparisons that are consistent.
-/

namespace LodelineManager
namespace Foundation

universe u

variable {item : Type u}

/-- A list sorted by a relation, in which everything that was in order stays as it was. -/
structure StablySorted (s : item -> item -> Prop) (xs ys : List item) : Prop where
  perm : ys.Perm xs
  sorted : ys.Pairwise s
  stable : forall l, List.Sublist l xs -> l.Pairwise s -> List.Sublist l ys

theorem pair_sublist_of_mem {xs : List item} {x y : item} (hx : x ∈ xs) (hy : y ∈ xs)
    (hne : x ≠ y) : List.Sublist [x, y] xs ∨ List.Sublist [y, x] xs := by
  induction xs with
  | nil => cases hx
  | cons z rest ih =>
      rcases List.mem_cons.mp hx with rfl | hx'
      · rcases List.mem_cons.mp hy with rfl | hy'
        · exact absurd rfl hne
        · exact Or.inl ((List.singleton_sublist.mpr hy').cons_cons x)
      · rcases List.mem_cons.mp hy with rfl | hy'
        · exact Or.inr ((List.singleton_sublist.mpr hx').cons_cons y)
        · exact (ih hx' hy').imp (fun h => h.cons z) (fun h => h.cons z)

section

variable {r s : item -> item -> Prop} [DecidableRel r] [DecidableRel s]

theorem orderedInsert_congr {x : item} {ys : List item} (h : forall y, y ∈ ys -> (r x y <-> s x y)) :
    ys.orderedInsert r x = ys.orderedInsert s x := by
  induction ys with
  | nil => rfl
  | cons y rest ih =>
      have hrest := ih (fun z hz => h z (List.mem_cons_of_mem y hz))
      rw [List.orderedInsert_cons, List.orderedInsert_cons, hrest]
      by_cases hxy : r x y
      · rw [if_pos hxy, if_pos ((h y List.mem_cons_self).mp hxy)]
      · rw [if_neg hxy, if_neg (fun hs => hxy ((h y List.mem_cons_self).mpr hs))]

theorem insertionSort_congr {xs : List item} (h : xs.Pairwise (fun x y => r x y <-> s x y)) :
    xs.insertionSort r = xs.insertionSort s := by
  induction xs with
  | nil => rfl
  | cons x rest ih =>
      rcases List.pairwise_cons.mp h with ⟨hfirst, hrest⟩
      rw [List.insertionSort_cons, List.insertionSort_cons, ih hrest]
      apply orderedInsert_congr
      intro y hy
      exact hfirst y ((List.mem_insertionSort s).mp hy)

theorem stablySorted_insertionSort [Std.Total s] [IsTrans item s] (xs : List item) :
    StablySorted s xs (xs.insertionSort s) where
  perm := List.perm_insertionSort s xs
  sorted := List.pairwise_insertionSort s xs
  stable := fun _ hl hs => List.sublist_insertionSort hs hl

theorem insertionSort_append_sublist [Std.Total r] [IsTrans item r] (xs more : List item) :
    (xs.insertionSort r).Sublist ((xs ++ more).insertionSort r) := by
  induction xs with
  | nil => exact List.nil_sublist _
  | cons x rest ih =>
      rw [List.cons_append, List.insertionSort_cons, List.insertionSort_cons]
      exact ih.orderedInsert_sublist x (List.pairwise_insertionSort r (rest ++ more))

theorem stablySorted_iff [Std.Total r] [IsTrans item r] [Std.Total s] [IsTrans item s]
    {xs : List item} :
    StablySorted s xs (xs.insertionSort r) <-> xs.Pairwise (fun x y => r x y <-> s x y) := by
  constructor
  · intro h
    refine List.pairwise_iff_forall_sublist.mpr ?_
    intro x y hxs
    constructor
    · intro hxy
      have hout := List.pair_sublist_insertionSort hxy hxs
      exact List.pairwise_iff_forall_sublist.mp h.sorted hout
    · intro hxy
      have hout := h.stable [x, y] hxs (List.pairwise_pair.mpr hxy)
      exact List.pairwise_iff_forall_sublist.mp (List.pairwise_insertionSort r xs) hout
  · intro h
    rw [insertionSort_congr h]
    exact stablySorted_insertionSort xs

end

theorem StablySorted.congr {r s : item -> item -> Prop} {xs ys : List item}
    (h : forall x y, x ∈ xs -> y ∈ xs -> (r x y <-> s x y)) (hr : StablySorted r xs ys) :
    StablySorted s xs ys where
  perm := hr.perm
  sorted := hr.sorted.imp_of_mem
    (fun hx hy hxy => (h _ _ (hr.perm.mem_iff.mp hx) (hr.perm.mem_iff.mp hy)).mp hxy)
  stable := by
    intro l hl hs
    apply hr.stable l hl
    exact hs.imp_of_mem (fun hx hy hxy => (h _ _ (hl.subset hx) (hl.subset hy)).mpr hxy)

/-!
## There is one stable sort
-/

section

variable {s : item -> item -> Prop}

open Classical in
noncomputable def tiedWith (s : item -> item -> Prop) (a x : item) : Bool :=
  decide (s a x ∧ s x a)

open Classical in
theorem tiedWith_iff {a x : item} : tiedWith s a x = true <-> s a x ∧ s x a := decide_eq_true_iff

theorem tiedWith_self [Std.Total s] (a : item) : tiedWith s a a = true :=
  tiedWith_iff.mpr ⟨(Std.Total.total a a).elim id id, (Std.Total.total a a).elim id id⟩

theorem StablySorted.filter_eq [IsTrans item s] {xs ys : List item}
    (h : StablySorted s xs ys) (a : item) :
    ys.filter (tiedWith s a) = xs.filter (tiedWith s a) := by
  have htied : (xs.filter (tiedWith s a)).Pairwise s := by
    refine List.pairwise_of_forall_mem_list ?_
    intro x hx y hy
    have hxa := (tiedWith_iff.mp (List.mem_filter.mp hx).right).right
    have hay := (tiedWith_iff.mp (List.mem_filter.mp hy).right).left
    exact IsTrans.trans x a y hxa hay
  have hsub := (h.stable _ List.filter_sublist htied).filter (tiedWith s a)
  rw [List.filter_filter] at hsub
  simp only [Bool.and_self] at hsub
  exact (hsub.eq_of_length (h.perm.filter _).length_eq.symm).symm

theorem mem_of_filter_eq [Std.Total s] {ys zs : List item} {x : item}
    (h : forall a, ys.filter (tiedWith s a) = zs.filter (tiedWith s a)) (hx : x ∈ ys) : x ∈ zs := by
  have hin : x ∈ ys.filter (tiedWith s x) := List.mem_filter.mpr ⟨hx, tiedWith_self x⟩
  rw [h x] at hin
  exact List.mem_of_mem_filter hin

theorem eq_of_filter_eq [Std.Total s] {ys zs : List item} (hys : ys.Pairwise s)
    (hzs : zs.Pairwise s)
    (h : forall a, ys.filter (tiedWith s a) = zs.filter (tiedWith s a)) : ys = zs := by
  induction ys generalizing zs with
  | nil =>
      cases zs with
      | nil => rfl
      | cons z zs => cases mem_of_filter_eq (fun a => (h a).symm) (List.mem_cons_self (a := z))
  | cons y ys ih =>
      cases zs with
      | nil => cases mem_of_filter_eq h (List.mem_cons_self (a := y))
      | cons z zs =>
          have hrefl : forall x, s x x := fun x => (Std.Total.total x x).elim id id
          have hyz : s y z := by
            rcases List.mem_cons.mp (mem_of_filter_eq (fun a => (h a).symm) List.mem_cons_self) with
              heq | hin
            · rw [heq]
              exact hrefl y
            · exact (List.pairwise_cons.mp hys).left z hin
          have hzy : s z y := by
            rcases List.mem_cons.mp (mem_of_filter_eq h List.mem_cons_self) with heq | hin
            · rw [heq]
              exact hrefl z
            · exact (List.pairwise_cons.mp hzs).left y hin
          -- both are tied with the first item, so both are the first of its class
          have hfirst := h y
          rw [List.filter_cons_of_pos (tiedWith_self y),
            List.filter_cons_of_pos (tiedWith_iff.mpr ⟨hyz, hzy⟩)] at hfirst
          injection hfirst with heq _
          subst heq
          congr 1
          refine ih (List.pairwise_cons.mp hys).right (List.pairwise_cons.mp hzs).right ?_
          intro a
          have hrest := h a
          cases htie : tiedWith s a y with
          | true =>
              rw [List.filter_cons_of_pos htie, List.filter_cons_of_pos htie] at hrest
              injection hrest
          | false =>
              have hneg := ne_true_of_eq_false htie
              rw [List.filter_cons_of_neg hneg, List.filter_cons_of_neg hneg] at hrest
              exact hrest

theorem StablySorted.unique [Std.Total s] [IsTrans item s] {xs ys zs : List item}
    (hys : StablySorted s xs ys) (hzs : StablySorted s xs zs) : ys = zs :=
  eq_of_filter_eq hys.sorted hzs.sorted (fun a => (hys.filter_eq a).trans (hzs.filter_eq a).symm)

open Classical in
theorem exists_perm_not_stablySorted {xs : List item} {x y : item} (hx : x ∈ xs) (hy : y ∈ xs)
    (hne : x ≠ y) : exists ys, ys.Perm xs ∧ ¬ StablySorted s xs ys := by
  have hfront : forall {u v : item}, u ∈ xs -> v ∈ xs -> u ≠ v ->
      StablySorted s xs (xs.filter (· = u) ++ xs.filter (fun z => !decide (z = u))) ->
      s u v ∧ ¬ List.Sublist [v, u] (xs.filter (· = u) ++ xs.filter (fun z => !decide (z = u))) := by
    intro u v hu hv huv h
    constructor
    · refine (List.pairwise_append.mp h.sorted).right.right u ?_ v ?_
      · exact List.mem_filter.mpr ⟨hu, decide_eq_true rfl⟩
      · exact List.mem_filter.mpr ⟨hv, by simpa using huv.symm⟩
    · intro hsub
      rcases List.sublist_append_iff.mp hsub with ⟨l, l', heq, hl, hl'⟩
      cases l with
      | nil =>
          have hin : u ∈ l' := by
            rw [List.nil_append] at heq
            rw [← heq]
            exact List.mem_cons_of_mem v List.mem_cons_self
          simpa using (List.mem_filter.mp (hl'.subset hin)).right
      | cons w rest =>
          injection heq with hw _
          have hin := (List.mem_filter.mp (hl.subset List.mem_cons_self)).right
          exact huv ((hw.trans (of_decide_eq_true hin)).symm)
  by_contra hall
  have hevery : forall ys, ys.Perm xs -> StablySorted s xs ys :=
    fun ys hys => by_contra (fun hnot => hall ⟨ys, hys, hnot⟩)
  rcases hfront hx hy hne (hevery _ (List.filter_append_perm _ xs)) with ⟨hxy, hnot⟩
  rcases hfront hy hx hne.symm (hevery _ (List.filter_append_perm _ xs)) with ⟨hyx, hnot'⟩
  rcases pair_sublist_of_mem hx hy hne with hin | hin
  · exact hnot' ((hevery _ (List.filter_append_perm _ xs)).stable [x, y] hin
      (List.pairwise_pair.mpr hxy))
  · exact hnot ((hevery _ (List.filter_append_perm _ xs)).stable [y, x] hin
      (List.pairwise_pair.mpr hyx))

end

/-!
## Sorts by a comparison that may be no number
-/

section

variable {cmp : item -> item -> Option Int} {xs : List item}

def AtMost (cmp : item -> item -> Option Int) (x y : item) : Prop :=
  exists n, cmp x y = some n ∧ n <= 0

/-- Items of the list compare to numbers, and fall into classes that are in a line. -/
structure ConsistentComparator (cmp : item -> item -> Option Int) (xs : List item) : Prop where
  number : forall x y, x ∈ xs -> y ∈ xs -> exists n, cmp x y = some n
  opposite : forall x y m n, x ∈ xs -> y ∈ xs -> cmp x y = some m -> cmp y x = some n ->
    (m < 0 <-> 0 < n)
  trans : forall x y z, x ∈ xs -> y ∈ xs -> z ∈ xs -> AtMost cmp x y -> AtMost cmp y z ->
    AtMost cmp x z

/-- A sort that orders by consistent comparisons, and leaves open what others do. -/
structure ArraySort (item : Type u) where
  sort : (item -> item -> Option Int) -> List item -> List item
  perm : forall cmp xs, (sort cmp xs).Perm xs
  sorts : forall cmp xs, ConsistentComparator cmp xs -> StablySorted (AtMost cmp) xs (sort cmp xs)

theorem ConsistentComparator.total (h : ConsistentComparator cmp xs) {x y : item} (hx : x ∈ xs)
    (hy : y ∈ xs) : AtMost cmp x y ∨ AtMost cmp y x := by
  rcases h.number x y hx hy with ⟨m, hm⟩
  rcases h.number y x hy hx with ⟨n, hn⟩
  rcases Int.lt_or_le 0 m with hpos | hle
  · exact Or.inr ⟨n, hn, Int.le_of_lt ((h.opposite y x n m hy hx hn hm).mpr hpos)⟩
  · exact Or.inl ⟨m, hm, hle⟩

/-- Insertion, with a comparison that is no number taken for a tie. -/
def ArraySort.insertion : ArraySort item where
  sort := fun cmp xs => xs.insertionSort (fun x y => (cmp x y).getD 0 <= 0)
  perm := fun cmp xs => List.perm_insertionSort _ xs
  sorts := by
    classical
    intro cmp xs h
    -- the order of the items, with everything else behind them
    let within : item -> item -> Prop := fun x y => y ∉ xs ∨ x ∈ xs ∧ AtMost cmp x y
    have htotal : Std.Total within := by
      refine ⟨fun x y => ?_⟩
      by_cases hx : x ∈ xs
      · by_cases hy : y ∈ xs
        · exact (h.total hx hy).imp (fun hxy => Or.inr ⟨hx, hxy⟩) (fun hyx => Or.inr ⟨hy, hyx⟩)
        · exact Or.inl (Or.inl hy)
      · exact Or.inr (Or.inl hx)
    have htrans : IsTrans item within := by
      refine ⟨fun x y z hxy hyz => ?_⟩
      by_cases hz : z ∈ xs
      · rcases hyz with hnot | ⟨hy, hyz⟩
        · exact absurd hz hnot
        · rcases hxy with hnot | ⟨hx, hxy⟩
          · exact absurd hy hnot
          · exact Or.inr ⟨hx, h.trans x y z hx hy hz hxy hyz⟩
      · exact Or.inl hz
    have hmember : forall x y, x ∈ xs -> y ∈ xs -> (within x y <-> AtMost cmp x y) := by
      intro x y hx hy
      exact ⟨fun hxy => (hxy.resolve_left (not_not.mpr hy)).right, fun hxy => Or.inr ⟨hx, hxy⟩⟩
    have hsame : xs.insertionSort (fun x y => (cmp x y).getD 0 <= 0) = xs.insertionSort within := by
      apply insertionSort_congr
      refine List.pairwise_of_forall_mem_list ?_
      intro x hx y hy
      rcases h.number x y hx hy with ⟨n, hn⟩
      rw [hmember x y hx hy, hn, AtMost, hn]
      exact ⟨fun hle => ⟨n, rfl, hle⟩, fun ⟨m, hm, hle⟩ => Option.some.inj hm ▸ hle⟩
    rw [hsame]
    exact (stablySorted_insertionSort xs).congr hmember

open Classical in
theorem ArraySort.exists_sort (h : ¬ ConsistentComparator cmp xs) {ys : List item}
    (hys : ys.Perm xs) : exists js : ArraySort item, js.sort cmp xs = ys := by
  refine ⟨⟨fun cmp' xs' => if cmp' = cmp ∧ xs' = xs then ys else insertion.sort cmp' xs',
    ?_, ?_⟩, if_pos ⟨rfl, rfl⟩⟩
  · intro cmp' xs'
    by_cases hsame : cmp' = cmp ∧ xs' = xs
    · rw [if_pos hsame, hsame.right]
      exact hys
    · rw [if_neg hsame]
      exact insertion.perm cmp' xs'
  · intro cmp' xs' hconsistent
    have hother : ¬ (cmp' = cmp ∧ xs' = xs) := by
      rintro ⟨rfl, rfl⟩
      exact h hconsistent
    rw [if_neg hother]
    exact insertion.sorts cmp' xs' hconsistent

end

end Foundation
end LodelineManager
