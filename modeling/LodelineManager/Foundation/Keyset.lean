import Mathlib.Data.List.Nodup
import Mathlib.Data.List.Sort
import Mathlib.Order.Defs.LinearOrder

/-!
# Keyset pagination

A listing walks through rows in the order of their positions, a page at a time:
a page holds the first rows after a cursor, and the next cursor is the position
of its last row.  Between two pages the rows may change, but a changed row moves
ahead of every position in use.  Then the walk ends, returns rows in order and at
most once, and misses none that stayed.
-/

namespace LodelineManager
namespace Foundation
namespace Keyset

variable {row position : Type} [LinearOrder position]

def after (cursor : Option position) (p : position) : Bool :=
  match cursor with
  | none => true
  | some c => decide (c < p)

@[simp] theorem after_none (p : position) : after none p = true := rfl

@[simp] theorem after_some {c p : position} : after (some c) p = true <-> c < p :=
  decide_eq_true_iff

theorem after_of_lt {cursor : Option position} {p q : position}
    (hp : after cursor p = true) (hpq : p < q) : after cursor q = true := by
  cases cursor with
  | none => rfl
  | some c => exact after_some.mpr (lt_trans (after_some.mp hp) hpq)

section

variable (pos : row -> position) (wanted : row -> Bool)

/-- The rows of a page after a cursor, and the cursor of the next one. -/
structure IsPage (S : List row) (cursor : Option position) (rows : List row)
    (next : Option position) : Prop where
  sound : forall r, r ∈ rows -> r ∈ S ∧ wanted r = true ∧ after cursor (pos r) = true
  complete : forall r, r ∈ S -> wanted r = true -> after cursor (pos r) = true ->
    r ∈ rows ∨ exists p, next = some p ∧ p < pos r
  last : forall p, next = some p ->
    (exists r, r ∈ rows ∧ pos r = p) ∧ forall r, r ∈ rows -> pos r <= p
  sorted : rows.Pairwise (fun a b => pos a < pos b)

/-- Every row is an old one or ahead of all the old ones. -/
def Advances (S S' : List row) : Prop :=
  forall r, r ∈ S' -> r ∈ S ∨ forall q, q ∈ S -> pos r < pos q

/-- The pages of a walk with the rows each of them was taken from. -/
inductive Walk : Option position -> List row -> List (List row × List row) -> Prop where
  | last {cursor : Option position} {S rows : List row} :
      IsPage pos wanted S cursor rows none -> Walk cursor S [(S, rows)]
  | more {cursor : Option position} {S rows S' : List row} {p : position}
      {rest : List (List row × List row)} :
      IsPage pos wanted S cursor rows (some p) -> Advances pos S S' ->
      Walk (some p) S' rest -> Walk cursor S ((S, rows) :: rest)

def returned (steps : List (List row × List row)) : List row :=
  steps.flatMap Prod.snd

def remaining (cursor : Option position) (S : List row) : List row :=
  S.filter (fun r => wanted r && after cursor (pos r))

end

variable {pos : row -> position} {wanted : row -> Bool}

theorem mem_remaining {cursor : Option position} {S : List row} {r : row} :
    r ∈ remaining pos wanted cursor S <->
      r ∈ S ∧ wanted r = true ∧ after cursor (pos r) = true := by
  unfold remaining
  rw [List.mem_filter, Bool.and_eq_true]

/-!
## Pages of a sorted list
-/

theorem isPage_of_sorted {S found : List row} {cursor : Option position} {limit : Nat}
    (hmem : forall r, r ∈ found <-> r ∈ remaining pos wanted cursor S)
    (hsorted : found.Pairwise (fun a b => pos a < pos b)) (hlimit : 0 < limit)
    (next : Option position)
    (hnext : next = if found.length > limit then (found.take limit).getLast?.map pos else none) :
    IsPage pos wanted S cursor (found.take limit) next where
  sound := fun r hr => mem_remaining.mp ((hmem r).mp (List.mem_of_mem_take hr))
  complete := by
    intro r hr hwanted hafter
    have hfound : r ∈ found := (hmem r).mpr (mem_remaining.mpr ⟨hr, hwanted, hafter⟩)
    by_cases hlong : found.length > limit
    · rw [← List.take_append_drop limit found, List.mem_append] at hfound
      rcases hfound with htake | hdrop
      · exact Or.inl htake
      · apply Or.inr
        have hne : found.take limit ≠ [] := by
          intro hnil
          have hlen := congrArg List.length hnil
          rw [List.length_take, List.length_nil] at hlen
          omega
        refine ⟨pos ((found.take limit).getLast hne), ?_, ?_⟩
        · rw [hnext, if_pos hlong, List.getLast?_eq_getLast_of_ne_nil hne, Option.map_some]
        · rw [← List.take_append_drop limit found, List.pairwise_append] at hsorted
          exact hsorted.right.right _ (List.getLast_mem hne) r hdrop
    · apply Or.inl
      rw [List.take_of_length_le (Nat.le_of_not_lt hlong)]
      exact hfound
  last := by
    intro p hp
    rw [hnext] at hp
    split at hp
    · rcases Option.map_eq_some_iff.mp hp with ⟨q, hq, hqp⟩
      rcases List.getLast?_eq_some_iff.mp hq with ⟨front, hfront⟩
      have hmemq : q ∈ found.take limit := by
        rw [hfront]
        exact List.mem_append.mpr (Or.inr (List.mem_singleton.mpr rfl))
      constructor
      · exact ⟨q, hmemq, hqp⟩
      · intro r hr
        have hpage : (found.take limit).Pairwise (fun a b => pos a < pos b) :=
          hsorted.sublist (List.take_sublist limit found)
        rw [hfront] at hr hpage
        rcases List.mem_append.mp hr with hold | hlast
        · rw [← hqp]
          exact le_of_lt ((List.pairwise_append.mp hpage).right.right r hold q
            (List.mem_singleton.mpr rfl))
        · rw [List.mem_singleton.mp hlast, hqp]
    · cases hp
  sorted := hsorted.sublist (List.take_sublist limit found)

/-!
## Walks
-/

theorem mem_of_advances {S S' rows : List row} {cursor : Option position} {p : position}
    (hpage : IsPage pos wanted S cursor rows (some p)) (hadv : Advances pos S S') {r : row}
    (hr : r ∈ S') (hafter : p < pos r) : r ∈ S ∧ after cursor (pos r) = true := by
  rcases (hpage.last p rfl).left with ⟨q, hq, hqp⟩
  have hqS := hpage.sound q hq
  constructor
  · rcases hadv r hr with hold | hahead
    · exact hold
    · have hlt := hahead q hqS.left
      rw [hqp] at hlt
      exact absurd hlt (lt_asymm hafter)
  · apply after_of_lt hqS.right.right
    rw [hqp]
    exact hafter

theorem Walk.sound {cursor : Option position} {S : List row}
    {steps : List (List row × List row)} (h : Walk pos wanted cursor S steps) {r : row}
    (hr : r ∈ returned steps) : r ∈ S ∧ wanted r = true ∧ after cursor (pos r) = true := by
  induction h with
  | last hpage =>
      rw [returned, List.flatMap_cons, List.flatMap_nil, List.append_nil] at hr
      exact hpage.sound r hr
  | more hpage hadv _ ih =>
      rw [returned, List.flatMap_cons, List.mem_append] at hr
      rcases hr with hhead | htail
      · exact hpage.sound r hhead
      · rcases ih htail with ⟨hS', hwanted, hafter⟩
        rcases mem_of_advances hpage hadv hS' (after_some.mp hafter) with ⟨hS, hold⟩
        exact ⟨hS, hwanted, hold⟩

theorem Walk.sorted {cursor : Option position} {S : List row}
    {steps : List (List row × List row)} (h : Walk pos wanted cursor S steps) :
    (returned steps).Pairwise (fun a b => pos a < pos b) := by
  induction h with
  | last hpage =>
      rw [returned, List.flatMap_cons, List.flatMap_nil, List.append_nil]
      exact hpage.sorted
  | more hpage hadv hrest ih =>
      rw [returned, List.flatMap_cons, List.pairwise_append]
      refine ⟨hpage.sorted, ih, ?_⟩
      intro a ha b hb
      have hle := (hpage.last _ rfl).right a ha
      have hlt := after_some.mp (hrest.sound hb).right.right
      exact lt_of_le_of_lt hle hlt

theorem Walk.page_sorted {cursor : Option position} {S : List row}
    {steps : List (List row × List row)} (h : Walk pos wanted cursor S steps)
    {x : List row × List row} (hx : x ∈ steps) :
    x.2.Pairwise (fun a b => pos a < pos b) := by
  induction h with
  | last hpage =>
      cases List.mem_singleton.mp hx
      exact hpage.sorted
  | more hpage _ _ ih =>
      rcases List.mem_cons.mp hx with heq | htail
      · rw [heq]
        exact hpage.sorted
      · exact ih htail

theorem Walk.complete {cursor : Option position} {S : List row}
    {steps : List (List row × List row)} (h : Walk pos wanted cursor S steps) {r : row}
    (hstay : forall T rows, (T, rows) ∈ steps -> r ∈ T) (hwanted : wanted r = true)
    (hafter : after cursor (pos r) = true) : r ∈ returned steps := by
  induction h with
  | @last cursor S rows hpage =>
      rw [returned, List.flatMap_cons, List.flatMap_nil, List.append_nil]
      rcases hpage.complete r (hstay S rows List.mem_cons_self) hwanted hafter with hr | hnext
      · exact hr
      · rcases hnext with ⟨p, hp, _⟩
        cases hp
  | @more cursor S rows S' p rest hpage hadv _ ih =>
      rw [returned, List.flatMap_cons, List.mem_append]
      rcases hpage.complete r (hstay S rows List.mem_cons_self) hwanted hafter with hr | hnext
      · exact Or.inl hr
      · rcases hnext with ⟨q, hq, hlt⟩
        cases hq
        apply Or.inr
        exact ih (fun T rows hmem => hstay T rows (List.mem_cons_of_mem _ hmem))
          (after_some.mpr hlt)

theorem remaining_decreases {S S' rows : List row} {cursor : Option position} {p : position}
    (hpage : IsPage pos wanted S cursor rows (some p)) (hadv : Advances pos S S')
    (hnodup : S'.Nodup) :
    (remaining pos wanted (some p) S').length < (remaining pos wanted cursor S).length := by
  rcases (hpage.last p rfl).left with ⟨q, hq, hqp⟩
  have hqrem : q ∈ remaining pos wanted cursor S := mem_remaining.mpr (hpage.sound q hq)
  have hsub : (q :: remaining pos wanted (some p) S') ⊆ remaining pos wanted cursor S := by
    intro r hr
    rcases List.mem_cons.mp hr with heq | hlater
    · rw [heq]
      exact hqrem
    · rcases mem_remaining.mp hlater with ⟨hS', hwanted, hafter⟩
      rcases mem_of_advances hpage hadv hS' (after_some.mp hafter) with ⟨hS, hold⟩
      exact mem_remaining.mpr ⟨hS, hwanted, hold⟩
  have hnew : q ∉ remaining pos wanted (some p) S' := by
    intro hmem
    have hlt := after_some.mp (mem_remaining.mp hmem).right.right
    rw [hqp] at hlt
    exact lt_irrefl p hlt
  have hdistinct : (q :: remaining pos wanted (some p) S').Nodup :=
    List.nodup_cons.mpr ⟨hnew, hnodup.filter _⟩
  exact (List.subperm_of_subset hdistinct hsub).length_le

/-!
## Rows that only grow

When rows may be added anywhere, a walk still misses none of those that were there
when it began.
-/

/-- Pages fetched one after the other, each from the cursor of the one before: what they
hold of the rows {lit}`S0` there were at first and of the rows {lit}`S` there are now. -/
structure Chain (pos : row -> position) (wanted : row -> Bool) (S0 S : List row)
    (pages : List (List row)) (next : Option position) : Prop where
  sorted : pages.flatten.Pairwise (fun a b => pos a < pos b)
  sound : forall r, r ∈ pages.flatten -> r ∈ S ∧ wanted r = true
  complete : forall r, r ∈ S0 -> wanted r = true ->
    r ∈ pages.flatten ∨ exists p, next = some p ∧ p < pos r
  last : forall p, next = some p -> forall r, r ∈ pages.flatten -> pos r <= p
  filled : pages.length <= pages.flatten.length + 1
  full : next ≠ none -> pages.length <= pages.flatten.length

theorem IsPage.nonempty {S rows : List row} {cursor : Option position} {p : position}
    (h : IsPage pos wanted S cursor rows (some p)) : 1 <= rows.length := by
  rcases (h.last p rfl).left with ⟨r, hr, _⟩
  exact List.length_pos_of_mem hr

theorem Chain.first {S0 S rows : List row} {next : Option position}
    (h : IsPage pos wanted S none rows next) (hsub : S0 ⊆ S) :
    Chain pos wanted S0 S [rows] next where
  sorted := by
    rw [List.flatten_cons, List.flatten_nil, List.append_nil]
    exact h.sorted
  sound := by
    intro r hr
    rw [List.flatten_cons, List.flatten_nil, List.append_nil] at hr
    exact ⟨(h.sound r hr).left, (h.sound r hr).right.left⟩
  complete := by
    intro r hr hwanted
    rw [List.flatten_cons, List.flatten_nil, List.append_nil]
    exact h.complete r (hsub hr) hwanted rfl
  last := by
    intro p hp r hr
    rw [List.flatten_cons, List.flatten_nil, List.append_nil] at hr
    exact (h.last p hp).right r hr
  filled := Nat.succ_le_succ (Nat.zero_le _)
  full := by
    intro hnext
    rcases Option.ne_none_iff_exists'.mp hnext with ⟨p, hp⟩
    subst hp
    rw [List.flatten_cons, List.flatten_nil, List.append_nil]
    exact h.nonempty

theorem Chain.grow {S0 S S' : List row} {pages : List (List row)} {next : Option position}
    (h : Chain pos wanted S0 S pages next) (hsub : S ⊆ S') :
    Chain pos wanted S0 S' pages next :=
  { h with sound := fun r hr => ⟨hsub (h.sound r hr).left, (h.sound r hr).right⟩ }

theorem Chain.more {S0 S rows : List row} {pages : List (List row)} {p : position}
    {next : Option position} (h : Chain pos wanted S0 S pages (some p)) (hsub : S0 ⊆ S)
    (hpage : IsPage pos wanted S (some p) rows next) :
    Chain pos wanted S0 S (pages ++ [rows]) next where
  sorted := by
    rw [List.flatten_concat, List.pairwise_append]
    refine ⟨h.sorted, hpage.sorted, ?_⟩
    intro a ha b hb
    exact lt_of_le_of_lt (h.last p rfl a ha) (after_some.mp (hpage.sound b hb).right.right)
  sound := by
    intro r hr
    rw [List.flatten_concat] at hr
    rcases List.mem_append.mp hr with hold | hnew
    · exact h.sound r hold
    · exact ⟨(hpage.sound r hnew).left, (hpage.sound r hnew).right.left⟩
  complete := by
    intro r hr hwanted
    rw [List.flatten_concat]
    rcases h.complete r hr hwanted with hold | ⟨q, hq, hlt⟩
    · exact Or.inl (List.mem_append.mpr (Or.inl hold))
    · cases hq
      rcases hpage.complete r (hsub hr) hwanted (after_some.mpr hlt) with hnew | hlater
      · exact Or.inl (List.mem_append.mpr (Or.inr hnew))
      · exact Or.inr hlater
  last := by
    intro q hq r hr
    rw [List.flatten_concat] at hr
    rcases List.mem_append.mp hr with hold | hnew
    · rcases (hpage.last q hq).left with ⟨b, hb, hbq⟩
      have hahead := after_some.mp (hpage.sound b hb).right.right
      rw [← hbq]
      exact le_trans (h.last p rfl r hold) (le_of_lt hahead)
    · exact (hpage.last q hq).right r hnew
  filled := by
    have hfull := h.full (Option.some_ne_none p)
    rw [List.flatten_concat, List.length_append, List.length_append, List.length_singleton]
    exact Nat.succ_le_succ (Nat.le_add_right_of_le hfull)
  full := by
    intro hnext
    rcases Option.ne_none_iff_exists'.mp hnext with ⟨q, hq⟩
    subst hq
    have hfull := h.full (Option.some_ne_none p)
    rw [List.flatten_concat, List.length_append, List.length_append, List.length_singleton]
    exact Nat.add_le_add hfull hpage.nonempty

theorem Chain.length_le {S0 S : List row} {pages : List (List row)} {next : Option position}
    (h : Chain pos wanted S0 S pages next) : pages.length <= S.length + 1 := by
  have hnodup : pages.flatten.Nodup := by
    apply h.sorted.imp
    intro a b hlt heq
    rw [heq] at hlt
    exact lt_irrefl _ hlt
  have hle := (List.subperm_of_subset hnodup (fun r hr => (h.sound r hr).left)).length_le
  exact Nat.le_trans h.filled (Nat.succ_le_succ hle)

end Keyset
end Foundation
end LodelineManager
