import LodelineManager.Web.PagedFleet
import Mathlib.Data.Finset.Card

/-!
# Walks over cursors that repeat

Whatever the answers of the server are, a listing never asks from one cursor twice, so it
ends when its cursors are among finitely many.
-/

namespace LodelineManager
namespace Web

open Foundation Go

variable {page row : Type}

/-!
## The hook with any answers
-/

inductive QueryLabel (page : Type) where
  | poll
  | loadMore
  | respond (p : page)
  | fail

namespace PagedFleet

def mounted : PagedFleet page :=
  { data := none, fetching := some { got := ⟨[], []⟩, cursor := none, wanted := 1 } }

def step (nextCursor : page -> Option ByteString) (q : PagedFleet page) :
    QueryLabel page -> Option (PagedFleet page)
  | .poll => some q.refetch
  | .loadMore => some (q.loadMore nextCursor)
  | .respond p =>
      match q.fetching with
      | none => none
      | some f => some (q.respond nextCursor f p)
  | .fail =>
      match q.fetching with
      | none => none
      | some _ => some q.fail

end PagedFleet

/-- The cursor of a page, unless it has none or an empty one, is in the set. -/
def CursorIn (nextCursor : page -> Option ByteString) (S : Finset ByteString) (p : page) : Prop :=
  forall c, nextCursor p = some c -> c ≠ [] -> c ∈ S

/-- The loaded pages of a walk: the first without a cursor, each other from a new one. -/
structure Walk (nextCursor : page -> Option ByteString) (S : Finset ByteString)
    (d : InfiniteData page) : Prop where
  cursorsIn : forall p, p ∈ d.pages -> CursorIn nextCursor S p
  length : d.pages.length = d.pageParams.length
  first : d.pageParams.head? = some none
  nodup : d.pageParams.Nodup
  params : forall c, some c ∈ d.pageParams -> c ∈ S

def Asks (nextCursor : page -> Option ByteString) (S : Finset ByteString) (f : Fetch page) :
    Prop :=
  (f.got = ⟨[], []⟩ ∧ f.cursor = none) ∨
    Walk nextCursor S f.got ∧ exists c, f.cursor = some c ∧
      f.got.getNextPageParam nextCursor = some c

section

variable {nextCursor : page -> Option ByteString} {S : Finset ByteString} {d : InfiniteData page}

theorem getNextPageParam_eq_some {c : ByteString} (h : d.getNextPageParam nextCursor = some c) :
    d.next nextCursor = some c ∧ c ≠ [] ∧ some c ∉ d.pageParams := by
  unfold InfiniteData.getNextPageParam at h
  split at h
  · cases h
  · rename_i c' hnext
    split at h
    · rename_i hnew
      cases h
      exact ⟨hnext, hnew⟩
    · cases h

theorem next_mem {c : ByteString} (h : d.next nextCursor = some c) :
    exists p, p ∈ d.pages ∧ nextCursor p = some c := by
  rcases Option.bind_eq_some_iff.mp h with ⟨p, hlast, hp⟩
  exact ⟨p, List.mem_of_getLast? hlast, hp⟩

theorem Walk.next (h : Walk nextCursor S d) {c : ByteString}
    (hc : d.getNextPageParam nextCursor = some c) : c ∈ S ∧ some c ∉ d.pageParams := by
  rcases getNextPageParam_eq_some hc with ⟨hnext, hne, hnew⟩
  rcases next_mem hnext with ⟨p, hp, hcursor⟩
  exact ⟨h.cursorsIn p hp c hcursor hne, hnew⟩

theorem Walk.length_le (h : Walk nextCursor S d) : d.pages.length <= S.card + 1 := by
  have hsub : d.pageParams.toFinset ⊆ insert none (S.image some) := by
    intro o ho
    cases o with
    | none => exact Finset.mem_insert_self none _
    | some c =>
        have hc := h.params c (List.mem_toFinset.mp ho)
        exact Finset.mem_insert_of_mem (Finset.mem_image_of_mem some hc)
  have hcard := Finset.card_le_card hsub
  rw [List.toFinset_card_of_nodup h.nodup, ← h.length] at hcard
  have hinsert := Finset.card_insert_le none (S.image some)
  have himage := Finset.card_image_le (s := S) (f := some)
  omega

theorem Asks.push {f : Fetch page} (h : Asks nextCursor S f) {p : page}
    (hp : CursorIn nextCursor S p) : Walk nextCursor S (f.got.push p f.cursor) := by
  rcases h with ⟨hgot, hcursor⟩ | ⟨hwalk, c, hcursor, hc⟩
  · rw [hgot, hcursor]
    constructor
    · intro p' hp'
      rw [List.mem_singleton.mp hp']
      exact hp
    · rfl
    · rfl
    · exact List.nodup_singleton none
    · intro c hc
      cases List.mem_singleton.mp hc
  · rcases hwalk.next hc with ⟨hin, hnew⟩
    rw [hcursor]
    constructor
    · intro p' hp'
      rcases List.mem_append.mp hp' with hold | hlast
      · exact hwalk.cursorsIn p' hold
      · rw [List.mem_singleton.mp hlast]
        exact hp
    · show (f.got.pages ++ [p]).length = (f.got.pageParams ++ [some c]).length
      rw [List.length_append, List.length_append, hwalk.length]
      rfl
    · show (f.got.pageParams ++ [some c]).head? = some none
      rw [List.head?_append, hwalk.first]
      rfl
    · show (f.got.pageParams ++ [some c]).Nodup
      rw [← List.concat_eq_append]
      exact hwalk.nodup.concat hnew
    · intro c' hc'
      rcases List.mem_append.mp hc' with hold | hlast
      · exact hwalk.params c' hold
      · cases List.mem_singleton.mp hlast
        exact hin

theorem Walk.length_lt {d : InfiniteData page} (h : Walk nextCursor S d) {c : ByteString}
    (hc : d.getNextPageParam nextCursor = some c) : d.pages.length <= S.card := by
  rcases next_mem (getNextPageParam_eq_some hc).left with ⟨p, hp, _⟩
  have hasks : Asks nextCursor S ⟨d, some c, 1⟩ := Or.inr ⟨h, c, rfl, hc⟩
  have hpush : (d.push p (some c)).pages.length <= S.card + 1 :=
    (hasks.push (h.cursorsIn p hp)).length_le
  have hlen : (d.push p (some c)).pages.length = d.pages.length + 1 := List.length_append
  omega

theorem Asks.requests_nodup {f : Fetch page} (h : Asks nextCursor S f) :
    (f.got.pageParams ++ [f.cursor]).Nodup := by
  rcases h with ⟨hgot, _⟩ | ⟨hwalk, c, hcursor, hc⟩
  · rw [hgot]
    exact List.nodup_singleton _
  · rw [hcursor, ← List.concat_eq_append]
    exact hwalk.nodup.concat (hwalk.next hc).right

/-- What has been loaded and what is asked for belong to walks. -/
structure Walked (nextCursor : page -> Option ByteString) (S : Finset ByteString)
    (q : PagedFleet page) : Prop where
  data : forall d, q.data = some d -> Walk nextCursor S d
  fetching : forall f, q.fetching = some f -> Asks nextCursor S f

theorem walked_mounted : Walked nextCursor S (PagedFleet.mounted : PagedFleet page) where
  data := by
    intro d hd
    cases hd
  fetching := by
    intro f hf
    cases hf
    exact Or.inl ⟨rfl, rfl⟩

theorem Walked.withFetch {q : PagedFleet page} (h : Walked nextCursor S q) {f : Fetch page}
    (hf : Asks nextCursor S f) : Walked nextCursor S { q with fetching := some f } where
  data := h.data
  fetching := by
    intro g hg
    cases hg
    exact hf

theorem Walked.refetch {q : PagedFleet page} (h : Walked nextCursor S q) :
    Walked nextCursor S q.refetch := by
  rcases q.refetch_cases with hsame | hstart
  · rw [hsame]
    exact h
  · rw [hstart]
    refine h.withFetch (Or.inl ⟨rfl, ?_⟩)
    show (q.data.getD ⟨[], []⟩).pageParams.head?.join = none
    cases hdata : q.data with
    | none => rfl
    | some d =>
        rw [Option.getD_some, (h.data d hdata).first]
        rfl

theorem Walked.loadMore {q : PagedFleet page} (h : Walked nextCursor S q) :
    Walked nextCursor S (q.loadMore nextCursor) := by
  cases hdata : q.data with
  | none =>
      have hstart : q.loadMore nextCursor = q ∨ q.loadMore nextCursor = q.refetch := by
        unfold PagedFleet.loadMore
        rw [hdata]
        split
        · exact Or.inl rfl
        · exact Or.inr rfl
        · rename_i hsome
          cases hsome
      rcases hstart with hsame | hstart
      · rw [hsame]
        exact h
      · rw [hstart]
        exact h.refetch
  | some d =>
      rcases PagedFleet.loadMore_cases nextCursor hdata with hsame | ⟨c, hc, hmore⟩
      · rw [hsame]
        exact h
      · rw [hmore]
        exact h.withFetch (Or.inr ⟨h.data d hdata, c, rfl, hc⟩)

theorem Walked.respond {q : PagedFleet page} (h : Walked nextCursor S q) {f : Fetch page}
    (hf : q.fetching = some f) {p : page} (hp : CursorIn nextCursor S p) :
    Walked nextCursor S (q.respond nextCursor f p) := by
  have hpush := (h.fetching f hf).push hp
  rcases q.respond_cases nextCursor f p with hdone | ⟨c, hc, hmore⟩
  · rw [hdone]
    constructor
    · intro d hd
      cases hd
      exact hpush
    · intro g hg
      cases hg
  · rw [hmore]
    exact h.withFetch (Or.inr ⟨hpush, c, rfl, hc⟩)

theorem Walked.fail {q : PagedFleet page} (h : Walked nextCursor S q) :
    Walked nextCursor S q.fail where
  data := h.data
  fetching := by
    intro f hf
    cases hf

/-- The answers of a run of the hook have cursors of the set. -/
def QueryLabel.CursorIn (nextCursor : page -> Option ByteString) (S : Finset ByteString) :
    QueryLabel page -> Prop
  | .respond p => Web.CursorIn nextCursor S p
  | _ => True

theorem walked_step {q q' : PagedFleet page} {l : QueryLabel page} (hl : l.CursorIn nextCursor S)
    (h : Walked nextCursor S q) (hstep : q.step nextCursor l = some q') :
    Walked nextCursor S q' := by
  cases l with
  | poll =>
      cases hstep
      exact h.refetch
  | loadMore =>
      cases hstep
      exact h.loadMore
  | respond p =>
      cases hf : q.fetching with
      | none =>
          simp only [PagedFleet.step, hf] at hstep
          cases hstep
      | some f =>
          simp only [PagedFleet.step, hf] at hstep
          cases hstep
          exact h.respond hf hl
  | fail =>
      cases hf : q.fetching with
      | none =>
          simp only [PagedFleet.step, hf] at hstep
          cases hstep
      | some f =>
          simp only [PagedFleet.step, hf] at hstep
          cases hstep
          exact h.fail

/-- The last page has no cursor, or an empty one. -/
def InfiniteData.LastPage (nextCursor : page -> Option ByteString) (d : InfiniteData page) : Prop :=
  d.next nextCursor = none ∨ d.next nextCursor = some []

theorem one_of_three (nextCursor : page -> Option ByteString) (d : InfiniteData page) :
    ((d.getNextPageParam nextCursor).isSome = true ∧ d.cursorRepeated nextCursor = false ∧
        ¬ d.LastPage nextCursor) ∨
      ((d.getNextPageParam nextCursor).isSome = false ∧ d.cursorRepeated nextCursor = true ∧
        ¬ d.LastPage nextCursor) ∨
      ((d.getNextPageParam nextCursor).isSome = false ∧ d.cursorRepeated nextCursor = false ∧
        d.LastPage nextCursor) := by
  unfold InfiniteData.getNextPageParam InfiniteData.cursorRepeated InfiniteData.LastPage
  cases d.next nextCursor with
  | none => exact Or.inr (Or.inr ⟨rfl, rfl, Or.inl rfl⟩)
  | some c =>
      by_cases hempty : c = []
      · subst hempty
        exact Or.inr (Or.inr ⟨rfl, rfl, Or.inr rfl⟩)
      · by_cases hold : some c ∈ d.pageParams
        · refine Or.inr (Or.inl ?_)
          simp [hempty, hold]
        · refine Or.inl ?_
          simp [hempty, hold]

end

/-!
## Loading page after page
-/

section

variable (nextCursor : page -> Option ByteString) (resp : Nat -> page)

def walkOf : Nat -> InfiniteData page
  | 0 => InfiniteData.push ⟨[], []⟩ (resp 0) none
  | n + 1 =>
      match (walkOf n).getNextPageParam nextCursor with
      | none => walkOf n
      | some c => (walkOf n).push (resp (n + 1)) (some c)

/-- The first answer, then {lit}`loadMore` and the next one so many times. -/
def loading : Nat -> List (QueryLabel page)
  | 0 => [.respond (resp 0)]
  | n + 1 => loading n ++ [.loadMore, .respond (resp (n + 1))]

/-- The walk has gone so far without coming to its end. -/
def GoesTo (n : Nat) : Prop := forall k, k < n ->
  ((walkOf nextCursor resp k).getNextPageParam nextCursor).isSome = true

variable {nextCursor resp}

theorem GoesTo.step {n : Nat} (h : GoesTo nextCursor resp (n + 1)) :
    GoesTo nextCursor resp n ∧
      exists c, (walkOf nextCursor resp n).getNextPageParam nextCursor = some c ∧
        walkOf nextCursor resp (n + 1) = (walkOf nextCursor resp n).push (resp (n + 1)) (some c) := by
  refine ⟨fun k hk => h k (Nat.lt_succ_of_lt hk), ?_⟩
  rcases Option.isSome_iff_exists.mp (h n (Nat.lt_succ_self n)) with ⟨c, hc⟩
  refine ⟨c, hc, ?_⟩
  rw [walkOf, hc]

theorem GoesTo.pages {n : Nat} (h : GoesTo nextCursor resp n) :
    (walkOf nextCursor resp n).pages = (List.range (n + 1)).map resp := by
  induction n with
  | zero => rfl
  | succ n ih =>
      rcases h.step with ⟨hbefore, c, _, hwalk⟩
      rw [hwalk, List.range_succ, List.map_append, ← ih hbefore]
      rfl

theorem respond_single (q : PagedFleet page) (d : InfiniteData page) (c : Option ByteString)
    (p : page) :
    q.respond nextCursor { got := d, cursor := c, wanted := 1 } p =
      { data := some (d.push p c), fetching := none } := by
  unfold PagedFleet.respond
  simp only
  split
  · rfl
  · rfl

theorem GoesTo.loads {n : Nat} (h : GoesTo nextCursor resp n) :
    runSteps (PagedFleet.step nextCursor) PagedFleet.mounted (loading resp n) =
      some { data := some (walkOf nextCursor resp n), fetching := none } := by
  induction n with
  | zero =>
      show some (PagedFleet.respond nextCursor _ _ (resp 0)) = _
      rw [respond_single]
      rfl
  | succ n ih =>
      rcases h.step with ⟨hbefore, c, hc, hwalk⟩
      rw [loading, runSteps_append, ih hbefore, Option.bind_some, hwalk]
      have hmore : PagedFleet.step nextCursor ⟨some (walkOf nextCursor resp n), none⟩ .loadMore =
          some ⟨some (walkOf nextCursor resp n),
            some ⟨walkOf nextCursor resp n, some c, 1⟩⟩ := by
        unfold PagedFleet.step PagedFleet.loadMore
        simp only [hc]
      rw [runSteps_cons_of_step hmore]
      show some (PagedFleet.respond nextCursor _ _ (resp (n + 1))) = _
      rw [respond_single]

theorem walk_ends {S : Finset ByteString} (hS : forall n, CursorIn nextCursor S (resp n)) :
    exists n, n <= S.card ∧ GoesTo nextCursor resp n ∧
      (walkOf nextCursor resp n).getNextPageParam nextCursor = none := by
  have hwalk : forall n, GoesTo nextCursor resp n ->
      Walk nextCursor S (walkOf nextCursor resp n) := by
    intro n
    induction n with
    | zero => exact fun _ => Asks.push (f := ⟨⟨[], []⟩, none, 1⟩) (Or.inl ⟨rfl, rfl⟩) (hS 0)
    | succ n ih =>
        intro h
        rcases h.step with ⟨hbefore, c, hc, heq⟩
        rw [heq]
        exact Asks.push (f := ⟨_, some c, 1⟩) (Or.inr ⟨ih hbefore, c, rfl, hc⟩) (hS (n + 1))
  have hend : exists n, (walkOf nextCursor resp n).getNextPageParam nextCursor = none := by
    by_contra hnever
    have hgoes : GoesTo nextCursor resp (S.card + 1) := by
      intro k _
      exact Option.isSome_iff_ne_none.mpr (fun hnone => hnever ⟨k, hnone⟩)
    have hlen := (hwalk _ hgoes).length_le
    rw [hgoes.pages, List.length_map, List.length_range] at hlen
    omega
  have hfirst : GoesTo nextCursor resp (Nat.find hend) := by
    intro k hk
    exact Option.isSome_iff_ne_none.mpr (Nat.find_min hend hk)
  refine ⟨Nat.find hend, ?_, hfirst, Nat.find_spec hend⟩
  have hlen := (hwalk _ hfirst).length_le
  rw [hfirst.pages, List.length_map, List.length_range] at hlen
  omega

end

end Web
end LodelineManager
