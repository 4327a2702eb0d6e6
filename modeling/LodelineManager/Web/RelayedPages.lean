import LodelineManager.Web.CursorWalk

/-!
# Pages that a source has passed on

A listing is asked for page by page, and every page is what the browser gets for an answer of
some source.  When the browser gets the cursor of the answer, the pages of a listing are
answers of the source, each asked from the cursor of the one before.
-/

namespace LodelineManager
namespace Web

open Foundation Go

/-- The cursors that answers are asked from, the first one from {lit}`c`. -/
def cursorsFrom {source : Type} (cursorOf : source -> Option ByteString) (c : Option ByteString) :
    List source -> List (Option ByteString)
  | [] => []
  | a :: rest => c :: cursorsFrom cursorOf (cursorOf a) rest

def lastCursor {source : Type} (cursorOf : source -> Option ByteString)
    (c : Option ByteString) : List source -> Option ByteString
  | [] => c
  | a :: rest => lastCursor cursorOf (cursorOf a) rest

/-- The pages are answers that came, each asked from the cursor of the one before. -/
structure RelayedPages {source page : Type} (cursorOf : source -> Option ByteString)
    (Came : source -> page -> Prop) (answers : List source) (d : InfiniteData page) : Prop where
  pages : List.Forall₂ Came answers d.pages
  params : d.pageParams = cursorsFrom cursorOf none answers

/-- What is loaded, and what is asked for next. -/
structure RelayedOk {source page : Type} (cursorOf : source -> Option ByteString)
    (Came : source -> page -> Prop) (q : PagedFleet page) : Prop where
  data : forall d, q.data = some d ->
    exists answers, answers ≠ [] ∧ RelayedPages cursorOf Came answers d
  fetching : forall f, q.fetching = some f -> exists answers,
    RelayedPages cursorOf Came answers f.got ∧
      f.cursor = lastCursor cursorOf none answers ∧ f.cursor ≠ some []

section

variable {source page : Type} {cursorOf : source -> Option ByteString}
  {Came : source -> page -> Prop} {nextCursor : page -> Option ByteString}
  {answers : List source} {d : InfiniteData page} {q q' : PagedFleet page}

theorem cursorsFrom_snoc (c : Option ByteString) (answers : List source) (a : source) :
    cursorsFrom cursorOf c (answers ++ [a]) =
      cursorsFrom cursorOf c answers ++ [lastCursor cursorOf c answers] := by
  induction answers generalizing c with
  | nil => rfl
  | cons first rest ih => exact congrArg (c :: ·) (ih _)

theorem lastCursor_snoc (c : Option ByteString) (answers : List source) (a : source) :
    lastCursor cursorOf c (answers ++ [a]) = cursorOf a := by
  induction answers generalizing c with
  | nil => rfl
  | cons first rest ih => exact ih _

theorem lastCursor_eq {c : ByteString} (h : lastCursor cursorOf none answers = some c) :
    exists a, a ∈ answers ∧ cursorOf a = some c := by
  rcases List.eq_nil_or_concat answers with hnil | ⟨front, a, hanswers⟩
  · rw [hnil] at h
    cases h
  · rw [List.concat_eq_append] at hanswers
    rw [hanswers, lastCursor_snoc] at h
    refine ⟨a, ?_, h⟩
    rw [hanswers]
    exact List.mem_append_right _ (List.mem_singleton_self a)

theorem getLast?_of_forall₂ {α β : Type} {R : α -> β -> Prop} {xs : List α} {ys : List β}
    (h : List.Forall₂ R xs ys) {y : β} (hy : ys.getLast? = some y) :
    exists front x, xs = front ++ [x] ∧ R x y := by
  rcases List.getLast?_eq_some_iff.mp hy with ⟨back, hback⟩
  rw [hback] at h
  have hreverse := List.forall₂_reverse_iff.mpr h
  rw [List.reverse_concat] at hreverse
  rcases List.forall₂_cons_right_iff.mp hreverse with ⟨x, rest, hxy, _, hxs⟩
  refine ⟨rest.reverse, x, ?_, hxy⟩
  rw [← List.reverse_reverse xs, hxs, List.reverse_cons]

theorem RelayedPages.nil : RelayedPages cursorOf Came [] ⟨[], []⟩ := ⟨.nil, rfl⟩

theorem RelayedPages.push (h : RelayedPages cursorOf Came answers d) {a : source} {p : page}
    (ha : Came a p) :
    RelayedPages cursorOf Came (answers ++ [a]) (d.push p (lastCursor cursorOf none answers)) where
  pages := List.rel_append h.pages (.cons ha .nil)
  params := by
    rw [cursorsFrom_snoc, ← h.params]
    rfl

theorem RelayedOk.withFetch (h : RelayedOk cursorOf Came q) {f : Fetch page}
    (hf : exists answers, RelayedPages cursorOf Came answers f.got ∧
      f.cursor = lastCursor cursorOf none answers ∧ f.cursor ≠ some []) :
    RelayedOk cursorOf Came { q with fetching := some f } where
  data := h.data
  fetching := by
    intro g hg
    cases hg
    exact hf

theorem relayedOk_mounted : RelayedOk cursorOf Came (PagedFleet.mounted : PagedFleet page) where
  data := by
    intro d hd
    cases hd
  fetching := by
    intro f hf
    cases hf
    refine ⟨[], RelayedPages.nil, rfl, ?_⟩
    intro hempty
    cases hempty

theorem RelayedOk.refetch (h : RelayedOk cursorOf Came q) : RelayedOk cursorOf Came q.refetch := by
  rcases q.refetch_cases with hsame | hstart
  · rw [hsame]
    exact h
  · rw [hstart]
    have hcursor : (PagedFleet.fromStart (q.data.getD ⟨[], []⟩)).cursor = none := by
      show (q.data.getD ⟨[], []⟩).pageParams.head?.join = none
      cases hdata : q.data with
      | none => rfl
      | some d =>
          rcases h.data d hdata with ⟨answers, _, hpages⟩
          rw [Option.getD_some, hpages.params]
          cases answers <;> rfl
    refine h.withFetch ⟨[], RelayedPages.nil, hcursor, ?_⟩
    rw [hcursor]
    intro hempty
    cases hempty

theorem RelayedOk.fail (h : RelayedOk cursorOf Came q) : RelayedOk cursorOf Came q.fail where
  data := h.data
  fetching := by
    intro f hf
    cases hf

variable (hnext : forall a p, Came a p -> nextCursor p = cursorOf a)

include hnext

theorem RelayedPages.next (h : RelayedPages cursorOf Came answers d) {c : ByteString}
    (hc : d.getNextPageParam nextCursor = some c) :
    some c = lastCursor cursorOf none answers ∧ c ≠ [] := by
  rcases getNextPageParam_eq_some hc with ⟨hlastNext, hne, _⟩
  rcases Option.bind_eq_some_iff.mp hlastNext with ⟨p, hlast, hp⟩
  rcases getLast?_of_forall₂ h.pages hlast with ⟨front, a, hanswers, hcame⟩
  refine ⟨?_, hne⟩
  rw [hanswers, lastCursor_snoc, ← hp]
  exact hnext a p hcame

theorem RelayedOk.goOn (h : RelayedOk cursorOf Came q)
    (hpages : RelayedPages cursorOf Came answers d) {c : ByteString}
    (hc : d.getNextPageParam nextCursor = some c) (n : Nat) :
    RelayedOk cursorOf Came
      { q with fetching := some { got := d, cursor := some c, wanted := n } } := by
  rcases hpages.next hnext hc with ⟨hbehind, hne⟩
  exact h.withFetch ⟨answers, hpages, hbehind, fun hempty => hne (Option.some.inj hempty)⟩

theorem RelayedOk.loadMore (h : RelayedOk cursorOf Came q) :
    RelayedOk cursorOf Came (q.loadMore nextCursor) := by
  cases hdata : q.data with
  | none =>
      have hstart : q.loadMore nextCursor = q ∨ q.loadMore nextCursor = q.refetch := by
        unfold PagedFleet.loadMore
        rw [hdata]
        split
        · exact Or.inl rfl
        · exact Or.inr rfl
        · rename_i hsome
          cases hsome
      rcases hstart with hsame | hstart
      · rw [hsame]
        exact h
      · rw [hstart]
        exact h.refetch
  | some d =>
      rcases PagedFleet.loadMore_cases nextCursor hdata with hsame | ⟨c, hc, hmore⟩
      · rw [hsame]
        exact h
      · rcases h.data d hdata with ⟨answers, _, hpages⟩
        rw [hmore]
        exact h.goOn hnext hpages hc 1

theorem RelayedOk.respond (h : RelayedOk cursorOf Came q) {f : Fetch page}
    (hf : q.fetching = some f) {a : source} {p : page} (ha : Came a p) :
    RelayedOk cursorOf Came (q.respond nextCursor f p) := by
  rcases h.fetching f hf with ⟨answers, hgot, hcursor, _⟩
  have hpush : RelayedPages cursorOf Came (answers ++ [a]) (f.got.push p f.cursor) := by
    rw [hcursor]
    exact hgot.push ha
  rcases q.respond_cases nextCursor f p with hdone | ⟨c, hc, hmore⟩
  · rw [hdone]
    constructor
    · intro d hd
      cases hd
      exact ⟨_, List.append_ne_nil_of_right_ne_nil _ (List.cons_ne_nil _ _), hpush⟩
    · intro g hg
      cases hg
  · rw [hmore]
    exact h.goOn hnext hpush hc (f.wanted - 1)

theorem relayedOk_step {l : QueryLabel page}
    (hl : forall p, l = .respond p -> exists a, Came a p) (h : RelayedOk cursorOf Came q)
    (hstep : q.step nextCursor l = some q') : RelayedOk cursorOf Came q' := by
  cases l with
  | poll =>
      cases hstep
      exact h.refetch
  | loadMore =>
      cases hstep
      exact h.loadMore hnext
  | respond p =>
      rcases hl p rfl with ⟨a, ha⟩
      cases hf : q.fetching with
      | none =>
          simp only [PagedFleet.step, hf] at hstep
          cases hstep
      | some f =>
          simp only [PagedFleet.step, hf] at hstep
          cases hstep
          exact h.respond hnext hf ha
  | fail =>
      cases hf : q.fetching with
      | none =>
          simp only [PagedFleet.step, hf] at hstep
          cases hstep
      | some f =>
          simp only [PagedFleet.step, hf] at hstep
          cases hstep
          exact h.fail

theorem relayedOk_run {label : Type} {base : label -> Option (QueryLabel page)}
    {labels : List label} (hlabels : forall l p, l ∈ labels -> base l = some (.respond p) ->
      exists a, Came a p)
    (hrun : runSteps (fun q l => (base l).bind (q.step nextCursor)) PagedFleet.mounted labels =
      some q) : RelayedOk cursorOf Came q := by
  have hsteps : forall s l s', l ∈ labels -> RelayedOk cursorOf Came s ->
      (base l).bind (s.step nextCursor) = some s' -> RelayedOk cursorOf Came s' := by
    intro s l s' hl h hstep
    rcases Option.bind_eq_some_iff.mp hstep with ⟨b, hbase, hquery⟩
    exact relayedOk_step hnext (fun p heq => hlabels l p hl (heq ▸ hbase)) h hquery
  exact run_invariant_on hsteps (fun _ hl => hl) relayedOk_mounted hrun

end

theorem RelayedOk.exists_cursor {source page : Type} {text : source -> Option String}
    {Came : source -> page -> Prop} {q : PagedFleet page}
    (h : RelayedOk (fun a => (text a).map utf8) Came q) {f : Fetch page}
    (hf : q.fetching = some f) :
    exists cursor : Option String, f.cursor = cursor.map utf8 ∧
      forall c, cursor = some c -> c ≠ "" ∧ exists a p, Came a p ∧ text a = some c := by
  rcases h.fetching f hf with ⟨answers, hpages, hcursor, hne⟩
  cases hc : f.cursor with
  | none =>
      refine ⟨none, rfl, ?_⟩
      intro c hnone
      cases hnone
  | some bytes =>
      rw [hcursor] at hc
      rcases lastCursor_eq hc with ⟨a, ha, hlast⟩
      rcases Option.map_eq_some_iff.mp hlast with ⟨s, hs, heq⟩
      refine ⟨some s, congrArg some heq.symm, ?_⟩
      intro c hsome
      rw [← Option.some.inj hsome]
      constructor
      · intro hempty
        rw [hcursor, hc, ← heq, hempty] at hne
        exact hne rfl
      · have hcame : forall b, b ∈ answers -> exists p, Came b p :=
          ((List.forall₂_and_left answers f.got.pages).mp
            (hpages.pages.imp (fun _ p hp => ⟨⟨p, hp⟩, hp⟩))).left
        rcases hcame a ha with ⟨p, hp⟩
        exact ⟨a, p, hp, hs⟩

end Web
end LodelineManager
