import LodelineManager.Fleet.Mock
import LodelineManager.Foundation.FirstMatch
import LodelineManager.Foundation.Runs

/-!
# Paged listings of the browser

An infinite query asks for one page after the other, each from the cursor of the page
before, and a poll asks for all of them again from the first.  The listing is right
whatever events the server gains in between.
-/

namespace LodelineManager
namespace Web

open Foundation Fleet Go

/-- The pages in the order of their requests, and the cursor that each was asked from. -/
structure InfiniteData (page : Type) where
  pages : List page
  pageParams : List (Option ByteString)

namespace InfiniteData

variable {page row : Type}

def push (d : InfiniteData page) (p : page) (cursor : Option ByteString) : InfiniteData page :=
  { pages := d.pages ++ [p], pageParams := d.pageParams ++ [cursor] }

section

variable (nextCursor : page -> Option ByteString) (d : InfiniteData page)

/-- {lit}`q.data?.pages.at(-1)?.next_cursor`. -/
def next : Option ByteString := d.pages.getLast?.bind nextCursor

def getNextPageParam : Option ByteString :=
  match d.next nextCursor with
  | none => none
  | some c => if c ≠ [] ∧ some c ∉ d.pageParams then some c else none

def cursorRepeated : Bool :=
  match d.next nextCursor with
  | none => false
  | some c => decide (c ≠ []) && decide (some c ∈ d.pageParams)

end

def rows (select : page -> List row) (identity : row -> ByteString) (d : InfiniteData page) :
    List row :=
  keepFirst identity [] (d.pages.flatMap select)

end InfiniteData

/-- A request is on its way from {lit}`cursor`, the first of the {lit}`wanted` pages still
to come; those before are in {lit}`got`. -/
structure Fetch (page : Type) where
  got : InfiniteData page
  cursor : Option ByteString
  wanted : Nat

structure PagedFleet (page : Type) where
  data : Option (InfiniteData page)
  fetching : Option (Fetch page)

namespace PagedFleet

variable {page : Type} (nextCursor : page -> Option ByteString)

def fromStart (d : InfiniteData page) : Fetch page :=
  { got := ⟨[], []⟩, cursor := d.pageParams.head?.join, wanted := max 1 d.pages.length }

/-- Neither a poll nor {lit}`loadMore` cancels the fetch that is going on. -/
def refetch (q : PagedFleet page) : PagedFleet page :=
  match q.fetching with
  | some _ => q
  | none => { q with fetching := some (fromStart (q.data.getD ⟨[], []⟩)) }

def loadMore (q : PagedFleet page) : PagedFleet page :=
  match q.fetching, q.data with
  | some _, _ => q
  | none, none => q.refetch
  | none, some d =>
      match d.getNextPageParam nextCursor with
      | none => q
      | some c => { q with fetching := some { got := d, cursor := some c, wanted := 1 } }

def respond (q : PagedFleet page) (f : Fetch page) (p : page) : PagedFleet page :=
  let got := f.got.push p f.cursor
  match got.getNextPageParam nextCursor with
  | none => { data := some got, fetching := none }
  | some c =>
      if f.wanted <= 1 then { data := some got, fetching := none }
      else { q with fetching := some { got := got, cursor := some c, wanted := f.wanted - 1 } }

def fail (q : PagedFleet page) : PagedFleet page := { q with fetching := none }

def hasMore (q : PagedFleet page) : Bool :=
  match q.data with
  | none => false
  | some d => (d.getNextPageParam nextCursor).isSome

theorem refetch_cases (q : PagedFleet page) :
    q.refetch = q ∨
      q.refetch = { q with fetching := some (fromStart (q.data.getD ⟨[], []⟩)) } := by
  unfold refetch
  split
  · exact Or.inl rfl
  · exact Or.inr rfl

theorem loadMore_cases {q : PagedFleet page} {d : InfiniteData page} (hdata : q.data = some d) :
    q.loadMore nextCursor = q ∨ exists c, d.getNextPageParam nextCursor = some c ∧
      q.loadMore nextCursor =
        { q with fetching := some { got := d, cursor := some c, wanted := 1 } } := by
  unfold loadMore
  rw [hdata]
  split
  · exact Or.inl rfl
  · rename_i hnone
    cases hnone
  · rename_i hsome
    cases hsome
    cases hnext : d.getNextPageParam nextCursor with
    | none => exact Or.inl rfl
    | some c => exact Or.inr ⟨c, rfl, rfl⟩

theorem respond_cases (q : PagedFleet page) (f : Fetch page) (p : page) :
    q.respond nextCursor f p = { data := some (f.got.push p f.cursor), fetching := none } ∨
      exists c, (f.got.push p f.cursor).getNextPageParam nextCursor = some c ∧
        q.respond nextCursor f p =
          { q with
            fetching := some
              { got := f.got.push p f.cursor, cursor := some c, wanted := f.wanted - 1 } } := by
  unfold respond
  simp only
  split
  · exact Or.inl rfl
  · rename_i c hnext
    split
    · exact Or.inl rfl
    · exact Or.inr ⟨c, hnext, rfl⟩

end PagedFleet

/-!
## The events of the fleet
-/

def rowID (row : Fleet.Event) : ByteString := row.hostID ++ bytesOf ":" ++ row.eventID

/-- A listing of events and the server that it asks. -/
structure EventsListing where
  server : MockClient
  query : PagedFleet Fleet.EventsPage

inductive ListingLabel where
  | gain (m : MockClient)
  | poll
  | loadMore
  | respond
  | fail

namespace EventsListing

def mounted (m : MockClient) : EventsListing :=
  { server := m
    query := { data := none, fetching := some { got := ⟨[], []⟩, cursor := none, wanted := 1 } } }

/-- A cursor that is {lit}`undefined` is not sent. -/
def withCursor (p : EventsParams) (cursor : Option ByteString) : EventsParams :=
  { p with cursor := cursor.getD [] }

def step (p : EventsParams) (s : EventsListing) : ListingLabel -> Option EventsListing
  | .gain m => if s.server.events ⊆ m.events then some { s with server := m } else none
  | .poll => some { s with query := s.query.refetch }
  | .loadMore => some { s with query := s.query.loadMore Fleet.EventsPage.nextCursor }
  | .respond =>
      match s.query.fetching with
      | none => none
      | some f =>
          some { s with
            query := s.query.respond Fleet.EventsPage.nextCursor f
              (s.server.page (withCursor p f.cursor)) }
  | .fail =>
      match s.query.fetching with
      | none => none
      | some _ => some { s with query := s.query.fail }

def hasMore (s : EventsListing) : Bool := s.query.hasMore Fleet.EventsPage.nextCursor

def rows (s : EventsListing) : List Fleet.Event :=
  match s.query.data with
  | none => []
  | some d => d.rows Fleet.EventsPage.events rowID

end EventsListing

/-!
## Pages asked for one after the other
-/

/-- The loaded pages have missed none of the events {lit}`old`, and each request went
below all the cursors before it. -/
structure Chained (p : EventsParams) (old : List Fleet.Event) (m : MockClient)
    (d : InfiniteData Fleet.EventsPage) : Prop where
  chain : Keyset.Chain place (fun e => matchesEvent e p) old m.events
    (d.pages.map Fleet.EventsPage.events)
    ((d.next Fleet.EventsPage.nextCursor).map OrderDual.toDual)
  first : d.pageParams.head? = some none
  below : forall c, d.next Fleet.EventsPage.nextCursor = some c ->
    c ≠ [] ∧ forall b, some b ∈ d.pageParams -> c < b

section

variable {p : EventsParams} {old : List Fleet.Event} {m : MockClient}
  {d : InfiniteData Fleet.EventsPage}

theorem next_push (page : Fleet.EventsPage) (cursor : Option ByteString) :
    (d.push page cursor).next Fleet.EventsPage.nextCursor = page.nextCursor := by
  unfold InfiniteData.next InfiniteData.push
  rw [List.getLast?_concat]
  rfl

theorem chained_first (hold : old ⊆ m.events) :
    Chained p old m
      (InfiniteData.push ⟨[], []⟩ (m.page (EventsListing.withCursor p none)) none) where
  chain := by
    rw [next_push]
    exact Keyset.Chain.first (page_isPage m (EventsListing.withCursor p none)) hold
  first := rfl
  below := by
    intro c hc
    rw [next_push] at hc
    constructor
    · exact page_nextCursor_ne_nil hc
    · intro b hb
      cases List.mem_singleton.mp hb

theorem Chained.more (h : Chained p old m d) (hold : old ⊆ m.events) {c : ByteString}
    (hc : d.next Fleet.EventsPage.nextCursor = some c) :
    Chained p old m (d.push (m.page (EventsListing.withCursor p (some c))) (some c)) := by
  rcases h.below c hc with ⟨hne, hbelow⟩
  have hpage := page_isPage m (EventsListing.withCursor p (some c))
  have hplace : cursorPlace (EventsListing.withCursor p (some c)).cursor =
      some (OrderDual.toDual c) := if_neg hne
  rw [hplace] at hpage
  have hchain := h.chain
  rw [hc] at hchain
  constructor
  · rw [next_push]
    unfold InfiniteData.push
    rw [List.map_append]
    exact hchain.more hold hpage
  · show (d.pageParams ++ [some c]).head? = some none
    rw [List.head?_append, h.first]
    rfl
  · intro c' hc'
    rw [next_push] at hc'
    constructor
    · exact page_nextCursor_ne_nil hc'
    · -- the last event of the page is below the cursor that the page was asked from
      have hlt : c' < c := by
        have hlast := hpage.last (OrderDual.toDual c') (by rw [hc']; rfl)
        rcases hlast.left with ⟨e, he, hplace'⟩
        have hafter := Keyset.after_some.mp (hpage.sound e he).right.right
        rw [hplace'] at hafter
        exact hafter
      intro b hb
      rcases List.mem_append.mp hb with hearlier | hlast
      · exact lt_trans hlt (hbelow b hearlier)
      · cases List.mem_singleton.mp hlast
        exact hlt

theorem Chained.grow {m' : MockClient} (h : Chained p old m d) (hsub : m.events ⊆ m'.events) :
    Chained p old m' d where
  chain := h.chain.grow hsub
  first := h.first
  below := h.below

theorem Chained.getNextPageParam (h : Chained p old m d) :
    d.getNextPageParam Fleet.EventsPage.nextCursor = d.next Fleet.EventsPage.nextCursor := by
  unfold InfiniteData.getNextPageParam
  split
  · rename_i hnext
    exact hnext.symm
  · rename_i c hnext
    rcases h.below c hnext with ⟨hne, hbelow⟩
    rw [if_pos ⟨hne, fun hmem => lt_irrefl c (hbelow c hmem)⟩, hnext]

end

/-!
## Runs of the listing
-/

/-- Either nothing has been fetched yet, or the request goes on where the pages end. -/
def Continues (p : EventsParams) (old : List Fleet.Event) (m : MockClient)
    (f : Fetch Fleet.EventsPage) : Prop :=
  (f.got = ⟨[], []⟩ ∧ f.cursor = none) ∨
    Chained p old m f.got ∧ exists c, f.cursor = some c ∧
      f.got.next Fleet.EventsPage.nextCursor = some c

/-- What holds of a listing once its first page has arrived. -/
structure Listed (p : EventsParams) (old : List Fleet.Event) (s : EventsListing) : Prop where
  kept : old ⊆ s.server.events
  data : exists d, s.query.data = some d ∧ Chained p old s.server d
  fetching : forall f, s.query.fetching = some f -> Continues p old s.server f

section

variable {p : EventsParams} {old : List Fleet.Event} {s s' : EventsListing}

theorem Continues.push {m : MockClient} {f : Fetch Fleet.EventsPage}
    (h : Continues p old m f) (hold : old ⊆ m.events) :
    Chained p old m (f.got.push (m.page (EventsListing.withCursor p f.cursor)) f.cursor) := by
  rcases h with ⟨hgot, hcursor⟩ | ⟨hchained, c, hcursor, hnext⟩
  · rw [hgot, hcursor]
    exact chained_first hold
  · rw [hcursor]
    exact hchained.more hold hnext

theorem Continues.grow {m m' : MockClient} {f : Fetch Fleet.EventsPage}
    (h : Continues p old m f) (hsub : m.events ⊆ m'.events) : Continues p old m' f := by
  rcases h with hfirst | ⟨hchained, hcursor⟩
  · exact Or.inl hfirst
  · exact Or.inr ⟨hchained.grow hsub, hcursor⟩

theorem Listed.withFetch (h : Listed p old s) {f : Fetch Fleet.EventsPage}
    (hf : Continues p old s.server f) :
    Listed p old { s with query := { s.query with fetching := some f } } where
  kept := h.kept
  data := h.data
  fetching := by
    intro g hg
    cases hg
    exact hf

theorem Listed.withData (h : Listed p old s) {d : InfiniteData Fleet.EventsPage}
    (hd : Chained p old s.server d) :
    Listed p old { s with query := { data := some d, fetching := none } } where
  kept := h.kept
  data := ⟨d, rfl, hd⟩
  fetching := by
    intro f hf
    cases hf

theorem step_respond (h : s.step p .respond = some s') :
    exists f, s.query.fetching = some f ∧
      s' = { s with
        query := s.query.respond Fleet.EventsPage.nextCursor f
          (s.server.page (EventsListing.withCursor p f.cursor)) } := by
  cases hfetching : s.query.fetching with
  | none =>
      simp only [EventsListing.step, hfetching] at h
      cases h
  | some f =>
      simp only [EventsListing.step, hfetching] at h
      cases h
      exact ⟨f, rfl, rfl⟩

theorem listed_step {l : ListingLabel} (h : Listed p old s) (hstep : s.step p l = some s') :
    Listed p old s' := by
  rcases h.data with ⟨d, hdata, hchained⟩
  cases l with
  | gain m =>
      by_cases hsub : s.server.events ⊆ m.events
      · have hs' : some { s with server := m } = some s' := by
          rw [← hstep]
          exact (if_pos hsub).symm
        cases hs'
        constructor
        · exact fun e he => hsub (h.kept he)
        · exact ⟨d, hdata, hchained.grow hsub⟩
        · exact fun f hf => (h.fetching f hf).grow hsub
      · have hnone : none = some s' := by
          rw [← hstep]
          exact (if_neg hsub).symm
        cases hnone
  | poll =>
      cases hstep
      rcases s.query.refetch_cases with hsame | hstart
      · rw [hsame]
        exact h
      · rw [hstart]
        apply h.withFetch
        apply Or.inl
        constructor
        · rfl
        · show (s.query.data.getD ⟨[], []⟩).pageParams.head?.join = none
          rw [hdata, Option.getD_some, hchained.first]
          rfl
  | loadMore =>
      cases hstep
      rcases PagedFleet.loadMore_cases Fleet.EventsPage.nextCursor hdata with hsame | ⟨c, hc, hmore⟩
      · rw [hsame]
        exact h
      · rw [hmore]
        rw [hchained.getNextPageParam] at hc
        exact h.withFetch (Or.inr ⟨hchained, c, rfl, hc⟩)
  | respond =>
      rcases step_respond hstep with ⟨f, hfetching, hs'⟩
      rw [hs']
      have hpush := (h.fetching f hfetching).push h.kept
      rcases s.query.respond_cases Fleet.EventsPage.nextCursor f
        (s.server.page (EventsListing.withCursor p f.cursor)) with hdone | ⟨c, hc, hmore⟩
      · rw [hdone]
        exact h.withData hpush
      · rw [hmore]
        rw [hpush.getNextPageParam] at hc
        exact h.withFetch (Or.inr ⟨hpush, c, rfl, hc⟩)
  | fail =>
      cases hfetching : s.query.fetching with
      | none =>
          simp only [EventsListing.step, hfetching] at hstep
          cases hstep
      | some f =>
          simp only [EventsListing.step, hfetching] at hstep
          cases hstep
          constructor
          · exact h.kept
          · exact h.data
          · intro g hg
            cases hg

theorem listed_first {m : MockClient}
    (hstep : (EventsListing.mounted m).step p .respond = some s) : Listed p m.events s := by
  have hpush : Chained p m.events m
      (InfiniteData.push ⟨[], []⟩ (m.page (EventsListing.withCursor p none)) none) :=
    chained_first (List.Subset.refl _)
  have hs : s =
      { server := m
        query :=
          { data :=
              some (InfiniteData.push ⟨[], []⟩ (m.page (EventsListing.withCursor p none)) none)
            fetching := none } } := by
    rcases step_respond hstep with ⟨f, hf, hs⟩
    cases hf
    rw [hs]
    show EventsListing.mk m (PagedFleet.respond _ _ _ _) = _
    unfold PagedFleet.respond
    simp only
    split
    · rfl
    · rfl
  rw [hs]
  constructor
  · exact List.Subset.refl _
  · exact ⟨_, rfl, hpush⟩
  · intro f hf
    cases hf

theorem listed_run {m : MockClient} {labels : List ListingLabel}
    (hrun : runSteps (EventsListing.step p) (EventsListing.mounted m) (.respond :: labels) =
      some s) : Listed p m.events s := by
  rcases runSteps_cons hrun with ⟨mid, hfirst, hrest⟩
  exact run_invariant (fun _ _ _ h hstep => listed_step h hstep) (listed_first hfirst) hrest

theorem Chained.rows_sorted {m : MockClient} {d : InfiniteData Fleet.EventsPage}
    (h : Chained p old m d) :
    (d.rows Fleet.EventsPage.events rowID).Pairwise (fun a b => b.eventID < a.eventID) := by
  have hsorted := h.chain.sorted
  rw [← List.flatMap_def] at hsorted
  exact hsorted.sublist (keepFirst_sublist rowID [] _)

theorem Chained.rows_complete {m : MockClient} {d : InfiniteData Fleet.EventsPage}
    (h : Chained p old m d) (hdone : d.getNextPageParam Fleet.EventsPage.nextCursor = none)
    {e : Fleet.Event} (he : e ∈ old) (hmatch : matchesEvent e p = true) :
    exists row, row ∈ d.rows Fleet.EventsPage.events rowID ∧ row ∈ m.events ∧
      rowID row = rowID e := by
  have hmem : e ∈ d.pages.flatMap Fleet.EventsPage.events := by
    rw [h.getNextPageParam] at hdone
    rcases h.chain.complete e he hmatch with hloaded | ⟨c, hc, _⟩
    · rw [List.flatMap_def]
      exact hloaded
    · rw [hdone] at hc
      cases hc
  rcases exists_keepFirst rowID hmem List.not_mem_nil with ⟨row, hrow, hid⟩
  refine ⟨row, hrow, ?_, hid⟩
  have hloaded := (keepFirst_sublist rowID [] _).subset hrow
  rw [List.flatMap_def] at hloaded
  exact (h.chain.sound row hloaded).left

def EventsListing.loaded (s : EventsListing) : Nat :=
  match s.query.fetching, s.query.data with
  | some f, _ => f.got.pages.length
  | none, some d => d.pages.length
  | none, none => 0

theorem respond_loaded (h : Listed p old s) {f : Fetch Fleet.EventsPage}
    (hf : s.query.fetching = some f) :
    exists t, s.step p .respond = some t ∧ t.server = s.server ∧ Listed p old t ∧
      t.loaded = s.loaded + 1 ∧ t.loaded <= s.server.events.length + 1 := by
  have hpush := (h.fetching f hf).push h.kept
  have hlength := hpush.chain.length_le
  rw [List.length_map] at hlength
  have hloaded : s.loaded = f.got.pages.length := by
    unfold EventsListing.loaded
    rw [hf]
  have hmore : (f.got.push (s.server.page (EventsListing.withCursor p f.cursor))
      f.cursor).pages.length = s.loaded + 1 := by
    rw [hloaded]
    exact List.length_append
  have hstep : s.step p .respond = some { s with
      query := s.query.respond Fleet.EventsPage.nextCursor f
        (s.server.page (EventsListing.withCursor p f.cursor)) } := by
    simp only [EventsListing.step, hf]
  have hcount : EventsListing.loaded { s with
      query := s.query.respond Fleet.EventsPage.nextCursor f
        (s.server.page (EventsListing.withCursor p f.cursor)) } = s.loaded + 1 := by
    rw [← hmore]
    rcases s.query.respond_cases Fleet.EventsPage.nextCursor f
      (s.server.page (EventsListing.withCursor p f.cursor)) with hdone | ⟨c, _, hgoing⟩
    · rw [hdone]
      rfl
    · rw [hgoing]
      rfl
  refine ⟨_, hstep, rfl, listed_step h hstep, hcount, ?_⟩
  rw [hcount, ← hmore]
  exact hlength

theorem loadMore_fetches (h : Listed p old s) (hf : s.query.fetching = none)
    (hmore : s.hasMore = true) :
    exists t f, s.step p .loadMore = some t ∧ t.query.fetching = some f ∧
      t.server = s.server ∧ t.loaded = s.loaded := by
  rcases h.data with ⟨d, hdata, hchained⟩
  have hsome : (d.getNextPageParam Fleet.EventsPage.nextCursor).isSome = true := by
    unfold EventsListing.hasMore PagedFleet.hasMore at hmore
    rw [hdata] at hmore
    exact hmore
  rcases Option.isSome_iff_exists.mp hsome with ⟨c, hc⟩
  have hquery : s.query.loadMore Fleet.EventsPage.nextCursor =
      { s.query with fetching := some { got := d, cursor := some c, wanted := 1 } } := by
    unfold PagedFleet.loadMore
    rw [hf, hdata]
    simp only [hc, hdata]
  refine ⟨{ s with query := s.query.loadMore Fleet.EventsPage.nextCursor },
    { got := d, cursor := some c, wanted := 1 }, rfl, ?_, rfl, ?_⟩
  · exact congrArg PagedFleet.fetching hquery
  · unfold EventsListing.loaded
    rw [hquery, hf, hdata]

theorem loading_ends (h : Listed p old s) :
    exists more t, runSteps (EventsListing.step p) s more = some t ∧
      (forall l, l ∈ more -> l = .loadMore ∨ l = .respond) ∧ t.server = s.server ∧
      t.hasMore = false := by
  induction hleft : s.server.events.length + 1 - s.loaded using Nat.strong_induction_on
    generalizing s with
  | _ left ih =>
      -- one answer, then the rest of the loading
      have hanswer : forall u f, Listed p old u -> u.query.fetching = some f ->
          u.server = s.server -> u.loaded = s.loaded ->
          exists more t, runSteps (EventsListing.step p) u (.respond :: more) = some t ∧
            (forall l, l ∈ more -> l = .loadMore ∨ l = .respond) ∧ t.server = s.server ∧
            t.hasMore = false := by
        intro u f hu hf hserver hloaded
        rcases respond_loaded hu hf with ⟨t, hstep, hsame, ht, hcount, hbound⟩
        rw [hserver] at hsame hbound
        have hlt : t.server.events.length + 1 - t.loaded < left := by
          rw [hsame, ← hleft]
          omega
        rcases ih _ hlt ht rfl with ⟨more, t', hrun, honly, hserver', hdone⟩
        refine ⟨more, t', ?_, honly, hserver'.trans hsame, hdone⟩
        rw [runSteps_cons_of_step hstep]
        exact hrun
      cases hf : s.query.fetching with
      | some f =>
          rcases hanswer s f h hf rfl rfl with ⟨more, t, hrun, honly, hserver, hdone⟩
          refine ⟨.respond :: more, t, hrun, ?_, hserver, hdone⟩
          exact List.forall_mem_cons.mpr ⟨Or.inr rfl, honly⟩
      | none =>
          cases hmore : s.hasMore with
          | false => exact ⟨[], s, rfl, List.forall_mem_nil _, rfl, hmore⟩
          | true =>
              rcases loadMore_fetches h hf hmore with ⟨u, f, hstep, hfetching, hsame, hloaded⟩
              rcases hanswer u f (listed_step h hstep) hfetching hsame hloaded with
                ⟨more, t, hrun, honly, hserver, hdone⟩
              refine ⟨.loadMore :: .respond :: more, t, ?_, ?_, hserver, hdone⟩
              · rw [runSteps_cons_of_step hstep]
                exact hrun
              · exact List.forall_mem_cons.mpr
                  ⟨Or.inl rfl, List.forall_mem_cons.mpr ⟨Or.inr rfl, honly⟩⟩

end

/-- When there is no more to load, the rows have the identity of every matching event that
the first page was fetched among, and the event itself unless the server has another one
of that identity.  No identity comes twice, the rows stand in descending order, and
loading more comes to that end. -/
theorem load_all_rows (p : EventsParams) (m : MockClient) (labels : List ListingLabel)
    (s : EventsListing)
    (hrun : runSteps (EventsListing.step p) (EventsListing.mounted m) (.respond :: labels) =
      some s) :
    (s.hasMore = false ->
      forall e, e ∈ m.events -> matchesEvent e p = true ->
        (exists row, row ∈ s.rows ∧ rowID row = rowID e) ∧
        ((forall other, other ∈ s.server.events -> rowID other = rowID e -> other = e) ->
          e ∈ s.rows)) ∧
    (s.rows.map rowID).Nodup ∧
    s.rows.Pairwise (fun a b => b.eventID < a.eventID) ∧
    exists more t, runSteps (EventsListing.step p) s more = some t ∧
      (forall l, l ∈ more -> l = .loadMore ∨ l = .respond) ∧ t.server = s.server ∧
      t.hasMore = false := by
  have h := listed_run hrun
  rcases h.data with ⟨d, hdata, hchained⟩
  have hrows : s.rows = d.rows Fleet.EventsPage.events rowID := by
    unfold EventsListing.rows
    rw [hdata]
  rw [hrows]
  refine ⟨?_, keepFirst_nodup rowID [] _, hchained.rows_sorted, loading_ends h⟩
  intro hdone e he hmatch
  have hlast : d.getNextPageParam Fleet.EventsPage.nextCursor = none := by
    unfold EventsListing.hasMore PagedFleet.hasMore at hdone
    rw [hdata] at hdone
    exact Option.isNone_iff_eq_none.mp (Option.isSome_eq_false_iff.mp hdone)
  rcases hchained.rows_complete hlast he hmatch with ⟨row, hrow, hserver, hid⟩
  constructor
  · exact ⟨row, hrow, hid⟩
  · intro honly
    rw [← honly row hserver hid]
    exact hrow

/-!
## Two listings
-/

def pagesOfTwo : EventsParams :=
  { cursor := [], limit := 2, hostIDs := [], since := zeroTime, until_ := zeroTime,
    evidenceKinds := [], severity := [], source := [], minAiGuardBucket := [] }

def eventOf (host event : ByteString) : Fleet.Event :=
  { eventID := event, ts := 0, hostID := host, severity := [], kind := [],
    aiGuardBucket := none }

def threeEvents : MockClient :=
  { events := [eventOf [104] [101], eventOf [104] [99], eventOf [104] [97]]
    sorted := by decide }

def sevenEvents : MockClient :=
  { events := [eventOf [104] [102], eventOf [104] [101], eventOf [104] [100],
      eventOf [104] [99], eventOf [104] [98], eventOf [104] [97], eventOf [104] [96]]
    sorted := by decide }

theorem load_all_rows_sevenEvents :
    exists s, runSteps (EventsListing.step pagesOfTwo) (EventsListing.mounted threeEvents)
        [.respond, .gain sevenEvents, .loadMore, .respond, .loadMore, .respond] = some s ∧
      s.hasMore = false ∧ forall e, e ∈ threeEvents.events -> e ∈ s.rows := by
  have hrun : exists s, runSteps (EventsListing.step pagesOfTwo)
      (EventsListing.mounted threeEvents)
        [.respond, .gain sevenEvents, .loadMore, .respond, .loadMore, .respond] = some s ∧
      s.hasMore = false ∧ s.server = sevenEvents := ⟨_, rfl, rfl, rfl⟩
  rcases hrun with ⟨s, hs, hdone, hserver⟩
  refine ⟨s, hs, hdone, ?_⟩
  intro e he
  have hmatch : forall e, e ∈ threeEvents.events -> matchesEvent e pagesOfTwo = true := by
    decide
  have honly : forall other, other ∈ sevenEvents.events ->
      forall e, e ∈ threeEvents.events -> rowID other = rowID e -> other = e := by
    decide
  rcases (load_all_rows pagesOfTwo threeEvents _ s hs).left hdone e he (hmatch e he) with
    ⟨_, hrow⟩
  rw [hserver] at hrow
  exact hrow (fun other hother => honly other hother e he)

/-- The host {lit}`a:b` with the event {lit}`c`, and the host {lit}`a` with the event
{lit}`b:c`. -/
def oneIdentity : MockClient :=
  { events := [eventOf [97, 58, 98] [99], eventOf [97] [98, 58, 99]], sorted := by decide }

theorem not_load_all_rows_oneIdentity :
    exists s, runSteps (EventsListing.step pagesOfTwo) (EventsListing.mounted oneIdentity)
        [.respond] = some s ∧ s.hasMore = false ∧
      exists e, e ∈ oneIdentity.events ∧ matchesEvent e pagesOfTwo = true ∧ e ∉ s.rows := by
  refine ⟨_, rfl, rfl, eventOf [97] [98, 58, 99], by decide, by decide, ?_⟩
  decide

end Web
end LodelineManager
