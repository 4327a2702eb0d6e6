import LodelineManager.Web.CursorWalk

/-!
# The look-up of a host in the compliance listing

The page of a host loads the compliance rows of the fleet until it finds that of its
host.  The module proves that it comes to an end, with the row when the listing has it.
-/

namespace LodelineManager
namespace Web

open Foundation Go

variable {page row : Type}

/-!
## The look-up on the page of a host
-/

/-- The compliance query of {lit}`HostDetailPage`, and whether it has an error. -/
structure Lookup (page : Type) where
  query : PagedFleet page
  failed : Bool

/-- {lit}`effect` is the effect of the page that loads more. -/
inductive LookupLabel (page : Type) where
  | effect
  | poll
  | respond (p : page)
  | fail

section

variable (nextCursor : page -> Option ByteString) (select : page -> List row)
  (identity : row -> ByteString) (hostID : ByteString)

/-- {lit}`compliance.rows.find((r) => r.host_id === hostId)`. -/
def Lookup.hostRow (s : Lookup page) : Option row :=
  match s.query.data with
  | none => none
  | some d => (d.rows select identity).find? (fun r => decide (identity r = hostID))

def Lookup.goesOn (s : Lookup page) : Bool :=
  (s.hostRow select identity hostID).isNone && s.query.hasMore nextCursor &&
    s.query.fetching.isNone && !s.failed

/-- A fetch that comes to its end takes the error away, and one that fails sets it. -/
def Lookup.step (s : Lookup page) : LookupLabel page -> Option (Lookup page)
  | .effect =>
      if s.goesOn nextCursor select identity hostID then
        some { s with query := s.query.loadMore nextCursor }
      else none
  | .poll => some { s with query := s.query.refetch }
  | .respond p =>
      match s.query.fetching with
      | none => none
      | some f =>
          let query := s.query.respond nextCursor f p
          some { query := query, failed := query.fetching.isSome && s.failed }
  | .fail =>
      match s.query.fetching with
      | none => none
      | some _ => some { query := s.query.fail, failed := true }

def Lookup.mounted : Lookup page := { query := PagedFleet.mounted, failed := false }

def lookingUp (resp : Nat -> page) : Nat -> List (LookupLabel page)
  | 0 => [.respond (resp 0)]
  | n + 1 => lookingUp resp n ++ [.effect, .respond (resp (n + 1))]

/-- A page has a row of the host. -/
def HasHost (p : page) : Prop := exists r, r ∈ select p ∧ identity r = hostID

variable {nextCursor select identity hostID}

theorem hostRow_isSome_iff {q : PagedFleet page} {d : InfiniteData page} (hdata : q.data = some d)
    (failed : Bool) :
    ((Lookup.mk q failed).hostRow select identity hostID).isSome = true <->
      exists p, p ∈ d.pages ∧ HasHost select identity hostID p := by
  unfold Lookup.hostRow
  simp only [hdata, List.find?_isSome, decide_eq_true_eq]
  constructor
  · rintro ⟨r, hr, hid⟩
    have hloaded := (keepFirst_sublist identity [] _).subset hr
    rcases List.mem_flatMap.mp hloaded with ⟨p, hp, hmem⟩
    exact ⟨p, hp, r, hmem, hid⟩
  · rintro ⟨p, hp, r, hr, hid⟩
    have hmem : r ∈ d.pages.flatMap select := List.mem_flatMap.mpr ⟨p, hp, hr⟩
    rcases exists_keepFirst identity hmem List.not_mem_nil with ⟨r', hr', hsame⟩
    exact ⟨r', hr', hsame.trans hid⟩

def Lookup.loaded (d : InfiniteData page) : Lookup page :=
  { query := { data := some d, fetching := none }, failed := false }

theorem goesOn_loaded (d : InfiniteData page) :
    (Lookup.loaded d).goesOn nextCursor select identity hostID = true <->
      (¬ exists p, p ∈ d.pages ∧ HasHost select identity hostID p) ∧
        (d.getNextPageParam nextCursor).isSome = true := by
  have hrow : ((Lookup.loaded d).hostRow select identity hostID).isSome = true <->
      exists p, p ∈ d.pages ∧ HasHost select identity hostID p := hostRow_isSome_iff rfl false
  have hmore : (Lookup.loaded d).query.hasMore nextCursor =
      (d.getNextPageParam nextCursor).isSome := rfl
  rw [← hrow]
  unfold Lookup.goesOn
  rw [hmore]
  show ((_ && _ && true && true) = true) <-> _
  rw [Bool.and_true, Bool.and_true, Bool.and_eq_true, Bool.not_eq_true, Option.isSome_eq_false_iff]

theorem step_effect {d : InfiniteData page} {c : ByteString}
    (hgo : (Lookup.loaded d).goesOn nextCursor select identity hostID = true)
    (hc : d.getNextPageParam nextCursor = some c) :
    (Lookup.loaded d).step nextCursor select identity hostID .effect =
      some ⟨⟨some d, some ⟨d, some c, 1⟩⟩, false⟩ := by
  unfold Lookup.step
  simp only [if_pos hgo]
  unfold Lookup.loaded PagedFleet.loadMore
  simp only [hc]

theorem GoesTo.looksUp {resp : Nat -> page} {n : Nat} (h : GoesTo nextCursor resp n)
    (hnot : forall k p, k < n -> p ∈ (walkOf nextCursor resp k).pages ->
      ¬ HasHost select identity hostID p) :
    runSteps (Lookup.step nextCursor select identity hostID) Lookup.mounted (lookingUp resp n) =
      some (Lookup.loaded (walkOf nextCursor resp n)) := by
  induction n with
  | zero =>
      show some (Lookup.mk (PagedFleet.respond nextCursor _ _ (resp 0)) _) = _
      rw [respond_single]
      rfl
  | succ n ih =>
      rcases h.step with ⟨hbefore, c, hc, hwalk⟩
      have hgo : (Lookup.loaded (walkOf nextCursor resp n)).goesOn nextCursor select identity
          hostID = true := by
        refine (goesOn_loaded _).mpr ⟨?_, h n (Nat.lt_succ_self n)⟩
        rintro ⟨p, hp, hhost⟩
        exact hnot n p (Nat.lt_succ_self n) hp hhost
      rw [lookingUp, runSteps_append, ih hbefore (fun k p hk => hnot k p (Nat.lt_succ_of_lt hk)),
        Option.bind_some, hwalk, runSteps_cons_of_step (step_effect hgo hc)]
      show some (Lookup.mk (PagedFleet.respond nextCursor _ _ (resp (n + 1))) _) = _
      rw [respond_single]
      rfl

theorem GoesTo.pages_subset {resp : Nat -> page} {k n : Nat} (h : GoesTo nextCursor resp n)
    (hk : k <= n) :
    (walkOf nextCursor resp k).pages ⊆ (walkOf nextCursor resp n).pages := by
  have hbefore : GoesTo nextCursor resp k := fun j hj => h j (Nat.lt_of_lt_of_le hj hk)
  rw [hbefore.pages, h.pages]
  apply List.map_subset
  intro j hj
  rw [List.mem_range] at hj ⊢
  omega

/-- The look-up comes to an end, with the row when some page of the whole walk has it. -/
theorem lookup_ends {resp : Nat -> page} {n : Nat} (h : GoesTo nextCursor resp n)
    (hend : (walkOf nextCursor resp n).getNextPageParam nextCursor = none) :
    exists k s, k <= n ∧
      runSteps (Lookup.step nextCursor select identity hostID) Lookup.mounted (lookingUp resp k) =
        some s ∧
      s.query.fetching = none ∧ s.failed = false ∧
      s.goesOn nextCursor select identity hostID = false ∧
      ((s.hostRow select identity hostID).isSome = true <->
        exists p, p ∈ (walkOf nextCursor resp n).pages ∧ HasHost select identity hostID p) := by
  classical
  let hasRow := fun k => exists p, p ∈ (walkOf nextCursor resp k).pages ∧
    HasHost select identity hostID p
  -- the look-up stops at the first page with the host, or at the end of the walk
  have hstop : exists k, k = n ∨ hasRow k := ⟨n, Or.inl rfl⟩
  have hle : Nat.find hstop <= n := Nat.find_le (Or.inl rfl)
  have hgoes : GoesTo nextCursor resp (Nat.find hstop) :=
    fun j hj => h j (Nat.lt_of_lt_of_le hj hle)
  have hnot : forall k p, k < Nat.find hstop -> p ∈ (walkOf nextCursor resp k).pages ->
      ¬ HasHost select identity hostID p :=
    fun k p hk hp hhost => Nat.find_min hstop hk (Or.inr ⟨p, hp, hhost⟩)
  have hrun := hgoes.looksUp hnot
  have hrow : ((Lookup.loaded (walkOf nextCursor resp (Nat.find hstop))).hostRow select identity
      hostID).isSome = true <-> hasRow (Nat.find hstop) := hostRow_isSome_iff rfl false
  refine ⟨Nat.find hstop, _, hle, hrun, rfl, rfl, ?_, ?_⟩
  · rw [← Bool.not_eq_true, goesOn_loaded]
    rintro ⟨hnone, hmore⟩
    rcases Nat.find_spec hstop with heq | hfound
    · rw [heq, hend] at hmore
      cases hmore
    · exact hnone hfound
  · refine hrow.trans ⟨?_, ?_⟩
    · rintro ⟨p, hp, hhost⟩
      exact ⟨p, h.pages_subset hle hp, hhost⟩
    · rintro ⟨p, hp, hhost⟩
      rcases Nat.find_spec hstop with heq | hfound
      · rw [heq]
        exact ⟨p, hp, hhost⟩
      · exact hfound

/-!
## How often the effect loads more
-/

def LookupLabel.query : LookupLabel page -> QueryLabel page
  | .effect => .loadMore
  | .poll => .poll
  | .respond p => .respond p
  | .fail => .fail

def LookupLabel.isEffect : LookupLabel page -> Bool
  | .effect => true
  | _ => false

def LookupLabel.isPoll : LookupLabel page -> Bool
  | .poll => true
  | _ => false

theorem step_query {s s' : Lookup page} {l : LookupLabel page}
    (h : s.step nextCursor select identity hostID l = some s') :
    s.query.step nextCursor l.query = some s'.query := by
  cases l with
  | effect =>
      unfold Lookup.step at h
      simp only at h
      split at h
      · cases h
        rfl
      · cases h
  | poll =>
      cases h
      rfl
  | respond p =>
      unfold Lookup.step at h
      unfold PagedFleet.step LookupLabel.query
      cases hf : s.query.fetching with
      | none =>
          simp only [hf] at h
          cases h
      | some f =>
          simp only [hf] at h
          cases h
          rfl
  | fail =>
      unfold Lookup.step at h
      unfold PagedFleet.step LookupLabel.query
      cases hf : s.query.fetching with
      | none =>
          simp only [hf] at h
          cases h
      | some f =>
          simp only [hf] at h
          cases h
          rfl

variable {S : Finset ByteString}

def Lookup.left (S : Finset ByteString) (s : Lookup page) : Nat :=
  match s.query.fetching, s.query.data with
  | some f, _ => S.card - f.got.pages.length
  | none, some d => if s.failed then 0 else S.card + 1 - d.pages.length
  | none, none => 0

theorem left_effect {s s' : Lookup page} (h : Walked nextCursor S s.query)
    (hstep : s.step nextCursor select identity hostID .effect = some s') :
    s'.left S + 1 = s.left S := by
  unfold Lookup.step at hstep
  simp only at hstep
  split at hstep
  · rename_i hgo
    cases hstep
    unfold Lookup.goesOn PagedFleet.hasMore at hgo
    simp only [Bool.and_eq_true, Option.isNone_iff_eq_none, Bool.not_eq_true'] at hgo
    rcases hgo with ⟨⟨⟨_, hmore⟩, hidle⟩, hfailed⟩
    cases hdata : s.query.data with
    | none =>
        rw [hdata] at hmore
        cases hmore
    | some d =>
        simp only [hdata] at hmore
        rcases Option.isSome_iff_exists.mp hmore with ⟨c, hc⟩
        have hlen := (h.data d hdata).length_lt hc
        have hquery : s.query.loadMore nextCursor =
            { s.query with fetching := some { got := d, cursor := some c, wanted := 1 } } := by
          unfold PagedFleet.loadMore
          simp only [hidle, hdata, hc]
        unfold Lookup.left
        rw [hquery, hidle, hdata, hfailed]
        simp only [Bool.false_eq_true, if_false]
        omega
  · cases hstep

theorem left_respond {s s' : Lookup page} {p : page}
    (hstep : s.step nextCursor select identity hostID (.respond p) = some s') :
    s'.left S <= s.left S := by
  unfold Lookup.step at hstep
  cases hf : s.query.fetching with
  | none =>
      simp only [hf] at hstep
      cases hstep
  | some f =>
      simp only [hf] at hstep
      cases hstep
      have hlen : (f.got.push p f.cursor).pages.length = f.got.pages.length + 1 := List.length_append
      rcases s.query.respond_cases nextCursor f p with hdone | ⟨c, _, hmore⟩
      · unfold Lookup.left
        simp only [hdone, hf, Option.isSome_none, Bool.false_and, Bool.false_eq_true, if_false]
        omega
      · unfold Lookup.left
        simp only [hmore, hf]
        omega

theorem left_fail {s s' : Lookup page}
    (hstep : s.step nextCursor select identity hostID .fail = some s') : s'.left S = 0 := by
  unfold Lookup.step at hstep
  cases hf : s.query.fetching with
  | none =>
      simp only [hf] at hstep
      cases hstep
  | some f =>
      simp only [hf] at hstep
      cases hstep
      unfold Lookup.left PagedFleet.fail
      cases s.query.data with
      | none => rfl
      | some d => rfl

theorem effects_le {s s' : Lookup page} {labels : List (LookupLabel page)}
    (h : Walked nextCursor S s.query)
    (hin : forall l, l ∈ labels -> l.query.CursorIn nextCursor S)
    (hpoll : forall l, l ∈ labels -> l.isPoll = false)
    (hrun : runSteps (Lookup.step nextCursor select identity hostID) s labels = some s') :
    labels.countP LookupLabel.isEffect <= s.left S := by
  induction labels generalizing s with
  | nil => exact Nat.zero_le _
  | cons l rest ih =>
      rcases runSteps_cons hrun with ⟨mid, hstep, hrest⟩
      rcases List.forall_mem_cons.mp hin with ⟨hl, hin'⟩
      rcases List.forall_mem_cons.mp hpoll with ⟨hnot, hpoll'⟩
      have htail := ih (walked_step hl h (step_query hstep)) hin' hpoll' hrest
      rw [List.countP_cons]
      cases l with
      | effect =>
          have hleft := left_effect h hstep
          simp only [LookupLabel.isEffect, if_true]
          omega
      | poll => cases hnot
      | respond p =>
          have hleft := left_respond (S := S) hstep
          simp only [LookupLabel.isEffect, Bool.false_eq_true, if_false]
          omega
      | fail =>
          have hleft := left_fail (S := S) hstep
          simp only [LookupLabel.isEffect, Bool.false_eq_true, if_false]
          omega

theorem left_le {s : Lookup page} (h : Walked nextCursor S s.query) : s.left S <= S.card := by
  unfold Lookup.left
  cases s.query.fetching with
  | some f => exact Nat.sub_le _ _
  | none =>
      cases hdata : s.query.data with
      | none => exact Nat.zero_le _
      | some d =>
          have hwalk := h.data d hdata
          have hpos : 0 < d.pages.length := by
            rw [hwalk.length]
            cases hparams : d.pageParams with
            | nil =>
                have hfirst := hwalk.first
                rw [hparams] at hfirst
                cases hfirst
            | cons o rest => exact Nat.succ_pos _
          simp only
          split
          · exact Nat.zero_le _
          · omega

end

/-- With cursors of a finite set, whatever their order: a listing asks from no cursor twice
in a walk, has at most one page more than there are cursors, and after each loaded page
either has more, or has met a repeated cursor, or is at the last page.  Loading more and
the look-up of a host come to an end, the look-up with the row when a page of the walk
has it, and between two polls it loads more at most once for each cursor. -/
theorem walks_end {nextCursor : page -> Option ByteString} {S : Finset ByteString}
    {resp : Nat -> page} (select : page -> List row) (identity : row -> ByteString)
    (hostID : ByteString) (hS : forall n, CursorIn nextCursor S (resp n)) :
    (forall labels q, (forall l, l ∈ labels -> l.CursorIn nextCursor S) ->
      runSteps (PagedFleet.step nextCursor) PagedFleet.mounted labels = some q ->
      (forall f, q.fetching = some f -> (f.got.pageParams ++ [f.cursor]).Nodup) ∧
      forall d, q.data = some d -> d.pageParams.Nodup ∧ d.pages.length <= S.card + 1 ∧
        ((q.hasMore nextCursor = true ∧ d.cursorRepeated nextCursor = false ∧
            ¬ d.LastPage nextCursor) ∨
          (q.hasMore nextCursor = false ∧ d.cursorRepeated nextCursor = true ∧
            ¬ d.LastPage nextCursor) ∨
          (q.hasMore nextCursor = false ∧ d.cursorRepeated nextCursor = false ∧
            d.LastPage nextCursor))) ∧
    (exists n q, n <= S.card ∧
      runSteps (PagedFleet.step nextCursor) PagedFleet.mounted (loading resp n) = some q ∧
      q.data = some (walkOf nextCursor resp n) ∧ q.fetching = none ∧
      q.hasMore nextCursor = false ∧
      (walkOf nextCursor resp n).pages = (List.range (n + 1)).map resp ∧
      exists k s, k <= n ∧
        runSteps (Lookup.step nextCursor select identity hostID) Lookup.mounted
          (lookingUp resp k) = some s ∧
        s.query.fetching = none ∧ s.failed = false ∧
        s.goesOn nextCursor select identity hostID = false ∧
        ((s.hostRow select identity hostID).isSome = true <->
          exists p, p ∈ (walkOf nextCursor resp n).pages ∧ HasHost select identity hostID p)) ∧
    (forall before more s s', (forall l, l ∈ before ++ more -> l.query.CursorIn nextCursor S) ->
      (forall l, l ∈ more -> l.isPoll = false) ->
      runSteps (Lookup.step nextCursor select identity hostID) Lookup.mounted before = some s ->
      runSteps (Lookup.step nextCursor select identity hostID) s more = some s' ->
      more.countP LookupLabel.isEffect <= S.card) := by
  refine ⟨?_, ?_, ?_⟩
  · intro labels q hin hrun
    have hwalked := run_invariant_on (fun _ _ _ hl h hstep => walked_step hl h hstep) hin
      walked_mounted hrun
    refine ⟨fun f hf => (hwalked.fetching f hf).requests_nodup, ?_⟩
    intro d hd
    have hmore : q.hasMore nextCursor = (d.getNextPageParam nextCursor).isSome := by
      unfold PagedFleet.hasMore
      rw [hd]
    rw [hmore]
    exact ⟨(hwalked.data d hd).nodup, (hwalked.data d hd).length_le, one_of_three nextCursor d⟩
  · rcases walk_ends hS with ⟨n, hn, hgoes, hend⟩
    refine ⟨n, _, hn, hgoes.loads, rfl, rfl, ?_, hgoes.pages, lookup_ends hgoes hend⟩
    show ((walkOf nextCursor resp n).getNextPageParam nextCursor).isSome = false
    rw [hend]
    rfl
  · intro before more s s' hin hpoll hbefore hmore
    have hwalked : Walked nextCursor S s.query :=
      run_invariant_on (P := fun s : Lookup page => Walked nextCursor S s.query)
        (fun _ _ _ hl h hstep => walked_step hl h (step_query hstep))
        (fun l hl => hin l (List.mem_append_left more hl)) walked_mounted hbefore
    exact (effects_le hwalked (fun l hl => hin l (List.mem_append_right before hl)) hpoll
      hmore).trans (left_le hwalked)

def inTurn (n : Nat) : Option ByteString × List ByteString :=
  if n % 2 = 0 then (some [1], [[104, 49]]) else (some [2], [[104, 50]])

theorem walks_end_inTurn :
    exists n q, n <= 2 ∧
      runSteps (PagedFleet.step Prod.fst) PagedFleet.mounted (loading inTurn n) = some q ∧
      q.hasMore Prod.fst = false ∧
      exists k s, k <= n ∧
        runSteps (Lookup.step Prod.fst Prod.snd id [104, 50]) Lookup.mounted
          (lookingUp inTurn k) = some s ∧
        s.goesOn Prod.fst Prod.snd id [104, 50] = false := by
  have hS : forall n, CursorIn Prod.fst ({[1], [2]} : Finset ByteString) (inTurn n) := by
    intro n c hc _
    unfold inTurn at hc
    split at hc
    · cases hc
      decide
    · cases hc
      decide
  rcases (walks_end Prod.snd id [104, 50] hS).right.left with
    ⟨n, q, hn, hrun, _, _, hmore, _, k, s, hk, hlook, _, _, hstop, _⟩
  exact ⟨n, q, hn, hrun, hmore, k, s, hk, hlook, hstop⟩

end Web
end LodelineManager
