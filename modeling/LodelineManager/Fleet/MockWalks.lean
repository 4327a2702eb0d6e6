import LodelineManager.Fleet.MockEvents

/-!
# Walks over the mock client

Following next cursors from the first page.  The listings of hosts name the last row of a
page, and an empty name is no cursor: a walk misses nothing exactly when no row without a
name ends a page that others follow.
-/

namespace LodelineManager
namespace Fleet

open Go JSON Foundation FollowCursors

/-!
## Listings by name
-/

section

variable {row : Type} (id : row -> ByteString) (rows : List row) (limit : Int)

def cursorBehind : Nat -> ByteString
  | 0 => []
  | j + 1 => (rows[(j + 1) * clampLimit limit - 1]?).elim [] id

/-- Every row that ends a page before the last one has a name. -/
def NamedEnds : Prop := forall j, (j + 1) * clampLimit limit < rows.length ->
  cursorBehind id rows limit (j + 1) ≠ []

variable {id rows limit}

theorem startIdx_of_named (hnodup : (rows.map id).Nodup) {i : Nat} {r : row}
    (hr : rows[i]? = some r) (hne : id r ≠ []) : startIdx id rows (id r) = i + 1 := by
  rcases List.getElem?_eq_some_iff.mp hr with ⟨hi, hget⟩
  have hfound : rows.findIdx? (fun x => decide (id x = id r)) = some i := by
    rw [List.findIdx?_eq_some_iff_getElem]
    refine ⟨hi, decide_eq_true (by rw [hget]), ?_⟩
    intro j hj hsame
    have hlength : i < (rows.map id).length := by
      rw [List.length_map]
      exact hi
    have hbefore : j < (rows.map id).length := Nat.lt_trans hj hlength
    have heq : (rows.map id)[j] = (rows.map id)[i] := by
      rw [List.getElem_map, List.getElem_map, hget]
      exact of_decide_eq_true hsame
    exact absurd (hnodup.getElem_inj_iff.mp heq) (Nat.ne_of_lt hj)
  unfold startIdx
  rw [if_neg hne, hfound]

theorem startIdx_cursorBehind (hnodup : (rows.map id).Nodup) {i : Nat}
    (hlt : i * clampLimit limit < rows.length) (hne : i ≠ 0 -> cursorBehind id rows limit i ≠ []) :
    startIdx id rows (cursorBehind id rows limit i) = i * clampLimit limit := by
  have hpos := clampLimit_pos limit
  cases i with
  | zero =>
      rw [Nat.zero_mul]
      exact startIdx_nil rows
  | succ j =>
      have hmul : 0 < (j + 1) * clampLimit limit := Nat.mul_pos (Nat.succ_pos j) hpos
      have hin : (j + 1) * clampLimit limit - 1 < rows.length := by omega
      have hget := List.getElem?_eq_getElem hin
      have hname : cursorBehind id rows limit (j + 1) =
          id rows[(j + 1) * clampLimit limit - 1] := by
        show (rows[(j + 1) * clampLimit limit - 1]?).elim [] id = _
        rw [hget]
        rfl
      rw [hname, startIdx_of_named hnodup hget (hname ▸ hne (Nat.succ_ne_zero j))]
      omega

theorem getLast?_page {i : Nat} (hlong : clampLimit limit < (rows.drop (i * clampLimit limit)).length) :
    ((rows.drop (i * clampLimit limit)).take (clampLimit limit)).getLast? =
      rows[(i + 1) * clampLimit limit - 1]? := by
  have hpos := clampLimit_pos limit
  have hmul : (i + 1) * clampLimit limit = i * clampLimit limit + clampLimit limit :=
    Nat.succ_mul i (clampLimit limit)
  have hplace : i * clampLimit limit + (clampLimit limit - 1) = (i + 1) * clampLimit limit - 1 := by
    omega
  rw [List.getLast?_eq_getElem?, List.length_take, Nat.min_eq_left (Nat.le_of_lt hlong),
    List.getElem?_take_of_lt (Nat.sub_lt hpos (Nat.succ_pos 0)), List.getElem?_drop, hplace]

theorem pageFrom_cursorBehind (hnodup : (rows.map id).Nodup) {i : Nat}
    (hlt : i * clampLimit limit < rows.length) (hne : i ≠ 0 -> cursorBehind id rows limit i ≠ []) :
    pageFrom id rows (cursorBehind id rows limit i) limit =
      if (i + 1) * clampLimit limit < rows.length then
        ((rows.drop (i * clampLimit limit)).take (clampLimit limit),
          some (cursorBehind id rows limit (i + 1)))
      else (rows.drop (i * clampLimit limit), none) := by
  have hmul : (i + 1) * clampLimit limit = i * clampLimit limit + clampLimit limit :=
    Nat.succ_mul i (clampLimit limit)
  unfold pageFrom
  rw [startIdx_cursorBehind hnodup hlt hne, if_neg (Nat.not_le.mpr hlt)]
  rcases cutAtLimit_cases id (rows.drop (i * clampLimit limit)) limit with
    ⟨hshort, hall⟩ | ⟨hlong, r, hr, hfirst⟩
  · rw [List.length_drop] at hshort
    rw [hall, if_neg (by omega)]
  · rw [getLast?_page hlong] at hr
    rw [List.length_drop] at hlong
    have hname : cursorBehind id rows limit (i + 1) = id r := by
      show (rows[(i + 1) * clampLimit limit - 1]?).elim [] id = id r
      rw [hr]
      rfl
    rw [hfirst, if_pos (by omega), hname]

/-- What a cursor stands for: the rows behind so many full pages. -/
def Behind (id : row -> ByteString) (rows : List row) (limit : Int) (c : ByteString)
    (left : List row) : Prop :=
  exists i, c = cursorBehind id rows limit i ∧ left = rows.drop (i * clampLimit limit) ∧
    (i = 0 ∨ i * clampLimit limit < rows.length)

theorem pages_pageFrom (hnodup : (rows.map id).Nodup) (hnamed : NamedEnds id rows limit) :
    Pages (Behind id rows limit) (fun _ c => pageFrom id rows c limit) := by
  rintro n c left ⟨i, hc, hleft, hplace⟩
  have hpos := clampLimit_pos limit
  by_cases hlt : i * clampLimit limit < rows.length
  · have hne : i ≠ 0 -> cursorBehind id rows limit i ≠ [] := by
      intro hi
      rcases Nat.exists_eq_succ_of_ne_zero hi with ⟨j, rfl⟩
      exact hnamed j hlt
    have hmul : (i + 1) * clampLimit limit = i * clampLimit limit + clampLimit limit :=
      Nat.succ_mul i (clampLimit limit)
    simp only [hc, hleft, pageFrom_cursorBehind hnodup hlt hne]
    split
    · rename_i hmore
      refine Or.inr ⟨clampLimit limit, _, hpos, ?_, rfl, i + 1, rfl, ?_, Or.inr hmore⟩
      · rw [List.length_drop]
        omega
      · rw [List.drop_drop, hmul]
    · exact Or.inl rfl
  · -- only a listing without rows
    have hi : i = 0 := hplace.resolve_right hlt
    subst hi
    have hrows : rows = [] := by
      rw [Nat.zero_mul] at hlt
      exact List.eq_nil_of_length_eq_zero (Nat.le_zero.mp (Nat.le_of_not_lt hlt))
    left
    rw [hleft, hc, hrows, List.drop_nil]
    rfl

theorem leads_cursorBehind (hnodup : (rows.map id).Nodup) {i : Nat}
    (hlt : i * clampLimit limit < rows.length)
    (hne : forall j, j < i -> j ≠ 0 -> cursorBehind id rows limit j ≠ []) (n : Nat) :
    Leads (fun _ c => pageFrom id rows c limit) n [] (n + i) (cursorBehind id rows limit i) := by
  induction i with
  | zero => exact Leads.refl
  | succ i ih =>
      have hmul : (i + 1) * clampLimit limit = i * clampLimit limit + clampLimit limit :=
        Nat.succ_mul i (clampLimit limit)
      have hbefore : i * clampLimit limit < rows.length := by omega
      have hlead := ih hbefore (fun j hj => hne j (Nat.lt_succ_of_lt hj))
      have hpage := pageFrom_cursorBehind hnodup hbefore (hne i (Nat.lt_succ_self i))
      rw [if_pos hlt] at hpage
      exact Leads.step hlead hpage

theorem returns_iff (hnodup : (rows.map id).Nodup) :
    Returns (fun _ c => pageFrom id rows c limit) [] rows <-> NamedEnds id rows limit := by
  constructor
  · intro hreturns j hlt hempty
    have hexists : exists j, (j + 1) * clampLimit limit < rows.length ∧
        cursorBehind id rows limit (j + 1) = [] := ⟨j, hlt, hempty⟩
    -- the first page that ends without a name leads back to the top
    have hfirst := Nat.find_spec hexists
    refine not_returns_of_cycle ?_ rows hreturns
    intro n
    refine ⟨n + (Nat.find hexists + 1), by omega, ?_⟩
    have hlead := leads_cursorBehind hnodup hfirst.left (i := Nat.find hexists + 1) ?_ n
    · rw [hfirst.right] at hlead
      exact hlead
    · intro i hi hzero hnil
      rcases Nat.exists_eq_succ_of_ne_zero hzero with ⟨i, rfl⟩
      have hbefore : (i + 1) * clampLimit limit < rows.length :=
        Nat.lt_of_le_of_lt (Nat.mul_le_mul_right _ (Nat.le_of_lt hi)) hfirst.left
      exact Nat.find_min hexists (Nat.lt_of_succ_lt_succ hi) ⟨hbefore, hnil⟩
  · intro hnamed
    exact returns_of_pages (pages_pageFrom hnodup hnamed) ⟨0, rfl, by rw [Nat.zero_mul]; rfl, Or.inl rfl⟩

end

/-!
## The rows of the risk listing
-/

section

variable {float : Type} [LinearOrder float]

/-- No two tools share the highest score. -/
def UniqueTop (entries : List (ToolEntry float)) : Prop :=
  forall a b, a ∈ entries -> b ∈ entries ->
    (forall e, e ∈ entries -> e.2.score <= a.2.score) ->
    (forall e, e ∈ entries -> e.2.score <= b.2.score) -> a.1 = b.1

/-- How the loop of {lit}`pickTopTool` ends: with a highest score, from an entry or from
before. -/
structure Best (start : String × float) (entries : List (ToolEntry float)) (top : String × float) :
    Prop where
  highest : forall e, e ∈ entries -> e.2.score <= top.2
  start_le : start.2 <= top.2
  origin : top = start ∨ exists e, e ∈ entries ∧ start.2 < e.2.score ∧ top = (e.1, e.2.score)

theorem best_foldl (entries : List (ToolEntry float)) (start : String × float) :
    Best start entries (entries.foldl better start) := by
  induction entries generalizing start with
  | nil => exact ⟨fun e he => absurd he List.not_mem_nil, le_refl _, Or.inl rfl⟩
  | cons e rest ih =>
      rcases ih (better start e) with ⟨hhighest, hle, horigin⟩
      rw [List.foldl_cons]
      by_cases hlt : start.2 < e.2.score
      · have hbetter : better start e = (e.1, e.2.score) := if_pos hlt
        rw [hbetter] at hhighest hle horigin ⊢
        refine ⟨List.forall_mem_cons.mpr ⟨hle, hhighest⟩, le_trans (le_of_lt hlt) hle, Or.inr ?_⟩
        rcases horigin with hsame | ⟨x, hx, hxlt, htop⟩
        · exact ⟨e, List.mem_cons_self, hlt, hsame⟩
        · exact ⟨x, List.mem_cons_of_mem e hx, lt_trans hlt hxlt, htop⟩
      · have hbetter : better start e = start := if_neg hlt
        rw [hbetter] at hhighest hle horigin ⊢
        refine ⟨List.forall_mem_cons.mpr ⟨le_trans (not_lt.mp hlt) hle, hhighest⟩, hle, ?_⟩
        rcases horigin with hsame | ⟨x, hx, hxlt, htop⟩
        · exact Or.inl hsame
        · exact Or.inr ⟨x, List.mem_cons_of_mem e hx, hxlt, htop⟩

theorem Best.score_le {start : String × float} {xs ys : List (ToolEntry float)}
    {top top' : String × float} (h : Best start xs top) (h' : Best start ys top')
    (hsub : forall e, e ∈ xs -> e ∈ ys) : top.2 <= top'.2 := by
  rcases h.origin with hsame | ⟨e, he, _, htop⟩
  · rw [hsame]
    exact h'.start_le
  · rw [htop]
    exact h'.highest e (hsub e he)

variable [One float] [Neg float]

theorem pickTopTool_perm {xs ys : List (ToolEntry float)} (h : ys.Perm xs) (hunique : UniqueTop xs) :
    pickTopTool ys = pickTopTool xs := by
  have hx := best_foldl xs ("", (-1 : float))
  have hy := best_foldl ys ("", (-1 : float))
  have hscore := le_antisymm (hy.score_le hx (fun e => h.mem_iff.mp))
    (hx.score_le hy (fun e => h.mem_iff.mpr))
  unfold pickTopTool
  rcases hx.origin with hxs | ⟨a, ha, halt, hatop⟩
  · rcases hy.origin with hys | ⟨b, hb, hblt, hbtop⟩
    · rw [hxs, hys]
    · rw [hxs, hbtop] at hscore
      exact absurd hblt (hscore ▸ lt_irrefl _)
  · rcases hy.origin with hys | ⟨b, hb, hblt, hbtop⟩
    · rw [hys, hatop] at hscore
      exact absurd halt (hscore ▸ lt_irrefl _)
    · have ha' : forall e, e ∈ xs -> e.2.score <= a.2.score := by
        intro e he
        have hle := hx.highest e he
        rw [hatop] at hle
        exact hle
      have hb' : forall e, e ∈ xs -> e.2.score <= b.2.score := by
        intro e he
        have hle := hy.highest e (h.mem_iff.mpr he)
        rw [hbtop] at hle
        exact hle
      rw [hatop, hbtop]
      exact hunique b a (h.mem_iff.mp hb) ha hb' ha'

omit [LinearOrder float] [One float] [Neg float] in
theorem later_eq (t : Int) (e : ToolEntry float) : later t e = max t e.2.assessedTS.instant := by
  unfold later
  split
  · rename_i hlt
    exact (max_eq_right (le_of_lt hlt)).symm
  · rename_i hle
    exact (max_eq_left (not_lt.mp hle)).symm

omit [LinearOrder float] [One float] [Neg float] in
theorem latestAssessed_perm {xs ys : List (ToolEntry float)} (h : ys.Perm xs) :
    latestAssessed ys = latestAssessed xs := by
  have hcomm : RightCommutative (later : Int -> ToolEntry float -> Int) := by
    constructor
    intro t e x
    rw [later_eq, later_eq, later_eq, later_eq, max_assoc, max_assoc, max_comm e.2.assessedTS.instant]
  exact h.foldl_eq zeroTime

def listedOrder : MapOrder float := ⟨fun entries => entries, fun _ => List.Perm.refl _⟩

/-- Every host has a single tool at the top. -/
def UniqueTops (m : MockHosts float) : Prop :=
  forall h r, h ∈ m.hosts -> h.currentRisk = some r -> UniqueTop (toolEntries r)

def matchingRisk (m : MockHosts float) (p : RiskParams) : List (RiskRow float) :=
  m.hosts.filterMap (riskRow p listedOrder listedOrder)

theorem riskRow_listed {m : MockHosts float} (htops : UniqueTops m) {h : HostSummary float}
    (hh : h ∈ m.hosts) (p : RiskParams) (topTool assessed : MapOrder float) :
    riskRow p topTool assessed h = riskRow p listedOrder listedOrder h := by
  unfold riskRow
  cases hrisk : h.currentRisk with
  | none => rfl
  | some r =>
      have htop := pickTopTool_perm (topTool.perm (toolEntries r)) (htops h r hh hrisk)
      have hassessed := latestAssessed_perm (assessed.perm (toolEntries r))
      simp only [htop, hassessed]
      rfl

theorem riskRows_eq {m : MockHosts float} (htops : UniqueTops m) (p : RiskParams)
    (orders : MapOrders float) : m.riskRows p orders = byScore (matchingRisk m p) := by
  have hrows : m.hosts.zipIdx.filterMap (fun h =>
      riskRow p (orders.topTool h.2) (orders.assessed h.2) h.1) =
        m.hosts.zipIdx.filterMap (fun h => riskRow p listedOrder listedOrder h.1) := by
    apply List.filterMap_congr
    intro h hh
    exact riskRow_listed htops (List.fst_mem_of_mem_zipIdx hh) p _ _
  have hplaces : m.hosts.zipIdx.filterMap (fun h => riskRow p listedOrder listedOrder h.1) =
      (m.hosts.zipIdx.map Prod.fst).filterMap (riskRow p listedOrder listedOrder) := by
    rw [List.filterMap_map]
    rfl
  unfold MockHosts.riskRows matchingRisk
  rw [hrows, hplaces, List.zipIdx_map_fst]

theorem riskRow_id {p : RiskParams} {topTool assessed : MapOrder float} {h : HostSummary float}
    {row : RiskRow float} (hrow : riskRow p topTool assessed h = some row) : row.id = h.id := by
  unfold riskRow at hrow
  cases hrisk : h.currentRisk with
  | none =>
      rw [hrisk] at hrow
      cases hrow
  | some r =>
      rw [hrisk] at hrow
      simp only at hrow
      split at hrow
      · cases hrow
      · split at hrow
        · cases hrow
        · cases hrow
          rfl

end

/-!
## Distinct names
-/

section

variable {float : Type} {m : MockHosts float}

theorem hostIDs_nodup (hdistinct : (m.hosts.map HostSummary.hostID).Nodup) :
    (m.hosts.map HostSummary.id).Nodup := by
  have hids : m.hosts.map HostSummary.id = (m.hosts.map HostSummary.hostID).map utf8 := by
    rw [List.map_map]
    rfl
  rw [hids]
  exact hdistinct.map (fun _ _ => utf8_injective)

theorem hostRows_nodup (hdistinct : (m.hosts.map HostSummary.hostID).Nodup) (p : HostsParams) :
    ((m.hostRows p).map HostSummary.id).Nodup :=
  (hostIDs_nodup hdistinct).sublist (List.filter_sublist.map HostSummary.id)

theorem complianceRows_nodup (hdistinct : (m.hosts.map HostSummary.hostID).Nodup) :
    (m.complianceRows.map ComplianceRow.id).Nodup := by
  have hids : m.complianceRows.map ComplianceRow.id = m.hosts.map HostSummary.id := by
    unfold MockHosts.complianceRows
    rw [List.map_map]
    rfl
  rw [hids]
  exact hostIDs_nodup hdistinct

variable [LinearOrder float] [One float] [Neg float]

theorem matchingRisk_nodup (hdistinct : (m.hosts.map HostSummary.hostID).Nodup) (p : RiskParams) :
    ((matchingRisk m p).map RiskRow.id).Nodup := by
  have hhosts := hostIDs_nodup hdistinct
  unfold List.Nodup matchingRisk
  rw [List.pairwise_map, List.pairwise_filterMap]
  rw [List.Nodup, List.pairwise_map] at hhosts
  apply hhosts.imp
  intro a b hne x hx y hy
  rw [riskRow_id hx, riskRow_id hy]
  exact hne

theorem byScore_nodup (hdistinct : (m.hosts.map HostSummary.hostID).Nodup) (p : RiskParams) :
    ((byScore (matchingRisk m p)).map RiskRow.id).Nodup :=
  ((List.perm_insertionSort _ _).map RiskRow.id).nodup_iff.mpr (matchingRisk_nodup hdistinct p)

omit [One float] [Neg float] in
theorem byScore_stable (rows : List (RiskRow float)) :
    StablySorted (fun a b => b.score <= a.score) rows (byScore rows) := by
  have htotal : Std.Total (fun a b : RiskRow float => b.score <= a.score) :=
    ⟨fun a b => le_total b.score a.score⟩
  have htrans : IsTrans (RiskRow float) (fun a b => b.score <= a.score) :=
    ⟨fun _ _ _ hab hbc => le_trans hbc hab⟩
  exact stablySorted_insertionSort rows

end

/-!
## The four walks
-/

section

variable {float : Type}

namespace MockHosts

variable (m : MockHosts float)

def fetchHosts (p : HostsParams) (_ : Nat) (cursor : ByteString) :
    List (HostSummary float) × Option ByteString :=
  let page := m.fleetHosts { p with cursor := cursor }
  (page.hosts, page.nextCursor)

def fetchCompliance (p : ComplianceParams) (_ : Nat) (cursor : ByteString) :
    List ComplianceRow × Option ByteString :=
  let page := m.fleetCompliance { p with cursor := cursor }
  (page.rows, page.nextCursor)

variable [LinearOrder float] [One float] [Neg float]

def fetchRisk (p : RiskParams) (orders : Nat -> MapOrders float) (n : Nat) (cursor : ByteString) :
    List (RiskRow float) × Option ByteString :=
  let page := m.fleetRisk { p with cursor := cursor } (orders n)
  (page.rows, page.nextCursor)

theorem fetchRisk_eq {m : MockHosts float} (htops : UniqueTops m) (p : RiskParams)
    (orders : Nat -> MapOrders float) :
    m.fetchRisk p orders =
      fun _ c => pageFrom RiskRow.id (byScore (matchingRisk m p)) c p.limit := by
  funext n c
  unfold fetchRisk fleetRisk
  rw [riskRows_eq htops]
  rfl

end MockHosts

variable [LinearOrder float] [One float] [Neg float]

/-- A walk over the events returns the filtered list.  So do the walks over the hosts,
exactly when no page before the last one ends with a host without a name. -/
theorem walks_complete (F : Floats float) (e : MockEvents) (m : MockHosts float)
    (hdistinct : (m.hosts.map HostSummary.hostID).Nodup) (htops : UniqueTops m) :
    (forall p : EventsParams, Returns (e.fetch F p) [] (e.filtered F { p with cursor := [] })) ∧
    (forall p : HostsParams, Returns (m.fetchHosts p) [] (m.hostRows p) <->
      NamedEnds HostSummary.id (m.hostRows p) p.limit) ∧
    (forall (p : RiskParams) (orders : Nat -> MapOrders float),
      (Returns (m.fetchRisk p orders) [] (byScore (matchingRisk m p)) <->
        NamedEnds RiskRow.id (byScore (matchingRisk m p)) p.limit) ∧
      StablySorted (fun a b => b.score <= a.score) (matchingRisk m p)
        (byScore (matchingRisk m p))) ∧
    forall p : ComplianceParams, Returns (m.fetchCompliance p) [] m.complianceRows <->
      NamedEnds ComplianceRow.id m.complianceRows p.limit := by
  refine ⟨?_, ?_, ?_, ?_⟩
  · intro p
    exact MockEvents.returns_filtered (p := { p with cursor := [] })
  · intro p
    exact returns_iff (hostRows_nodup hdistinct p)
  · intro p orders
    rw [MockHosts.fetchRisk_eq htops]
    exact ⟨returns_iff (byScore_nodup hdistinct p), byScore_stable _⟩
  · intro p
    exact returns_iff (complianceRows_nodup hdistinct)

end

/-!
## Clients with and without names
-/

theorem namedEnds_of_names {row : Type} {id : row -> ByteString} {rows : List row}
    (h : forall r, r ∈ rows -> id r ≠ []) (limit : Int) : NamedEnds id rows limit := by
  intro j hlt
  have hin : (j + 1) * clampLimit limit - 1 < rows.length :=
    Nat.lt_of_le_of_lt (Nat.sub_le _ 1) hlt
  show (rows[(j + 1) * clampLimit limit - 1]?).elim [] id ≠ []
  rw [List.getElem?_eq_getElem hin]
  exact h _ (List.getElem_mem hin)

def claudeRisk : Wire.CurrentRisk Int :=
  { maxScore := 40, maxBucket := "medium"
    byTool := some (AList.singleton "claude" { score := 40, bucket := "medium" }) }

def tiedHosts : MockHosts Int :=
  { plainHosts [] with
    hosts := (plainHosts [("bob", "healthy"), ("alice", "healthy")]).hosts.map
      (fun h => { h with currentRisk := some claudeRisk }) }

theorem tiedHosts_unique : UniqueTops tiedHosts := by
  intro h r hh hr a b ha hb _ _
  have hentries : forall h, h ∈ tiedHosts.hosts -> h.currentRisk.map toolEntries =
      some [("claude", { score := 40, bucket := "medium" })] := by
    intro h hh
    rcases List.mem_map.mp hh with ⟨h', _, rfl⟩
    rfl
  have htools := hentries h hh
  rw [hr, Option.map_some] at htools
  rw [Option.some.inj htools] at ha hb
  rw [List.mem_singleton.mp ha, List.mem_singleton.mp hb]

def oneByOne : RiskParams := { cursor := [], limit := 1, tool := [], minBucket := [] }

/-- Bob comes before Alice, one row on each page. -/
theorem walks_complete_tied :
    (byScore (matchingRisk tiedHosts oneByOne)).map RiskRow.hostID = ["bob", "alice"] ∧
      forall orders : Nat -> MapOrders Int,
        Returns (tiedHosts.fetchRisk oneByOne orders) []
          (byScore (matchingRisk tiedHosts oneByOne)) :=
  ⟨by decide +kernel, fun orders =>
    ((walks_complete noFloats agentEvents tiedHosts (by decide +kernel)
      tiedHosts_unique).right.right.left oneByOne orders).left.mpr
        (namedEnds_of_names (by decide +kernel) _)⟩

/-- The first host has no name, and the cursor behind it is the one for the top. -/
theorem not_walks_complete :
    ¬ forall (e : MockEvents) (m : MockHosts Int),
      (m.hosts.map HostSummary.hostID).Nodup -> UniqueTops m ->
      (forall p : EventsParams,
        Returns (e.fetch noFloats p) [] (e.filtered noFloats { p with cursor := [] })) ∧
      (forall p : HostsParams, Returns (m.fetchHosts p) [] (m.hostRows p)) ∧
      (forall (p : RiskParams) (orders : Nat -> MapOrders Int),
        Returns (m.fetchRisk p orders) [] (byScore (matchingRisk m p)) ∧
        StablySorted (fun a b => b.score <= a.score) (matchingRisk m p)
          (byScore (matchingRisk m p))) ∧
      forall p : ComplianceParams, Returns (m.fetchCompliance p) [] m.complianceRows := by
  intro h
  have hunique : UniqueTops (plainHosts [("", "healthy"), ("bob", "healthy")]) := by
    intro h r hh hr
    rcases List.mem_map.mp hh with ⟨e, _, rfl⟩
    cases hr
  have hwalk := (h agentEvents (plainHosts [("", "healthy"), ("bob", "healthy")])
    (by decide +kernel) hunique).right.left ⟨[], 1, [], [], []⟩
  have hnodup := hostRows_nodup (m := plainHosts [("", "healthy"), ("bob", "healthy")])
    (by decide +kernel) ⟨[], 1, [], [], []⟩
  exact (returns_iff hnodup).mp hwalk 0 (by decide +kernel) (by decide +kernel)

end Fleet
end LodelineManager
