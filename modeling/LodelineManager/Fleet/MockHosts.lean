import LodelineManager.Fleet.Mock
import LodelineManager.Fleet.Wire
import LodelineManager.Foundation.StableSort

/-!
# The host listings of the mock client

{lit}`FleetHosts`, {lit}`FleetRisk` and {lit}`FleetCompliance` build their rows anew for every
request and look for the row that the cursor names.  Scores are numbers of a linear
order, and a range over a map takes its entries in any order.
-/

namespace LodelineManager
namespace Fleet

open Go JSON Foundation
open Wire (CurrentRisk ToolRisk HostDetail)

/-!
## Paging
-/

section

variable {row : Type} (id : row -> ByteString)

def startIdx (rows : List row) (cursor : ByteString) : Nat :=
  if cursor = [] then 0
  else
    match rows.findIdx? (fun r => decide (id r = cursor)) with
    | some i => i + 1
    | none => 0

def cutAtLimit (left : List row) (limit : Int) : List row × Option ByteString :=
  if left.length > clampLimit limit then
    (left.take (clampLimit limit), (left.take (clampLimit limit)).getLast?.map id)
  else (left, none)

def pageFrom (rows : List row) (cursor : ByteString) (limit : Int) :
    List row × Option ByteString :=
  if rows.length <= startIdx id rows cursor then ([], none)
  else cutAtLimit id (rows.drop (startIdx id rows cursor)) limit

/-- A cursor that names no row. -/
structure Stale (rows : List row) (cursor : ByteString) : Prop where
  ne_nil : cursor ≠ []
  unnamed : forall r, r ∈ rows -> id r ≠ cursor

theorem cutAtLimit_cases (left : List row) (limit : Int) :
    (left.length <= clampLimit limit ∧ cutAtLimit id left limit = (left, none)) ∨
      clampLimit limit < left.length ∧ exists r, (left.take (clampLimit limit)).getLast? = some r ∧
        cutAtLimit id left limit = (left.take (clampLimit limit), some (id r)) := by
  unfold cutAtLimit
  by_cases hlong : left.length > clampLimit limit
  · have hne : left.take (clampLimit limit) ≠ [] := by
      rw [Ne, List.take_eq_nil_iff, not_or]
      exact ⟨Nat.ne_of_gt (clampLimit_pos limit),
        List.ne_nil_of_length_pos (Nat.lt_of_le_of_lt (Nat.zero_le _) hlong)⟩
    have hlast := List.getLast?_eq_some_getLast hne
    rw [if_pos hlong, hlast]
    exact Or.inr ⟨hlong, _, rfl, rfl⟩
  · rw [if_neg hlong]
    exact Or.inl ⟨Nat.le_of_not_lt hlong, rfl⟩

variable {id}

theorem startIdx_nil (rows : List row) : startIdx id rows [] = 0 := if_pos rfl

theorem Stale.startIdx {rows : List row} {cursor : ByteString} (h : Stale id rows cursor) :
    Fleet.startIdx id rows cursor = 0 := by
  have hnone : rows.findIdx? (fun r => decide (id r = cursor)) = none := by
    apply List.findIdx?_eq_none_iff.mpr
    intro r hr
    exact decide_eq_false (h.unnamed r hr)
  unfold Fleet.startIdx
  rw [if_neg h.ne_nil, hnone]

theorem Stale.pageFrom {rows : List row} {cursor : ByteString} (h : Stale id rows cursor)
    (limit : Int) : Fleet.pageFrom id rows cursor limit = Fleet.pageFrom id rows [] limit := by
  unfold Fleet.pageFrom
  rw [h.startIdx, startIdx_nil]

theorem pageFrom_nil_iff (rows : List row) (limit : Int) :
    pageFrom id rows [] limit = ([], none) <-> rows = [] := by
  cases rows with
  | nil => exact iff_of_true rfl rfl
  | cons r rest =>
      refine iff_of_false ?_ (List.cons_ne_nil r rest)
      intro heq
      have hlong : ¬ (r :: rest).length <= 0 := Nat.not_succ_le_zero rest.length
      unfold pageFrom at heq
      rw [startIdx_nil, if_neg hlong, List.drop_zero] at heq
      rcases cutAtLimit_cases id (r :: rest) limit with ⟨_, hall⟩ | ⟨_, last, _, hfirst⟩
      · rw [hall] at heq
        cases heq
      · rw [hfirst] at heq
        exact absurd (congrArg Prod.snd heq) (Option.some_ne_none _)

theorem Stale.ends_iff {rows : List row} {cursor : ByteString} (h : Stale id rows cursor)
    (limit : Int) :
    ((Fleet.pageFrom id rows cursor limit).1 = [] ∧
        (Fleet.pageFrom id rows cursor limit).2 = none) <-> rows = [] := by
  rw [h.pageFrom, ← pageFrom_nil_iff rows limit, Prod.ext_iff]

end

/-!
## Hosts
-/

structure HostSummary (float : Type) where
  hostID : String
  hostname : Option String
  agentVersion : String
  lastSeenTS : ZonedTime
  status : String
  currentRisk : Option (CurrentRisk float)
  openEventCounts24h : Map Int

/-- What the client knows of hosts: the rows, the details and counters by host id, and the
version of the policy. -/
structure MockHosts (float : Type) where
  hosts : List (HostSummary float)
  hostDetails : Map (HostDetail float)
  policyVersion : Int
  versionDrift : Map Int
  sigFailures : Map Int

/-- {lit}`m[key]`, if the map has the key. -/
def mapGet? {item : Type} (m : Map item) (key : String) : Option item :=
  m.bind (fun m => m.lookup key)

section

variable {float : Type}

def HostSummary.id (h : HostSummary float) : ByteString := utf8 h.hostID

def matchesHost (h : HostSummary float) (p : HostsParams) : Bool :=
  if !inList p.status (utf8 h.status) then false
  else if 0 < p.bucket.length then
    match h.currentRisk with
    | none => false
    | some r => containsString p.bucket (utf8 r.maxBucket)
  else true

structure HostsPage (float : Type) where
  hosts : List (HostSummary float)
  nextCursor : Option ByteString
  totalEstimated : Nat

namespace MockHosts

variable (m : MockHosts float)

def hostRows (p : HostsParams) : List (HostSummary float) :=
  m.hosts.filter (fun h => matchesHost h p)

def fleetHosts (p : HostsParams) : HostsPage float :=
  let page := pageFrom HostSummary.id (m.hostRows p) p.cursor p.limit
  { hosts := page.1, nextCursor := page.2, totalEstimated := m.hosts.length }

end MockHosts

/-!
## Compliance
-/

structure ComplianceRow where
  hostID : String
  hostname : Option String
  lastAppliedPolicyVersion : Int
  serverCurrentPolicyVersion : Int
  versionDrift : Int
  policyExpiredActive : Bool
  lastPolicyReloadTS : Option ZonedTime
  signatureFailures24h : Int

def ComplianceRow.id (r : ComplianceRow) : ByteString := utf8 r.hostID

structure CompliancePage where
  rows : List ComplianceRow
  nextCursor : Option ByteString

namespace MockHosts

variable (m : MockHosts float)

def policyState (hostID : String) : Wire.PolicyState :=
  ((mapGet? m.hostDetails hostID).bind HostDetail.policyState).getD {}

def complianceRow (h : HostSummary float) : ComplianceRow :=
  { hostID := h.hostID
    hostname := h.hostname
    lastAppliedPolicyVersion := (m.policyState h.hostID).lastAppliedPolicyVersion
    serverCurrentPolicyVersion := m.policyVersion
    versionDrift := (mapGet? m.versionDrift h.hostID).getD 0
    policyExpiredActive := (m.policyState h.hostID).policyExpiredActive
    lastPolicyReloadTS := (m.policyState h.hostID).lastPolicyReloadTS
    signatureFailures24h := (mapGet? m.sigFailures h.hostID).getD 0 }

def complianceRows : List ComplianceRow := m.hosts.map m.complianceRow

def fleetCompliance (p : ComplianceParams) : CompliancePage :=
  let page := pageFrom ComplianceRow.id m.complianceRows p.cursor p.limit
  { rows := page.1, nextCursor := page.2 }

end MockHosts

/-!
## Risk
-/

/-- The assessment time is kept as an instant. -/
structure RiskRow (float : Type) where
  hostID : String
  hostname : Option String
  score : float
  bucket : String
  topTool : String
  reasonsCount : Int
  assessedTS : Int
  openAlertCount24h : Int

def RiskRow.id (r : RiskRow float) : ByteString := utf8 r.hostID

structure RiskPage (float : Type) where
  rows : List (RiskRow float)
  nextCursor : Option ByteString

abbrev ToolEntry (float : Type) := String × ToolRisk float

def toolEntries (r : CurrentRisk float) : List (ToolEntry float) :=
  match r.byTool with
  | none => []
  | some m => sortedEntries m

/-- The order in which a range statement takes the entries of a map. -/
structure MapOrder (float : Type) where
  arrange : List (ToolEntry float) -> List (ToolEntry float)
  perm : forall entries, (arrange entries).Perm entries

/-- The orders that one request meets: for the risk of each host two ranges. -/
structure MapOrders (float : Type) where
  topTool : Nat -> MapOrder float
  assessed : Nat -> MapOrder float

variable [LinearOrder float] [One float] [Neg float]

/-- One round of the loop of {lit}`pickTopTool`. -/
def better (top : String × float) (e : ToolEntry float) : String × float :=
  if top.2 < e.2.score then (e.1, e.2.score) else top

def pickTopTool (entries : List (ToolEntry float)) : String :=
  (entries.foldl better ("", -1)).1

omit [LinearOrder float] [One float] [Neg float] in
/-- One round of the loop of {lit}`latestAssessed`. -/
def later (t : Int) (e : ToolEntry float) : Int :=
  if t < e.2.assessedTS.instant then e.2.assessedTS.instant else t

omit [LinearOrder float] [One float] [Neg float] in
def latestAssessed (entries : List (ToolEntry float)) : Int := entries.foldl later zeroTime

/-- The row of a host that has a risk and passes the filter. -/
def riskRow (p : RiskParams) (topTool assessed : MapOrder float) (h : HostSummary float) :
    Option (RiskRow float) :=
  match h.currentRisk with
  | none => none
  | some r =>
      let top := pickTopTool (topTool.arrange (toolEntries r))
      if 0 < p.tool.length ∧ !containsString p.tool (utf8 top) then none
      else if p.minBucket ≠ [] ∧ !bucketAtLeast (utf8 r.maxBucket) p.minBucket then none
      else
        some
          { hostID := h.hostID
            hostname := h.hostname
            score := r.maxScore
            bucket := r.maxBucket
            topTool := top
            reasonsCount := 0
            assessedTS := latestAssessed (assessed.arrange (toolEntries r))
            openAlertCount24h := (mapGet? h.openEventCounts24h "warn").getD 0 }

def byScore (rows : List (RiskRow float)) : List (RiskRow float) :=
  rows.insertionSort (fun a b => b.score <= a.score)

namespace MockHosts

variable (m : MockHosts float)

def riskRows (p : RiskParams) (orders : MapOrders float) : List (RiskRow float) :=
  byScore (m.hosts.zipIdx.filterMap (fun h =>
    riskRow p (orders.topTool h.2) (orders.assessed h.2) h.1))

def fleetRisk (p : RiskParams) (orders : MapOrders float) : RiskPage float :=
  let page := pageFrom RiskRow.id (m.riskRows p orders) p.cursor p.limit
  { rows := page.1, nextCursor := page.2 }

end MockHosts

end

/-!
## Stale cursors
-/

section

variable {float : Type} [LinearOrder float] [One float] [Neg float]

/-- For a cursor that names no row, a listing ends with an empty page exactly when it has no
rows at all. -/
theorem stale_ends_iff (m : MockHosts float) :
    (forall p : HostsParams, Stale HostSummary.id (m.hostRows p) p.cursor ->
      ((m.fleetHosts p).hosts = [] ∧ (m.fleetHosts p).nextCursor = none <->
        m.hostRows p = [])) ∧
    (forall (p : RiskParams) (orders : MapOrders float),
      Stale RiskRow.id (m.riskRows p orders) p.cursor ->
      ((m.fleetRisk p orders).rows = [] ∧ (m.fleetRisk p orders).nextCursor = none <->
        m.riskRows p orders = [])) ∧
    forall p : ComplianceParams, Stale ComplianceRow.id m.complianceRows p.cursor ->
      ((m.fleetCompliance p).rows = [] ∧ (m.fleetCompliance p).nextCursor = none <->
        m.complianceRows = []) :=
  ⟨fun p h => h.ends_iff p.limit, fun p _ h => h.ends_iff p.limit, fun p h => h.ends_iff p.limit⟩

end

def plainHosts (entries : List (String × String)) : MockHosts Int :=
  { hosts := entries.map (fun e =>
      { hostID := e.1, hostname := none, agentVersion := "0.4.0", lastSeenTS := ZonedTime.zero
        status := e.2, currentRisk := none, openEventCounts24h := none })
    hostDetails := none
    policyVersion := 18
    versionDrift := none
    sigFailures := none }

theorem stale_ends_iff_alice :
    ((plainHosts [("alice", "stale")]).fleetHosts
        ⟨utf8 "alice", 0, [bytesOf "healthy"], [], []⟩).hosts = [] ∧
      ((plainHosts [("alice", "stale")]).fleetHosts
        ⟨utf8 "alice", 0, [bytesOf "healthy"], [], []⟩).nextCursor = none <->
      (plainHosts [("alice", "stale")]).hostRows
        ⟨utf8 "alice", 0, [bytesOf "healthy"], [], []⟩ = [] :=
  (stale_ends_iff (plainHosts [("alice", "stale")])).left
    ⟨utf8 "alice", 0, [bytesOf "healthy"], [], []⟩ ⟨by decide +kernel, by decide +kernel⟩

/-- Alice is no longer healthy when the walk over the healthy hosts goes on behind her row: it
begins again with Bob. -/
theorem not_stale_ends :
    ¬ forall (m : MockHosts Int) (p : HostsParams),
      Stale HostSummary.id (m.hostRows p) p.cursor ->
      (m.fleetHosts p).hosts = [] ∧ (m.fleetHosts p).nextCursor = none := by
  intro h
  have hend := (h (plainHosts [("bob", "healthy"), ("alice", "stale")])
    ⟨utf8 "alice", 0, [bytesOf "healthy"], [], []⟩
    ⟨by decide +kernel, by decide +kernel⟩).left
  have hlength := congrArg List.length hend
  exact absurd hlength (by decide +kernel)

end Fleet
end LodelineManager
