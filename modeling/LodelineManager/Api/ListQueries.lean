import LodelineManager.Api.EventsQuery
import LodelineManager.Go.Numbers

/-!
# The queries of the fleet listings

Hosts, risk and compliance are listed by handlers that read a query string into parameters
and hand them to the fleet client, which writes a query of its own.
-/

namespace LodelineManager
namespace Api

open Foundation Go Fleet

/-!
## Reading the queries
-/

inductive Listing where
  | hosts
  | risk
  | compliance
  deriving DecidableEq

def limitError : String := "limit must be an integer"

/-- The parameters of {lit}`handleFleetHosts`. -/
def parseHostsParams (query : ByteString) : Except String HostsParams :=
  let q := parseQuery query
  match parseLimit (q.get (bytesOf "limit")) with
  | none => .error limitError
  | some limit =>
      .ok
        { cursor := q.get (bytesOf "cursor")
          limit := limit
          status := splitComma (q.get (bytesOf "status"))
          bucket := splitComma (q.get (bytesOf "bucket"))
          sort := q.get (bytesOf "sort") }

def parseRiskParams (query : ByteString) : Except String RiskParams :=
  let q := parseQuery query
  match parseLimit (q.get (bytesOf "limit")) with
  | none => .error limitError
  | some limit =>
      .ok
        { cursor := q.get (bytesOf "cursor")
          limit := limit
          tool := splitComma (q.get (bytesOf "tool"))
          minBucket := q.get (bytesOf "min_bucket") }

/-- The parameters of {lit}`handleFleetCompliance`. -/
def parseComplianceParams (query : ByteString) : Except String ComplianceParams :=
  let q := parseQuery query
  match parseLimit (q.get (bytesOf "limit")) with
  | none => .error limitError
  | some limit => .ok { cursor := q.get (bytesOf "cursor"), limit := limit }

def Listing.read : Listing -> ByteString -> Except String CachedCall
  | .hosts, query => (parseHostsParams query).map .fleetHosts
  | .risk, query => (parseRiskParams query).map .fleetRisk
  | .compliance, query => (parseComplianceParams query).map .fleetCompliance

def Listing.method : Listing -> Method
  | .hosts => .fleetHosts
  | .risk => .fleetRisk
  | .compliance => .fleetCompliance

/-!
## What is sent for a query
-/

/-- How the first value of a name is taken. -/
inductive Kind where
  | text
  | list
  | limit
  deriving DecidableEq

def Kind.relay : Kind -> ByteString -> List ByteString
  | .text, v => if v = [] then [] else [v]
  | .list, v => if splitComma v = [] then [] else [joinComma (splitComma v)]
  | .limit, v =>
      match parseLimit v with
      | some n => if 0 < n then [itoa n] else []
      | none => []

def Listing.kinds : Listing -> List (String × Kind)
  | .hosts =>
      [("cursor", .text), ("limit", .limit), ("status", .list), ("bucket", .list), ("sort", .text)]
  | .risk => [("cursor", .text), ("limit", .limit), ("tool", .list), ("min_bucket", .text)]
  | .compliance => [("cursor", .text), ("limit", .limit)]

def Listing.relayed (l : Listing) (q : Values) (name : ByteString) : List ByteString :=
  match l.kinds.find? (fun k => decide (bytesOf k.1 = name)) with
  | none => []
  | some k => k.2.relay (q.get name)

end Api

namespace Fleet

open Go

def CachedCall.floor : CachedCall -> CachedCall
  | .fleetHosts p => .fleetHosts { p with limit := max 0 p.limit }
  | .fleetRisk p => .fleetRisk { p with limit := max 0 p.limit }
  | .fleetCompliance p => .fleetCompliance { p with limit := max 0 p.limit }
  | c => c

theorem setLimit_floor (q : Values) (n : Int) : setLimit q (max 0 n) = setLimit q n := by
  unfold setLimit
  by_cases hn : 0 < n
  · rw [max_eq_right (Int.le_of_lt hn)]
  · rw [max_eq_left (Int.not_lt.mp hn), if_neg hn]
    rfl

theorem CachedCall.floor_floor (c : CachedCall) : c.floor.floor = c.floor := by
  cases c <;> simp only [CachedCall.floor, le_max_left, max_eq_right]

theorem CachedCall.floor_method (c : CachedCall) : c.floor.method = c.method := by
  cases c <;> rfl

theorem CachedCall.floor_arg (c : CachedCall) : c.floor.arg = c.arg := by
  cases c with
  | fleetHosts p =>
      show (buildHostsQuery _).encode = (buildHostsQuery p).encode
      unfold buildHostsQuery
      simp only [setLimit_floor]
  | fleetRisk p =>
      show (buildRiskQuery _).encode = (buildRiskQuery p).encode
      unfold buildRiskQuery
      simp only [setLimit_floor]
  | fleetCompliance p =>
      show (buildComplianceQuery _).encode = (buildComplianceQuery p).encode
      unfold buildComplianceQuery
      simp only [setLimit_floor]
  | _ => rfl

end Fleet

namespace Api

open Foundation Go Fleet

/-!
## The query that is sent
-/

theorem values_setLimit {q : Values} (limit : Int) :
    (setLimit q limit).values (bytesOf "limit") =
      if 0 < limit then [itoa limit] else q.values (bytesOf "limit") := by
  unfold setLimit
  by_cases hlimit : 0 < limit
  · rw [if_pos hlimit, if_pos hlimit, Values.values_set, if_pos rfl]
  · rw [if_neg hlimit, if_neg hlimit]

theorem itoa_ne_nil (n : Int) : itoa n ≠ [] := by
  unfold itoa
  rw [bytesOf_ofList]
  exact fun h => appendInt_ne_nil n (List.map_eq_nil_iff.mp h)

theorem parseLimit_sent {n : Int} (h : -2 ^ 63 <= n ∧ n < 2 ^ 63) :
    parseLimit ((if 0 < n then [itoa n] else [] : List ByteString).headD []) = some (max 0 n) := by
  by_cases hn : 0 < n
  · rw [if_pos hn, List.headD_cons, max_eq_right (Int.le_of_lt hn)]
    unfold parseLimit
    rw [if_neg (itoa_ne_nil n)]
    unfold itoa
    rw [atoi_appendInt, if_pos h]
  · rw [if_neg hn, max_eq_left (Int.not_lt.mp hn)]
    rfl

theorem parseLimit_inRange {v : ByteString} {n : Int} (h : parseLimit v = some n) :
    -2 ^ 63 <= n ∧ n < 2 ^ 63 := by
  unfold parseLimit at h
  split at h
  · cases h
    exact ⟨by decide, by decide⟩
  · exact atoi_inRange h

theorem headD_sent (v : ByteString) :
    (if v = [] then [] else [v] : List ByteString).headD [] = v := by
  split
  · rename_i hv
    exact hv.symm
  · rfl

theorem relayed_of_mem {l : Listing} {k : String × Kind} (h : k ∈ l.kinds) (q : Values) :
    l.relayed q (bytesOf k.1) = k.2.relay (q.get (bytesOf k.1)) := by
  have hfind : forall l : Listing, forall k, k ∈ l.kinds ->
      l.kinds.find? (fun j => decide (bytesOf j.1 = bytesOf k.1)) = some k := by
    intro l
    cases l <;> decide
  unfold Listing.relayed
  rw [hfind l k h]

theorem relayed_of_not_mem {l : Listing} {name : ByteString}
    (h : forall k, k ∈ l.kinds -> name ≠ bytesOf k.1) (q : Values) : l.relayed q name = [] := by
  have hfind : l.kinds.find? (fun k => decide (bytesOf k.1 = name)) = none := by
    apply List.find?_eq_none.mpr
    intro k hk hname
    exact h k hk (of_decide_eq_true hname).symm
  unfold Listing.relayed
  rw [hfind]

/-- The call for the values of a query and its limit. -/
def Listing.call (l : Listing) (q : Values) (limit : Int) : CachedCall :=
  match l with
  | .hosts =>
      .fleetHosts
        { cursor := q.get (bytesOf "cursor"), limit := limit
          status := splitComma (q.get (bytesOf "status"))
          bucket := splitComma (q.get (bytesOf "bucket")), sort := q.get (bytesOf "sort") }
  | .risk =>
      .fleetRisk
        { cursor := q.get (bytesOf "cursor"), limit := limit
          tool := splitComma (q.get (bytesOf "tool")), minBucket := q.get (bytesOf "min_bucket") }
  | .compliance => .fleetCompliance { cursor := q.get (bytesOf "cursor"), limit := limit }

theorem read_eq_call (l : Listing) (query : ByteString) :
    l.read query =
      match parseLimit ((parseQuery query).get (bytesOf "limit")) with
      | none => .error limitError
      | some limit => .ok (l.call (parseQuery query) limit) := by
  cases l with
  | hosts =>
      show (parseHostsParams query).map CachedCall.fleetHosts = _
      unfold parseHostsParams
      simp only
      cases parseLimit ((parseQuery query).get (bytesOf "limit")) <;> rfl
  | risk =>
      show (parseRiskParams query).map CachedCall.fleetRisk = _
      unfold parseRiskParams
      simp only
      cases parseLimit ((parseQuery query).get (bytesOf "limit")) <;> rfl
  | compliance =>
      show (parseComplianceParams query).map CachedCall.fleetCompliance = _
      unfold parseComplianceParams
      simp only
      cases parseLimit ((parseQuery query).get (bytesOf "limit")) <;> rfl

theorem call_of_read {l : Listing} {query : ByteString} {c : CachedCall}
    (h : l.read query = .ok c) :
    exists n, parseLimit ((parseQuery query).get (bytesOf "limit")) = some n ∧
      c = l.call (parseQuery query) n := by
  rw [read_eq_call] at h
  split at h
  · cases h
  · rename_i n hn
    exact ⟨n, hn, (Except.ok.inj h).symm⟩

def sentValues : CachedCall -> Values
  | .fleetHosts p => buildHostsQuery p
  | .fleetRisk p => buildRiskQuery p
  | .fleetCompliance p => buildComplianceQuery p
  | .events p => buildEventsQuery p
  | _ => ∅

theorem values_call_of_mem {l : Listing} {q : Values} {n : Int}
    (hn : parseLimit (q.get (bytesOf "limit")) = some n) {k : String × Kind} (hk : k ∈ l.kinds) :
    (sentValues (l.call q n)).values (bytesOf k.1) = k.2.relay (q.get (bytesOf k.1)) := by
  have hlimit : Kind.relay .limit (q.get (bytesOf "limit")) = if 0 < n then [itoa n] else [] := by
    simp only [Kind.relay, hn]
  cases l with
  | hosts =>
      simp only [Listing.kinds, List.mem_cons, List.not_mem_nil, or_false] at hk
      rcases hk with rfl | rfl | rfl | rfl | rfl
      all_goals
        simp (disch := decide) only [Listing.call, sentValues, buildHostsQuery, values_setText_ne,
          values_setLimit_ne, values_setList_ne, values_setText, values_setList, values_setLimit,
          Values.values_empty, hlimit]
      all_goals rfl
  | risk =>
      simp only [Listing.kinds, List.mem_cons, List.not_mem_nil, or_false] at hk
      rcases hk with rfl | rfl | rfl | rfl
      all_goals
        simp (disch := decide) only [Listing.call, sentValues, buildRiskQuery, values_setText_ne,
          values_setLimit_ne, values_setList_ne, values_setText, values_setList, values_setLimit,
          Values.values_empty, hlimit]
      all_goals rfl
  | compliance =>
      simp only [Listing.kinds, List.mem_cons, List.not_mem_nil, or_false] at hk
      rcases hk with rfl | rfl
      all_goals
        simp (disch := decide) only [Listing.call, sentValues, buildComplianceQuery,
          values_setText_ne, values_setLimit_ne, values_setText, values_setLimit,
          Values.values_empty, hlimit]
      all_goals rfl

theorem values_call_of_not_mem {l : Listing} {q : Values} (n : Int) {name : ByteString}
    (h : forall k, k ∈ l.kinds -> name ≠ bytesOf k.1) :
    (sentValues (l.call q n)).values name = [] := by
  cases l with
  | hosts =>
      simp only [Listing.kinds, List.forall_mem_cons] at h
      rcases h with ⟨hcursor, hlimit, hstatus, hbucket, hsort, _⟩
      simp (disch := assumption) only [Listing.call, sentValues, buildHostsQuery,
        values_setText_ne, values_setLimit_ne, values_setList_ne, Values.values_empty]
  | risk =>
      simp only [Listing.kinds, List.forall_mem_cons] at h
      rcases h with ⟨hcursor, hlimit, htool, hbucket, _⟩
      simp (disch := assumption) only [Listing.call, sentValues, buildRiskQuery,
        values_setText_ne, values_setLimit_ne, values_setList_ne, Values.values_empty]
  | compliance =>
      simp only [Listing.kinds, List.forall_mem_cons] at h
      rcases h with ⟨hcursor, hlimit, _⟩
      simp (disch := assumption) only [Listing.call, sentValues, buildComplianceQuery,
        values_setText_ne, values_setLimit_ne, Values.values_empty]

theorem parseQuery_call_arg (l : Listing) (q : Values) (n : Int) (name : ByteString) :
    (parseQuery (l.call q n).arg).values name = (sentValues (l.call q n)).values name := by
  cases l <;> exact Values.parseQuery_encode _ name

theorem values_call {l : Listing} {q : Values} {n : Int}
    (hn : parseLimit (q.get (bytesOf "limit")) = some n) (name : ByteString) :
    (parseQuery (l.call q n).arg).values name = l.relayed q name := by
  rw [parseQuery_call_arg]
  by_cases hname : exists k, k ∈ l.kinds ∧ name = bytesOf k.1
  · rcases hname with ⟨k, hk, heq⟩
    rw [heq, relayed_of_mem hk, values_call_of_mem hn hk]
  · have hother : forall k, k ∈ l.kinds -> name ≠ bytesOf k.1 :=
      fun k hk heq => hname ⟨k, hk, heq⟩
    rw [relayed_of_not_mem hother, values_call_of_not_mem n hother]

/-!
## Reading what is sent
-/

theorem splitComma_relayed (v : ByteString) :
    splitComma ((Kind.relay .list v).headD []) = splitComma v :=
  splitComma_sent (fun _ => isEntry_of_mem_splitComma)

theorem call_floor {l : Listing} {q q' : Values} {n : Int}
    (hn : parseLimit (q.get (bytesOf "limit")) = some n)
    (h : forall name, q'.values name = l.relayed q name) :
    parseLimit (q'.get (bytesOf "limit")) = some (max 0 n) ∧
      l.call q' (max 0 n) = (l.call q n).floor := by
  have hget : forall k, k ∈ l.kinds ->
      q'.get (bytesOf k.1) = (k.2.relay (q.get (bytesOf k.1))).headD [] := by
    intro k hk
    unfold Values.get
    rw [h, relayed_of_mem hk]
    rfl
  have hlimit : ("limit", Kind.limit) ∈ l.kinds := by cases l <;> decide
  have hcursor : ("cursor", Kind.text) ∈ l.kinds := by cases l <;> decide
  constructor
  · have hrelay : Kind.relay .limit (q.get (bytesOf "limit")) =
        if 0 < n then [itoa n] else [] := by
      simp only [Kind.relay, hn]
    rw [hget _ hlimit, hrelay]
    exact parseLimit_sent (parseLimit_inRange hn)
  · have htext : forall name, (name, Kind.text) ∈ l.kinds ->
        q'.get (bytesOf name) = q.get (bytesOf name) :=
      fun name hname => (hget _ hname).trans (headD_sent _)
    have hlist : forall name, (name, Kind.list) ∈ l.kinds ->
        splitComma (q'.get (bytesOf name)) = splitComma (q.get (bytesOf name)) :=
      fun name hname => (congrArg splitComma (hget _ hname)).trans (splitComma_relayed _)
    cases l with
    | hosts =>
        have hs := hlist "status" (by decide)
        have hb := hlist "bucket" (by decide)
        have ht := htext "sort" (by decide)
        simp only [Listing.call, CachedCall.floor, htext _ hcursor, hs, hb, ht]
    | risk =>
        have hs := hlist "tool" (by decide)
        have ht := htext "min_bucket" (by decide)
        simp only [Listing.call, CachedCall.floor, htext _ hcursor, hs, ht]
    | compliance => simp only [Listing.call, CachedCall.floor, htext _ hcursor]

theorem read_arg {l : Listing} {query : ByteString} {c : CachedCall}
    (h : l.read query = .ok c) : l.read c.arg = .ok c.floor := by
  rcases call_of_read h with ⟨n, hn, hc⟩
  have hvalues : forall name,
      (parseQuery c.arg).values name = l.relayed (parseQuery query) name := by
    rw [hc]
    exact values_call hn
  rcases call_floor hn hvalues with ⟨hlimit, hcall⟩
  rw [read_eq_call, hlimit]
  simp only
  rw [hcall, hc]

theorem method_of_read {l : Listing} {query : ByteString} {c : CachedCall}
    (h : l.read query = .ok c) : c.method = l.method := by
  rcases call_of_read h with ⟨n, _, hc⟩
  rw [hc]
  cases l <;> rfl

theorem method_injective {l l' : Listing} (h : l.method = l'.method) : l = l' := by
  cases l <;> cases l' <;> first | rfl | cases h

/-- The server is sent what the names of the listing say, and nothing else of a query; what
is sent asks for the same again; and two queries are sent as the same request exactly when
they ask for the same. -/
theorem listing_queries_canonical {l : Listing} {query : ByteString} {c : CachedCall}
    (h : l.read query = .ok c) :
    (forall name, (parseQuery c.arg).values name = l.relayed (parseQuery query) name) ∧
    (l.read c.arg = .ok c.floor ∧ c.floor.request = c.request) ∧
    forall (l' : Listing) (query' : ByteString) (c' : CachedCall), l'.read query' = .ok c' ->
      (c.request = c'.request <-> c.floor = c'.floor) := by
  have hfloor : forall c : CachedCall, c.floor.request = c.request :=
    fun c => (CachedCall.request_eq_iff _ _).mpr ⟨c.floor_method, c.floor_arg⟩
  refine ⟨?_, ⟨read_arg h, hfloor c⟩, ?_⟩
  · rcases call_of_read h with ⟨n, hn, hc⟩
    rw [hc]
    exact values_call hn
  · intro l' query' c' h'
    constructor
    · intro hrequest
      rcases (CachedCall.request_eq_iff c c').mp hrequest with ⟨hmethod, harg⟩
      have hl : l = l' := method_injective
        ((method_of_read h).symm.trans (hmethod.trans (method_of_read h')))
      have hread := read_arg h
      rw [harg, hl, read_arg h'] at hread
      exact (Except.ok.inj hread).symm
    · intro heq
      rw [← hfloor c, ← hfloor c', heq]

def looseQuery : ByteString := bytesOf "limit=-1&status=healthy%2C+stale%2C%2C&token=x&status=lost"

def tidyQuery : ByteString := bytesOf "status=healthy,stale"

theorem listing_queries_canonical_tidyQuery :
    exists c c', Listing.hosts.read looseQuery = .ok c ∧ Listing.hosts.read tidyQuery = .ok c' ∧
      c.arg = bytesOf "status=healthy%2Cstale" ∧ c.request = c'.request := by
  have hread : exists c, Listing.hosts.read looseQuery = .ok c ∧
      c.arg = bytesOf "status=healthy%2Cstale" ∧
      Listing.hosts.read tidyQuery = .ok c.floor := by
    refine ⟨.fleetHosts ⟨[], -1, [bytesOf "healthy", bytesOf "stale"], [], []⟩, ?_, ?_, ?_⟩
    all_goals decide +kernel
  rcases hread with ⟨c, hloose, harg, htidy⟩
  refine ⟨c, c.floor, hloose, htidy, harg, ?_⟩
  exact ((listing_queries_canonical hloose).right.right .hosts tidyQuery c.floor htidy).mpr
    c.floor_floor.symm

end Api
end LodelineManager
