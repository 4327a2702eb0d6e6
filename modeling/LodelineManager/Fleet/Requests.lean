import LodelineManager.Fleet.Timeouts
import LodelineManager.Go.URL

/-!
# Requests of the fleet client

The parameters of the read endpoints, the queries that are built from them, and the
calls of the caching client with the request each of them stands for.
-/

namespace LodelineManager
namespace Fleet

open Go

/-- Zero values mean "omit"; {lit}`since` and {lit}`until` are instants, and the zero time
counts as a zero value. -/
structure EventsParams where
  cursor : ByteString
  limit : Int
  hostIDs : List ByteString
  since : Int
  until_ : Int
  evidenceKinds : List ByteString
  severity : List ByteString
  source : List ByteString
  minAiGuardBucket : ByteString
  deriving DecidableEq

structure HostsParams where
  cursor : ByteString
  limit : Int
  status : List ByteString
  bucket : List ByteString
  sort : ByteString
  deriving DecidableEq

structure RiskParams where
  cursor : ByteString
  limit : Int
  tool : List ByteString
  minBucket : ByteString
  deriving DecidableEq

structure ComplianceParams where
  cursor : ByteString
  limit : Int
  deriving DecidableEq

/-!
## Query builders
-/

/-- {lit}`strconv.Itoa`. -/
def itoa (n : Int) : ByteString := bytesOf (String.ofList (appendInt n 1))

/-- {lit}`strings.Join(parts, ",")`. -/
def joinComma (parts : List ByteString) : ByteString := List.intercalate [44] parts

section

variable (q : Values)

def setText (key : String) (value : ByteString) : Values :=
  if value = [] then q else q.set (bytesOf key) value

def setLimit (limit : Int) : Values :=
  if 0 < limit then q.set (bytesOf "limit") (itoa limit) else q

def setList (key : String) (parts : List ByteString) : Values :=
  if 0 < parts.length then q.set (bytesOf key) (joinComma parts) else q

def setTime (key : String) (t : Int) : Values :=
  if t = zeroTime then q else q.set (bytesOf key) (bytesOf (String.ofList (formatRFC3339 t)))

end

def buildEventsQuery (p : EventsParams) : Values :=
  let q := setText ∅ "cursor" p.cursor
  let q := setLimit q p.limit
  let q := setList q "host_id" p.hostIDs
  let q := setTime q "since" p.since
  let q := setTime q "until" p.until_
  let q := setList q "evidence_kind" p.evidenceKinds
  let q := setList q "severity" p.severity
  let q := setList q "source" p.source
  setText q "min_ai_guard_bucket" p.minAiGuardBucket

def buildHostsQuery (p : HostsParams) : Values :=
  let q := setText ∅ "cursor" p.cursor
  let q := setLimit q p.limit
  let q := setList q "status" p.status
  let q := setList q "bucket" p.bucket
  setText q "sort" p.sort

def buildRiskQuery (p : RiskParams) : Values :=
  let q := setText ∅ "cursor" p.cursor
  let q := setLimit q p.limit
  let q := setList q "tool" p.tool
  setText q "min_bucket" p.minBucket

def buildComplianceQuery (p : ComplianceParams) : Values :=
  setLimit (setText ∅ "cursor" p.cursor) p.limit

/-!
## Calls of the caching client
-/

/-- The methods that go through {lit}`getCached`, with their parameters. -/
inductive CachedCall where
  | events (p : EventsParams)
  | serverMeta
  | policyMeta
  | eventByID (id : ByteString)
  | fleetHosts (p : HostsParams)
  | fleetHostByID (id : ByteString)
  | fleetRisk (p : RiskParams)
  | fleetCompliance (p : ComplianceParams)
  deriving DecidableEq

/-- The methods alone; each returns values of its own type. -/
inductive Method where
  | events
  | serverMeta
  | policyMeta
  | eventByID
  | fleetHosts
  | fleetHostByID
  | fleetRisk
  | fleetCompliance
  deriving DecidableEq

namespace CachedCall

def method : CachedCall -> Method
  | .events _ => .events
  | .serverMeta => .serverMeta
  | .policyMeta => .policyMeta
  | .eventByID _ => .eventByID
  | .fleetHosts _ => .fleetHosts
  | .fleetHostByID _ => .fleetHostByID
  | .fleetRisk _ => .fleetRisk
  | .fleetCompliance _ => .fleetCompliance

/-- The endpoint name that a method passes to {lit}`getCached`. -/
def endpoint : CachedCall -> String
  | .events _ => "events"
  | .serverMeta => "meta"
  | .policyMeta => "policy_meta"
  | .eventByID _ => "event_by_id"
  | .fleetHosts _ => "hosts"
  | .fleetHostByID _ => "host_by_id"
  | .fleetRisk _ => "risk"
  | .fleetCompliance _ => "compliance"

/-- The suffix that a method passes to {lit}`getCached`. -/
def suffix : CachedCall -> String
  | .events p => (buildEventsQuery p).encode.text
  | .serverMeta => ""
  | .policyMeta => ""
  | .eventByID id => id.text
  | .fleetHosts p => (buildHostsQuery p).encode.text
  | .fleetHostByID id => id.text
  | .fleetRisk p => (buildRiskQuery p).encode.text
  | .fleetCompliance p => (buildComplianceQuery p).encode.text

def upstream : CachedCall -> Endpoint
  | .events p => .events (buildEventsQuery p).encode.text
  | .serverMeta => .serverMeta
  | .policyMeta => .policyMeta
  | .eventByID id => .eventByID id.text
  | .fleetHosts p => .fleetHosts (buildHostsQuery p).encode.text
  | .fleetHostByID id => .fleetHostByID id.text
  | .fleetRisk p => .fleetRisk (buildRiskQuery p).encode.text
  | .fleetCompliance p => .fleetCompliance (buildComplianceQuery p).encode.text

def key (c : CachedCall) : String := cacheKey c.endpoint c.suffix

end CachedCall

/-- {lit}`url.PathEscape` on texts of bytes. -/
def pathEscapeText (s : String) : String := (pathEscape (bytesOf s)).text

def CachedCall.request (c : CachedCall) : String × String × String :=
  ("GET", c.upstream.path pathEscapeText, c.upstream.query)

/-!
## Keys and requests
-/

namespace Method

def name : Method -> String
  | .events => "events"
  | .serverMeta => "meta"
  | .policyMeta => "policy_meta"
  | .eventByID => "event_by_id"
  | .fleetHosts => "hosts"
  | .fleetHostByID => "host_by_id"
  | .fleetRisk => "risk"
  | .fleetCompliance => "compliance"

def base : Method -> String
  | .events => "/v1/events"
  | .serverMeta => "/v1/meta"
  | .policyMeta => "/v1/policy/meta"
  | .eventByID => "/v1/events/"
  | .fleetHosts => "/v1/fleet/hosts"
  | .fleetHostByID => "/v1/fleet/hosts/"
  | .fleetRisk => "/v1/fleet/risk"
  | .fleetCompliance => "/v1/fleet/compliance"

def byID : Method -> Bool
  | .eventByID | .fleetHostByID => true
  | _ => false

theorem name_injective {m m' : Method} (h : m.name = m'.name) : m = m' := by
  cases m <;> cases m' <;> first | rfl | exact absurd h (by decide)

theorem name_separator (m : Method) : '|' ∉ m.name.toList := by
  cases m <;> decide

theorem base_clash {m m' : Method} (hne : m ≠ m') :
    m.base ≠ m'.base ∧ (m.byID = true -> ¬ m.base.toList <+: m'.base.toList) := by
  cases m <;> cases m' <;> first | exact absurd rfl hne | decide

end Method

namespace CachedCall

def arg : CachedCall -> ByteString
  | .events p => (buildEventsQuery p).encode
  | .serverMeta => []
  | .policyMeta => []
  | .eventByID id => id
  | .fleetHosts p => (buildHostsQuery p).encode
  | .fleetHostByID id => id
  | .fleetRisk p => (buildRiskQuery p).encode
  | .fleetCompliance p => (buildComplianceQuery p).encode

theorem endpoint_eq (c : CachedCall) : c.endpoint = c.method.name := by
  cases c <;> rfl

theorem suffix_eq (c : CachedCall) : c.suffix = c.arg.text := by
  cases c <;> rfl

theorem path_eq (c : CachedCall) :
    c.upstream.path pathEscapeText =
      c.method.base ++ (if c.method.byID then (pathEscape c.arg).text else "") := by
  have hescape : forall id : ByteString, pathEscapeText id.text = (pathEscape id).text := by
    intro id
    unfold pathEscapeText
    rw [bytesOf_text]
  cases c with
  | eventByID id => exact congrArg ("/v1/events/" ++ ·) (hescape id)
  | fleetHostByID id => exact congrArg ("/v1/fleet/hosts/" ++ ·) (hescape id)
  | _ => exact (String.append_empty).symm

theorem query_eq (c : CachedCall) :
    c.upstream.query = if c.method.byID then "" else c.arg.text := by
  cases c <;> rfl

theorem append_separator_inj {front front' back back' : List Char} (hfront : '|' ∉ front)
    (hfront' : '|' ∉ front') (h : front ++ '|' :: back = front' ++ '|' :: back') :
    front = front' ∧ back = back' := by
  induction front generalizing front' with
  | nil =>
      cases front' with
      | nil =>
          injection h with _ hback
          exact ⟨rfl, hback⟩
      | cons c rest =>
          injection h with hc _
          rw [← hc] at hfront'
          exact absurd List.mem_cons_self hfront'
  | cons c rest ih =>
      cases front' with
      | nil =>
          injection h with hc _
          rw [hc] at hfront
          exact absurd List.mem_cons_self hfront
      | cons c' rest' =>
          injection h with hc hrest
          rcases ih (fun hmem => hfront (List.mem_cons_of_mem _ hmem))
            (fun hmem => hfront' (List.mem_cons_of_mem _ hmem)) hrest with ⟨heq, hback⟩
          exact ⟨by rw [hc, heq], hback⟩

theorem key_toList (c : CachedCall) :
    c.key.toList = c.method.name.toList ++ '|' :: c.arg.text.toList := by
  unfold key cacheKey
  rw [endpoint_eq, suffix_eq, String.toList_append, String.toList_append, List.append_assoc]
  rfl

theorem key_eq_iff (c c' : CachedCall) :
    c.key = c'.key <-> c.method = c'.method ∧ c.arg = c'.arg := by
  constructor
  · intro h
    have hlist := congrArg String.toList h
    rw [key_toList, key_toList] at hlist
    rcases append_separator_inj (Method.name_separator _) (Method.name_separator _) hlist with
      ⟨hname, harg⟩
    exact ⟨Method.name_injective (String.toList_injective hname),
      text_injective (String.toList_injective harg)⟩
  · intro h
    unfold key
    rw [endpoint_eq, endpoint_eq, suffix_eq, suffix_eq, h.left, h.right]

theorem method_eq_of_path {c c' : CachedCall}
    (h : c.upstream.path pathEscapeText = c'.upstream.path pathEscapeText) :
    c.method = c'.method := by
  by_contra hne
  rcases Method.base_clash hne with ⟨hbase, hclash⟩
  rcases Method.base_clash (fun heq => hne heq.symm) with ⟨_, hclash'⟩
  rw [path_eq, path_eq] at h
  have hlist := congrArg String.toList h
  rw [String.toList_append, String.toList_append] at hlist
  cases hid : c.method.byID with
  | true =>
      cases hid' : c'.method.byID with
      | true =>
          rcases List.append_eq_append_iff.mp hlist with ⟨t, ht, _⟩ | ⟨t, ht, _⟩
          · exact hclash hid ⟨t, ht.symm⟩
          · exact hclash' hid' ⟨t, ht.symm⟩
      | false =>
          apply hclash hid
          rw [hid'] at hlist
          exact ⟨_, hlist.trans (List.append_nil _)⟩
  | false =>
      rw [hid] at hlist
      cases hid' : c'.method.byID with
      | true => exact hclash' hid' ⟨_, hlist.symm.trans (List.append_nil _)⟩
      | false =>
          rw [hid'] at hlist
          exact hbase (String.toList_injective (List.append_cancel_right hlist))

theorem request_eq_iff (c c' : CachedCall) :
    c.request = c'.request <-> c.method = c'.method ∧ c.arg = c'.arg := by
  constructor
  · intro h
    have hpath : c.upstream.path pathEscapeText = c'.upstream.path pathEscapeText :=
      congrArg (fun r => r.2.1) h
    have hquery : c.upstream.query = c'.upstream.query := congrArg (fun r => r.2.2) h
    have hmethod := method_eq_of_path hpath
    refine ⟨hmethod, ?_⟩
    rw [path_eq, path_eq, hmethod] at hpath
    rw [query_eq, query_eq, hmethod] at hquery
    cases hid : c'.method.byID with
    | true =>
        rw [hid] at hpath
        have hlist := congrArg String.toList hpath
        rw [String.toList_append, String.toList_append] at hlist
        exact pathEscape_injective
          (text_injective (String.toList_injective (List.append_cancel_left hlist)))
    | false =>
        rw [hid] at hquery
        exact text_injective hquery
  · intro h
    unfold request
    rw [path_eq, path_eq, query_eq, query_eq, h.left, h.right]

end CachedCall

end Fleet
end LodelineManager
