import LodelineManager.Fleet.WireValues
import LodelineManager.Go.JSONCodecs

/-!
# The listings on the wire

The structs that the bodies of {lit}`/v1/fleet/hosts`, {lit}`/v1/fleet/hosts/{host_id}`,
{lit}`/v1/fleet/risk` and {lit}`/v1/fleet/compliance` are decoded into, each with the names of
its fields, and what the handlers pass on of the bodies.
-/

namespace LodelineManager
namespace Fleet
namespace Wire

open Foundation Go JSON

/-!
## Rows
-/

section

variable {float : Type} (F : Floats float)

/-- One row of the hosts. -/
structure HostSummary (float : Type) where
  hostID : String := ""
  hostname : Option String := none
  agentVersion : String := ""
  lastSeenTS : ZonedTime := ZonedTime.zero
  status : String := ""
  currentRisk : Option (CurrentRisk float) := none
  openEventCounts24h : Map Int := none

structure RiskRow (float : Type) where
  hostID : String := ""
  hostname : Option String := none
  score : float
  bucket : String := ""
  topTool : String := ""
  reasonsCount : Int := 0
  assessedTS : ZonedTime := ZonedTime.zero
  openAlertCount24h : Int := 0

structure ComplianceRow where
  hostID : String := ""
  hostname : Option String := none
  lastAppliedPolicyVersion : Int := 0
  serverCurrentPolicyVersion : Int := 0
  versionDrift : Int := 0
  policyExpiredActive : Bool := false
  lastPolicyReloadTS : Option ZonedTime := none
  signatureFailures24h : Int := 0

/-!
## Pages
-/

structure HostsPage (float : Type) where
  hosts : Slice (HostSummary float) := Slice.nil
  nextCursor : Option String := none
  totalEstimated : Int := 0

structure RiskPage (float : Type) where
  rows : Slice (RiskRow float) := Slice.nil
  nextCursor : Option String := none

structure CompliancePage where
  rows : Slice ComplianceRow := Slice.nil
  nextCursor : Option String := none

/-!
## Their fields
-/

def toolRisk : Schema (ToolRisk float) where
  entries :=
    [.plain "score" ToolRisk.score (fun r x => { r with score := x }) (.float F) (fun _ _ => rfl),
      .plain "bucket" ToolRisk.bucket (fun r x => { r with bucket := x }) .text (fun _ _ => rfl),
      .plain "assessed_ts" ToolRisk.assessedTS (fun r x => { r with assessedTS := x }) .time
        (fun _ _ => rfl)]
  zero := ToolRisk.zero F
  names := by
    show Distinct ["score", "bucket", "assessed_ts"]
    decide
  apart := by simp [Entry.Apart, Entry.plain]
  start := by
    intro e he
    fin_cases he <;> rfl

def currentRisk : Schema (CurrentRisk float) where
  entries :=
    [.plain "max_score" CurrentRisk.maxScore (fun r x => { r with maxScore := x }) (.float F)
        (fun _ _ => rfl),
      .plain "max_bucket" CurrentRisk.maxBucket (fun r x => { r with maxBucket := x }) .text
        (fun _ _ => rfl),
      .plain "by_tool" CurrentRisk.byTool (fun r x => { r with byTool := x }) (toolRisk F).codec.map
        (fun _ _ => rfl)]
  zero := CurrentRisk.zero F
  names := by
    show Distinct ["max_score", "max_bucket", "by_tool"]
    decide
  apart := by simp [Entry.Apart, Entry.plain]
  start := by
    intro e he
    fin_cases he <;> rfl

def hostSummary : Schema (HostSummary float) where
  entries :=
    [.plain "host_id" HostSummary.hostID (fun h x => { h with hostID := x }) .text (fun _ _ => rfl),
      .plain "hostname" HostSummary.hostname (fun h x => { h with hostname := x }) Codec.text.ptr
        (fun _ _ => rfl),
      .plain "agent_version" HostSummary.agentVersion
        (fun h x => { h with agentVersion := x }) .text (fun _ _ => rfl),
      .plain "last_seen_ts" HostSummary.lastSeenTS (fun h x => { h with lastSeenTS := x }) .time
        (fun _ _ => rfl),
      .plain "status" HostSummary.status (fun h x => { h with status := x }) .text (fun _ _ => rfl),
      .plain "current_risk" HostSummary.currentRisk
        (fun h x => { h with currentRisk := x }) (currentRisk F).codec.ptr (fun _ _ => rfl),
      .plain "open_event_counts_24h" HostSummary.openEventCounts24h
        (fun h x => { h with openEventCounts24h := x }) Codec.int.map (fun _ _ => rfl)]
  zero := {}
  names := by
    show Distinct ["host_id", "hostname", "agent_version", "last_seen_ts", "status",
      "current_risk", "open_event_counts_24h"]
    decide
  apart := by simp [Entry.Apart, Entry.plain]
  start := by
    intro e he
    fin_cases he <;> rfl

def riskRow : Schema (RiskRow float) where
  entries :=
    [.plain "host_id" RiskRow.hostID (fun r x => { r with hostID := x }) .text (fun _ _ => rfl),
      .plain "hostname" RiskRow.hostname (fun r x => { r with hostname := x }) Codec.text.ptr
        (fun _ _ => rfl),
      .plain "score" RiskRow.score (fun r x => { r with score := x }) (.float F) (fun _ _ => rfl),
      .plain "bucket" RiskRow.bucket (fun r x => { r with bucket := x }) .text (fun _ _ => rfl),
      .plain "top_tool" RiskRow.topTool (fun r x => { r with topTool := x }) .text (fun _ _ => rfl),
      .plain "reasons_count" RiskRow.reasonsCount (fun r x => { r with reasonsCount := x }) .int
        (fun _ _ => rfl),
      .plain "assessed_ts" RiskRow.assessedTS (fun r x => { r with assessedTS := x }) .time
        (fun _ _ => rfl),
      .plain "open_alert_count_24h" RiskRow.openAlertCount24h
        (fun r x => { r with openAlertCount24h := x }) .int (fun _ _ => rfl)]
  zero := { score := F.zero }
  names := by
    show Distinct ["host_id", "hostname", "score", "bucket", "top_tool", "reasons_count",
      "assessed_ts", "open_alert_count_24h"]
    decide
  apart := by simp [Entry.Apart, Entry.plain]
  start := by
    intro e he
    fin_cases he <;> rfl

def complianceRow : Schema ComplianceRow where
  entries :=
    [.plain "host_id" ComplianceRow.hostID (fun r x => { r with hostID := x }) .text
        (fun _ _ => rfl),
      .plain "hostname" ComplianceRow.hostname (fun r x => { r with hostname := x }) Codec.text.ptr
        (fun _ _ => rfl),
      .plain "last_applied_policy_version" ComplianceRow.lastAppliedPolicyVersion
        (fun r x => { r with lastAppliedPolicyVersion := x }) .int (fun _ _ => rfl),
      .plain "server_current_policy_version" ComplianceRow.serverCurrentPolicyVersion
        (fun r x => { r with serverCurrentPolicyVersion := x }) .int (fun _ _ => rfl),
      .plain "version_drift" ComplianceRow.versionDrift
        (fun r x => { r with versionDrift := x }) .int (fun _ _ => rfl),
      .plain "policy_expired_active" ComplianceRow.policyExpiredActive
        (fun r x => { r with policyExpiredActive := x }) .bool (fun _ _ => rfl),
      .plain "last_policy_reload_ts" ComplianceRow.lastPolicyReloadTS
        (fun r x => { r with lastPolicyReloadTS := x }) Codec.time.ptr (fun _ _ => rfl),
      .plain "signature_failures_24h" ComplianceRow.signatureFailures24h
        (fun r x => { r with signatureFailures24h := x }) .int (fun _ _ => rfl)]
  zero := {}
  names := by
    show Distinct ["host_id", "hostname", "last_applied_policy_version",
      "server_current_policy_version", "version_drift", "policy_expired_active",
      "last_policy_reload_ts", "signature_failures_24h"]
    decide
  apart := by simp [Entry.Apart, Entry.plain]
  start := by
    intro e he
    fin_cases he <;> rfl

def hostsPage : Schema (HostsPage float) where
  entries :=
    [.plain "hosts" HostsPage.hosts (fun p x => { p with hosts := x }) (hostSummary F).codec.slice
        (fun _ _ => rfl),
      .plain "next_cursor" HostsPage.nextCursor
        (fun p x => { p with nextCursor := x }) Codec.text.ptr (fun _ _ => rfl),
      .plain "total_estimated" HostsPage.totalEstimated
        (fun p x => { p with totalEstimated := x }) .int (fun _ _ => rfl)]
  zero := {}
  names := by
    show Distinct ["hosts", "next_cursor", "total_estimated"]
    decide
  apart := by simp [Entry.Apart, Entry.plain]
  start := by
    intro e he
    fin_cases he <;> rfl

def riskPage : Schema (RiskPage float) where
  entries :=
    [.plain "rows" RiskPage.rows (fun p x => { p with rows := x }) (riskRow F).codec.slice
        (fun _ _ => rfl),
      .plain "next_cursor" RiskPage.nextCursor
        (fun p x => { p with nextCursor := x }) Codec.text.ptr (fun _ _ => rfl)]
  zero := {}
  names := by
    show Distinct ["rows", "next_cursor"]
    decide
  apart := by simp [Entry.Apart, Entry.plain]
  start := by
    intro e he
    fin_cases he <;> rfl

def compliancePage : Schema CompliancePage where
  entries :=
    [.plain "rows" CompliancePage.rows (fun p x => { p with rows := x }) complianceRow.codec.slice
        (fun _ _ => rfl),
      .plain "next_cursor" CompliancePage.nextCursor
        (fun p x => { p with nextCursor := x }) Codec.text.ptr (fun _ _ => rfl)]
  zero := {}
  names := by
    show Distinct ["rows", "next_cursor"]
    decide
  apart := by simp [Entry.Apart, Entry.plain]
  start := by
    intro e he
    fin_cases he <;> rfl

/-!
## The blocks of a host
-/

def netInterface : Schema NetInterface where
  entries :=
    [.plain "name" NetInterface.name (fun n x => { n with name := x }) .text (fun _ _ => rfl),
      .plain "mac" NetInterface.mac (fun n x => { n with mac := x }) .text (fun _ _ => rfl),
      .plain "ipv4" NetInterface.ipv4 (fun n x => { n with ipv4 := x }) Codec.text.slice
        (fun _ _ => rfl),
      .plain "ipv6" NetInterface.ipv6 (fun n x => { n with ipv6 := x }) Codec.text.slice
        (fun _ _ => rfl)]
  zero := {}
  names := by
    show Distinct ["name", "mac", "ipv4", "ipv6"]
    decide
  apart := by simp [Entry.Apart, Entry.plain]
  start := by
    intro e he
    fin_cases he <;> rfl

def hostMeta : Schema HostMeta where
  entries :=
    [.plain "os_name" HostMeta.osName (fun m x => { m with osName := x }) .text (fun _ _ => rfl),
      .plain "os_version" HostMeta.osVersion (fun m x => { m with osVersion := x }) .text
        (fun _ _ => rfl),
      .plain "kernel_version" HostMeta.kernelVersion
        (fun m x => { m with kernelVersion := x }) .text (fun _ _ => rfl),
      .plain "architecture" HostMeta.architecture (fun m x => { m with architecture := x }) .text
        (fun _ _ => rfl),
      .plain "interfaces" HostMeta.interfaces
        (fun m x => { m with interfaces := x }) netInterface.codec.slice (fun _ _ => rfl),
      .plain "default_gateway_v4" HostMeta.defaultGatewayV4
        (fun m x => { m with defaultGatewayV4 := x }) Codec.text.ptr (fun _ _ => rfl),
      .plain "default_gateway_v6" HostMeta.defaultGatewayV6
        (fun m x => { m with defaultGatewayV6 := x }) Codec.text.ptr (fun _ _ => rfl),
      .plain "dns_servers" HostMeta.dnsServers
        (fun m x => { m with dnsServers := x }) Codec.text.slice (fun _ _ => rfl)]
  zero := {}
  names := by
    show Distinct ["os_name", "os_version", "kernel_version", "architecture", "interfaces",
      "default_gateway_v4", "default_gateway_v6", "dns_servers"]
    decide
  apart := by simp [Entry.Apart, Entry.plain]
  start := by
    intro e he
    fin_cases he <;> rfl

def policyState : Schema PolicyState where
  entries :=
    [.plain "last_applied_policy_version" PolicyState.lastAppliedPolicyVersion
        (fun p x => { p with lastAppliedPolicyVersion := x }) .int (fun _ _ => rfl),
      .plain "policy_expired_active" PolicyState.policyExpiredActive
        (fun p x => { p with policyExpiredActive := x }) .bool (fun _ _ => rfl),
      .plain "last_policy_reload_ts" PolicyState.lastPolicyReloadTS
        (fun p x => { p with lastPolicyReloadTS := x }) Codec.time.ptr (fun _ _ => rfl)]
  zero := {}
  names := by
    show Distinct ["last_applied_policy_version", "policy_expired_active", "last_policy_reload_ts"]
    decide
  apart := by simp [Entry.Apart, Entry.plain]
  start := by
    intro e he
    fin_cases he <;> rfl

def agentHealth : Schema AgentHealth where
  entries :=
    [.plain "recent_channel_stalls_24h" AgentHealth.recentChannelStalls24h
        (fun h x => { h with recentChannelStalls24h := x }) .int (fun _ _ => rfl),
      .plain "recent_watcher_degraded_24h" AgentHealth.recentWatcherDegraded24h
        (fun h x => { h with recentWatcherDegraded24h := x }) .int (fun _ _ => rfl),
      .plain "recent_sender_lag_critical_24h" AgentHealth.recentSenderLagCritical24h
        (fun h x => { h with recentSenderLagCritical24h := x }) .int (fun _ _ => rfl),
      .plain "last_heartbeat_ts" AgentHealth.lastHeartbeatTS
        (fun h x => { h with lastHeartbeatTS := x }) Codec.time.ptr (fun _ _ => rfl),
      .plain "hash_p99_ms_latest" AgentHealth.hashP99MsLatest
        (fun h x => { h with hashP99MsLatest := x }) Codec.int.ptr (fun _ _ => rfl),
      .plain "jsonl_above_soft_floor_latest" AgentHealth.jsonlAboveSoftFloorLatest
        (fun h x => { h with jsonlAboveSoftFloorLatest := x }) Codec.bool.ptr (fun _ _ => rfl)]
  zero := {}
  names := by
    show Distinct ["recent_channel_stalls_24h", "recent_watcher_degraded_24h",
      "recent_sender_lag_critical_24h", "last_heartbeat_ts", "hash_p99_ms_latest",
      "jsonl_above_soft_floor_latest"]
    decide
  apart := by simp [Entry.Apart, Entry.plain]
  start := by
    intro e he
    fin_cases he <;> rfl

def guardControl : Schema AiGuardControl where
  entries :=
    [.plain "id" AiGuardControl.id (fun c x => { c with id := x }) .text (fun _ _ => rfl),
      .plain "source_path" AiGuardControl.sourcePath (fun c x => { c with sourcePath := x }) .text
        (fun _ _ => rfl),
      .plain "setting" AiGuardControl.setting (fun c x => { c with setting := x }) .text
        (fun _ _ => rfl),
      .plain "value" AiGuardControl.value (fun c x => { c with value := x }) .raw (fun _ _ => rfl)]
  zero := {}
  names := by
    show Distinct ["id", "source_path", "setting", "value"]
    decide
  apart := by simp [Entry.Apart, Entry.plain]
  start := by
    intro e he
    fin_cases he <;> rfl

def toolAiGuard : Schema (ToolAiGuard float) where
  entries :=
    [.omitEmpty "controls" ToolAiGuard.controls
        (fun t x => { t with controls := x }) guardControl.codec.slice (fun _ _ => rfl),
      .plain "score" ToolAiGuard.score (fun t x => { t with score := x }) (.float F)
        (fun _ _ => rfl),
      .plain "bucket" ToolAiGuard.bucket (fun t x => { t with bucket := x }) .text (fun _ _ => rfl),
      .plain "assessed_ts" ToolAiGuard.assessedTS (fun t x => { t with assessedTS := x }) .time
        (fun _ _ => rfl),
      .plain "is_reattestation" ToolAiGuard.isReattestation
        (fun t x => { t with isReattestation := x }) .bool (fun _ _ => rfl),
      .plain "scope" ToolAiGuard.scope (fun t x => { t with scope := x }) .raw (fun _ _ => rfl),
      .plain "reasons" ToolAiGuard.reasons (fun t x => { t with reasons := x }) Codec.raw.slice
        (fun _ _ => rfl)]
  zero := ToolAiGuard.zero F
  names := by
    show Distinct ["controls", "score", "bucket", "assessed_ts", "is_reattestation", "scope",
      "reasons"]
    decide
  apart := by simp [Entry.Apart, Entry.plain, Entry.omitEmpty]
  start := by
    intro e he
    fin_cases he <;> rfl

def aiGuard : Schema (AiGuard float) where
  entries :=
    [.plain "by_tool" AiGuard.byTool (fun g x => { g with byTool := x }) (toolAiGuard F).codec.map
        (fun _ _ => rfl)]
  zero := {}
  names := by
    show Distinct ["by_tool"]
    decide
  apart := List.pairwise_singleton _ _
  start := by
    intro e he
    fin_cases he
    rfl

/-- The fields of the embedded summary, and the blocks. -/
def hostDetail : Schema (HostDetail float) where
  entries :=
    [.plain "host_id" HostDetail.hostID (fun h x => { h with hostID := x }) .text (fun _ _ => rfl),
      .plain "hostname" HostDetail.hostname (fun h x => { h with hostname := x }) Codec.text.ptr
        (fun _ _ => rfl),
      .plain "agent_version" HostDetail.agentVersion (fun h x => { h with agentVersion := x }) .text
        (fun _ _ => rfl),
      .plain "last_seen_ts" HostDetail.lastSeenTS (fun h x => { h with lastSeenTS := x }) .time
        (fun _ _ => rfl),
      .plain "status" HostDetail.status (fun h x => { h with status := x }) .text (fun _ _ => rfl),
      .plain "current_risk" HostDetail.currentRisk
        (fun h x => { h with currentRisk := x }) (currentRisk F).codec.ptr (fun _ _ => rfl),
      .plain "open_event_counts_24h" HostDetail.openEventCounts24h
        (fun h x => { h with openEventCounts24h := x }) Codec.int.map (fun _ _ => rfl),
      .plain "host_meta" HostDetail.hostMeta
        (fun h x => { h with hostMeta := x }) hostMeta.codec.ptr (fun _ _ => rfl),
      .plain "policy_state" HostDetail.policyState
        (fun h x => { h with policyState := x }) policyState.codec.ptr (fun _ _ => rfl),
      .plain "agent_health" HostDetail.agentHealth
        (fun h x => { h with agentHealth := x }) agentHealth.codec.ptr (fun _ _ => rfl),
      .plain "ai_guard" HostDetail.aiGuard
        (fun h x => { h with aiGuard := x }) (aiGuard F).codec.ptr (fun _ _ => rfl)]
  zero := {}
  names := by
    show Distinct ["host_id", "hostname", "agent_version", "last_seen_ts", "status",
      "current_risk", "open_event_counts_24h", "host_meta", "policy_state", "agent_health",
      "ai_guard"]
    decide
  apart := by simp [Entry.Apart, Entry.plain]
  start := by
    intro e he
    fin_cases he <;> rfl

/-!
## What the handlers pass on
-/

theorem toolAiGuard_write : (toolAiGuard F).codec.write = encodeTool F := by
  funext t
  rcases t with ⟨controls, _, _, _, _, _, _⟩
  cases controls <;> rfl

theorem hostDetail_write : (hostDetail F).codec.write = encodeHostDetail F := by
  have hguard : (aiGuard F).codec.write = encodeAiGuard F := by
    funext g
    show encodeStruct [("by_tool", encodeMap (toolAiGuard F).codec.write g.byTool)] = _
    rw [toolAiGuard_write]
    rfl
  funext h
  show encodeStruct [_, _, _, _, _, _, _, _, _, _,
    ("ai_guard", encodePtr (aiGuard F).codec.write h.aiGuard)] = _
  rw [hguard]
  rfl

def relay {type : Type} (c : Codec type) (j : Document) : Option Document :=
  (c.read j c.zero).bind c.write

theorem says_of_relay {type : Type} {c : Codec type} {j d : Document} (h : relay c j = some d) :
    c.Says [value j] (value d) := by
  rcases Option.bind_eq_some_iff.mp h with ⟨a, hread, hwrite⟩
  exact c.relayed hread hwrite

/-- A page has the cursor of the value that it was read from, and its rows in order. -/
structure PageSays {row : Type} (name : String) (c : Codec row) (v w : Value) : Prop where
  nextCursor : get? "next_cursor" w = some (ofOptionalText (optionalTextIn "next_cursor" v))
  rows : c.slice.Says (fieldValues name v) ((get? name w).getD .null)

section

variable {page row : Type} {s : Schema page} {name : String} {c : Codec row}
  {getRows : page -> Slice row} {setRows : page -> Slice row -> page}
  {getCursor : page -> Option String} {setCursor : page -> Option String -> page}
  {hrows : forall p x, getRows (setRows p x) = x}
  {hcursor : forall p x, getCursor (setCursor p x) = x}

theorem pageSays_of_relay (hr : Entry.plain name getRows setRows c.slice hrows ∈ s.entries)
    (hc : Entry.plain "next_cursor" getCursor setCursor Codec.text.ptr hcursor ∈ s.entries)
    {j d : Document} (h : relay s.codec j = some d) : PageSays name c (value j) (value d) := by
  rcases Option.bind_eq_some_iff.mp h with ⟨p, hread, hwrite⟩
  constructor
  · have hget : getCursor p = optionalTextIn "next_cursor" (value j) :=
      (s.reads hc).optionalText hread (s.start _ hc)
    rw [← hget]
    exact (s.get?_written hc hwrite rfl).trans (value_encodePtr_string _)
  · rcases s.says_plain hr (says_of_relay h) with ⟨y, hy, hsays⟩
    rw [membersOf_singleton] at hsays
    rw [hy]
    exact hsays

end

end

section

variable {float : Type} (F : Floats float)

theorem hostsPage_written (page : HostsPage float) :
    ((hostsPage F).codec.write page).isSome <->
      forall h, h ∈ page.hosts.toList -> h.lastSeenTS.Writable ∧
        forall risk, h.currentRisk = some risk -> forall tools key t, risk.byTool = some tools ->
          tools.lookup key = some t -> t.assessedTS.Writable := by
  refine ((hostsPage F).codec.written page).trans ?_
  simp [hostsPage, hostSummary, currentRisk, toolRisk]

theorem riskPage_written (page : RiskPage float) :
    ((riskPage F).codec.write page).isSome <->
      forall r, r ∈ page.rows.toList -> r.assessedTS.Writable := by
  refine ((riskPage F).codec.written page).trans ?_
  simp [riskPage, riskRow]

theorem compliancePage_written (page : CompliancePage) :
    (compliancePage.codec.write page).isSome <->
      forall r, r ∈ page.rows.toList -> forall t, r.lastPolicyReloadTS = some t -> t.Writable := by
  refine (compliancePage.codec.written page).trans ?_
  simp [compliancePage, complianceRow]

variable {F} {j d : Document}

theorem hostsPage_says (h : relay (hostsPage F).codec j = some d) :
    PageSays "hosts" (hostSummary F).codec (value j) (value d) :=
  pageSays_of_relay (List.mem_of_getElem? (i := 0) rfl) (List.mem_of_getElem? (i := 1) rfl) h

theorem riskPage_says (h : relay (riskPage F).codec j = some d) :
    PageSays "rows" (riskRow F).codec (value j) (value d) :=
  pageSays_of_relay (List.mem_of_getElem? (i := 0) rfl) (List.mem_of_getElem? (i := 1) rfl) h

theorem compliancePage_says (h : relay compliancePage.codec j = some d) :
    PageSays "rows" complianceRow.codec (value j) (value d) :=
  pageSays_of_relay (List.mem_of_getElem? (i := 0) rfl) (List.mem_of_getElem? (i := 1) rfl) h

variable (F) (j d)

/-- What the handlers send for a body of a listing or of a host says what the body says, field
by field and for every key, and nothing else; and whatever was decoded is sent unless one of
its times cannot be written. -/
theorem bodies_relayed :
    (relay (hostsPage F).codec j = some d -> (hostsPage F).codec.Says [value j] (value d) ∧
      PageSays "hosts" (hostSummary F).codec (value j) (value d)) ∧
    (relay (riskPage F).codec j = some d -> (riskPage F).codec.Says [value j] (value d) ∧
      PageSays "rows" (riskRow F).codec (value j) (value d)) ∧
    (relay compliancePage.codec j = some d -> compliancePage.codec.Says [value j] (value d) ∧
      PageSays "rows" complianceRow.codec (value j) (value d)) ∧
    (forall host, decodeHostDetail F j = some host -> encodeHostDetail F host = some d ->
      (hostDetail F).codec.Says [value j] (value d)) ∧
    (forall page, ((hostsPage F).codec.write page).isSome <->
      forall h, h ∈ page.hosts.toList -> h.lastSeenTS.Writable ∧
        forall risk, h.currentRisk = some risk -> forall tools key t, risk.byTool = some tools ->
          tools.lookup key = some t -> t.assessedTS.Writable) ∧
    (forall page, ((riskPage F).codec.write page).isSome <->
      forall r, r ∈ page.rows.toList -> r.assessedTS.Writable) ∧
    forall page, (compliancePage.codec.write page).isSome <->
      forall r, r ∈ page.rows.toList -> forall t, r.lastPolicyReloadTS = some t -> t.Writable := by
  refine ⟨fun h => ⟨says_of_relay h, hostsPage_says h⟩, fun h => ⟨says_of_relay h, riskPage_says h⟩,
    fun h => ⟨says_of_relay h, compliancePage_says h⟩, ?_, hostsPage_written F, riskPage_written F,
    compliancePage_written⟩
  intro host hread hwrite
  rw [← hostDetail_write] at hwrite
  exact (hostDetail F).codec.relayed hread hwrite

end

def unitFloats : Floats Unit := { zero := (), parse := fun _ => some (), format := fun _ => "0" }

def namedTwice : Document :=
  .object
    [(quote "hosts".toList, .array [.object [(quote "host_id".toList, encodeString "a")]]),
      (quote "next_cursor".toList, encodeString "a"),
      (quote "HOSTS".toList, .array [.object [(quote "status".toList, encodeString "stale")]])]

theorem bodies_relayed_namedTwice :
    exists d, relay (hostsPage unitFloats).codec namedTwice = some d ∧
      PageSays "hosts" (hostSummary unitFloats).codec (value namedTwice) (value d) ∧
      get? "next_cursor" (value d) = some (ofText "a") := by
  have hsome : (relay (hostsPage unitFloats).codec namedTwice).isSome = true := by decide +kernel
  rcases Option.isSome_iff_exists.mp hsome with ⟨d, hd⟩
  have hsays := ((bodies_relayed unitFloats namedTwice d).left hd).right
  refine ⟨d, hd, hsays, hsays.nextCursor.trans ?_⟩
  have hcursor : optionalTextIn "next_cursor" (value namedTwice) = some "a" := by decide +kernel
  rw [hcursor]
  rfl

end Wire
end Fleet
end LodelineManager
