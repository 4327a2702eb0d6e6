import LodelineManager.Go.ZonedTime

/-!
# The wire structs of the fleet client

The structs that the bodies of {lit}`/v1/events` and {lit}`/v1/fleet/hosts/{host_id}` are
decoded into, and how they are encoded again.  The defaults are the zero values.
-/

namespace LodelineManager
namespace Fleet
namespace Wire

open Foundation Go JSON

/-!
## /v1/events
-/

/-- The kind and the entire object. -/
structure Evidence where
  kind : String := ""
  raw : RawMessage := none

def probeFields : List (Field Text String) :=
  [field "kind" id (fun _ kind => kind) decodeString]

/-- {lit}`Evidence.UnmarshalJSON`. -/
def decodeEvidence (data : Document) (_ : Evidence) : Option Evidence :=
  (decodeStruct probeFields data "").map (fun kind => { kind := kind, raw := some data })

/-- {lit}`Evidence.MarshalJSON`. -/
def encodeEvidence (e : Evidence) : Document := encodeRaw e.raw

structure Event where
  schemaVersion : Int := 0
  eventID : String := ""
  ts : ZonedTime := ZonedTime.zero
  hostID : String := ""
  agentVersion : String := ""
  severity : String := ""
  source : RawMessage := none
  subject : RawMessage := none
  evidence : Evidence := {}
  targetID : Option String := none

def eventFields : List (Field Text Event) :=
  [field "schema_version" Event.schemaVersion (fun e x => { e with schemaVersion := x }) decodeInt,
    field "event_id" Event.eventID (fun e x => { e with eventID := x }) decodeString,
    field "ts" Event.ts (fun e x => { e with ts := x }) decodeTime,
    field "host_id" Event.hostID (fun e x => { e with hostID := x }) decodeString,
    field "agent_version" Event.agentVersion (fun e x => { e with agentVersion := x }) decodeString,
    field "severity" Event.severity (fun e x => { e with severity := x }) decodeString,
    field "source" Event.source (fun e x => { e with source := x }) decodeRaw,
    field "subject" Event.subject (fun e x => { e with subject := x }) decodeRaw,
    field "evidence" Event.evidence (fun e x => { e with evidence := x }) decodeEvidence,
    field "target_id" Event.targetID (fun e x => { e with targetID := x })
      (decodePtr "" decodeString)]

def decodeEvent : Document -> Event -> Option Event := decodeStruct eventFields

def Event.members (e : Event) : List (String × Option Document) :=
  [("schema_version", some (encodeInt e.schemaVersion)), ("event_id", some (encodeString e.eventID)),
    ("ts", encodeTime e.ts), ("host_id", some (encodeString e.hostID)),
    ("agent_version", some (encodeString e.agentVersion)),
    ("severity", some (encodeString e.severity)), ("source", some (encodeRaw e.source)),
    ("subject", some (encodeRaw e.subject)), ("evidence", some (encodeEvidence e.evidence)),
    ("target_id", encodePtr (fun s => some (encodeString s)) e.targetID)]

structure EventsPage where
  events : Slice Event := Slice.nil
  nextCursor : Option String := none

def eventsPageFields : List (Field Text EventsPage) :=
  [field "events" EventsPage.events (fun p x => { p with events := x })
      (decodeSlice {} decodeEvent),
    field "next_cursor" EventsPage.nextCursor (fun p x => { p with nextCursor := x })
      (decodePtr "" decodeString)]

def decodeEventsPage (j : Document) : Option EventsPage := decodeStruct eventsPageFields j {}

/-!
## /v1/fleet/hosts/{host_id}
-/

section

variable {float : Type} (F : Floats float)

structure ToolRisk (float : Type) where
  score : float
  bucket : String := ""
  assessedTS : ZonedTime := ZonedTime.zero

def ToolRisk.zero : ToolRisk float := { score := F.zero }

def toolRiskFields : List (Field Text (ToolRisk float)) :=
  [field "score" ToolRisk.score (fun r x => { r with score := x }) (decodeFloat F),
    field "bucket" ToolRisk.bucket (fun r x => { r with bucket := x }) decodeString,
    field "assessed_ts" ToolRisk.assessedTS (fun r x => { r with assessedTS := x }) decodeTime]

def encodeStruct (members : List (String × Option Document)) : Option Document :=
  (encodeObject members).map .object

def encodeToolRisk (r : ToolRisk float) : Option Document :=
  encodeStruct
    [("score", some (encodeFloat F r.score)), ("bucket", some (encodeString r.bucket)),
      ("assessed_ts", encodeTime r.assessedTS)]

structure CurrentRisk (float : Type) where
  maxScore : float
  maxBucket : String := ""
  byTool : Map (ToolRisk float) := none

def CurrentRisk.zero : CurrentRisk float := { maxScore := F.zero }

def currentRiskFields : List (Field Text (CurrentRisk float)) :=
  [field "max_score" CurrentRisk.maxScore (fun r x => { r with maxScore := x }) (decodeFloat F),
    field "max_bucket" CurrentRisk.maxBucket (fun r x => { r with maxBucket := x }) decodeString,
    field "by_tool" CurrentRisk.byTool (fun r x => { r with byTool := x })
      (decodeMap (ToolRisk.zero F) (decodeStruct (toolRiskFields F)))]

def encodeCurrentRisk (r : CurrentRisk float) : Option Document :=
  encodeStruct
    [("max_score", some (encodeFloat F r.maxScore)), ("max_bucket", some (encodeString r.maxBucket)),
      ("by_tool", encodeMap (encodeToolRisk F) r.byTool)]

structure NetInterface where
  name : String := ""
  mac : String := ""
  ipv4 : Slice String := Slice.nil
  ipv6 : Slice String := Slice.nil

def decodeStrings : Document -> Slice String -> Option (Slice String) := decodeSlice "" decodeString

def encodeStrings : Slice String -> Option Document := encodeSlice (fun s => some (encodeString s))

def netInterfaceFields : List (Field Text NetInterface) :=
  [field "name" NetInterface.name (fun n x => { n with name := x }) decodeString,
    field "mac" NetInterface.mac (fun n x => { n with mac := x }) decodeString,
    field "ipv4" NetInterface.ipv4 (fun n x => { n with ipv4 := x }) decodeStrings,
    field "ipv6" NetInterface.ipv6 (fun n x => { n with ipv6 := x }) decodeStrings]

def encodeNetInterface (n : NetInterface) : Option Document :=
  encodeStruct
    [("name", some (encodeString n.name)), ("mac", some (encodeString n.mac)),
      ("ipv4", encodeStrings n.ipv4), ("ipv6", encodeStrings n.ipv6)]

structure HostMeta where
  osName : String := ""
  osVersion : String := ""
  kernelVersion : String := ""
  architecture : String := ""
  interfaces : Slice NetInterface := Slice.nil
  defaultGatewayV4 : Option String := none
  defaultGatewayV6 : Option String := none
  dnsServers : Slice String := Slice.nil

def hostMetaFields : List (Field Text HostMeta) :=
  [field "os_name" HostMeta.osName (fun m x => { m with osName := x }) decodeString,
    field "os_version" HostMeta.osVersion (fun m x => { m with osVersion := x }) decodeString,
    field "kernel_version" HostMeta.kernelVersion (fun m x => { m with kernelVersion := x })
      decodeString,
    field "architecture" HostMeta.architecture (fun m x => { m with architecture := x })
      decodeString,
    field "interfaces" HostMeta.interfaces (fun m x => { m with interfaces := x })
      (decodeSlice {} (decodeStruct netInterfaceFields)),
    field "default_gateway_v4" HostMeta.defaultGatewayV4
      (fun m x => { m with defaultGatewayV4 := x }) (decodePtr "" decodeString),
    field "default_gateway_v6" HostMeta.defaultGatewayV6
      (fun m x => { m with defaultGatewayV6 := x }) (decodePtr "" decodeString),
    field "dns_servers" HostMeta.dnsServers (fun m x => { m with dnsServers := x }) decodeStrings]

def encodeHostMeta (m : HostMeta) : Option Document :=
  encodeStruct
    [("os_name", some (encodeString m.osName)), ("os_version", some (encodeString m.osVersion)),
      ("kernel_version", some (encodeString m.kernelVersion)),
      ("architecture", some (encodeString m.architecture)),
      ("interfaces", encodeSlice encodeNetInterface m.interfaces),
      ("default_gateway_v4", encodePtr (fun s => some (encodeString s)) m.defaultGatewayV4),
      ("default_gateway_v6", encodePtr (fun s => some (encodeString s)) m.defaultGatewayV6),
      ("dns_servers", encodeStrings m.dnsServers)]

structure PolicyState where
  lastAppliedPolicyVersion : Int := 0
  policyExpiredActive : Bool := false
  lastPolicyReloadTS : Option ZonedTime := none

def policyStateFields : List (Field Text PolicyState) :=
  [field "last_applied_policy_version" PolicyState.lastAppliedPolicyVersion
      (fun p x => { p with lastAppliedPolicyVersion := x }) decodeInt,
    field "policy_expired_active" PolicyState.policyExpiredActive
      (fun p x => { p with policyExpiredActive := x }) decodeBool,
    field "last_policy_reload_ts" PolicyState.lastPolicyReloadTS
      (fun p x => { p with lastPolicyReloadTS := x }) (decodePtr ZonedTime.zero decodeTime)]

def encodePolicyState (p : PolicyState) : Option Document :=
  encodeStruct
    [("last_applied_policy_version", some (encodeInt p.lastAppliedPolicyVersion)),
      ("policy_expired_active", some (.bool p.policyExpiredActive)),
      ("last_policy_reload_ts", encodePtr encodeTime p.lastPolicyReloadTS)]

structure AgentHealth where
  recentChannelStalls24h : Int := 0
  recentWatcherDegraded24h : Int := 0
  recentSenderLagCritical24h : Int := 0
  lastHeartbeatTS : Option ZonedTime := none
  hashP99MsLatest : Option Int := none
  jsonlAboveSoftFloorLatest : Option Bool := none

def agentHealthFields : List (Field Text AgentHealth) :=
  [field "recent_channel_stalls_24h" AgentHealth.recentChannelStalls24h
      (fun h x => { h with recentChannelStalls24h := x }) decodeInt,
    field "recent_watcher_degraded_24h" AgentHealth.recentWatcherDegraded24h
      (fun h x => { h with recentWatcherDegraded24h := x }) decodeInt,
    field "recent_sender_lag_critical_24h" AgentHealth.recentSenderLagCritical24h
      (fun h x => { h with recentSenderLagCritical24h := x }) decodeInt,
    field "last_heartbeat_ts" AgentHealth.lastHeartbeatTS
      (fun h x => { h with lastHeartbeatTS := x }) (decodePtr ZonedTime.zero decodeTime),
    field "hash_p99_ms_latest" AgentHealth.hashP99MsLatest
      (fun h x => { h with hashP99MsLatest := x }) (decodePtr 0 decodeInt),
    field "jsonl_above_soft_floor_latest" AgentHealth.jsonlAboveSoftFloorLatest
      (fun h x => { h with jsonlAboveSoftFloorLatest := x }) (decodePtr false decodeBool)]

def encodeAgentHealth (h : AgentHealth) : Option Document :=
  encodeStruct
    [("recent_channel_stalls_24h", some (encodeInt h.recentChannelStalls24h)),
      ("recent_watcher_degraded_24h", some (encodeInt h.recentWatcherDegraded24h)),
      ("recent_sender_lag_critical_24h", some (encodeInt h.recentSenderLagCritical24h)),
      ("last_heartbeat_ts", encodePtr encodeTime h.lastHeartbeatTS),
      ("hash_p99_ms_latest", encodePtr (fun n => some (encodeInt n)) h.hashP99MsLatest),
      ("jsonl_above_soft_floor_latest",
        encodePtr (fun b => some (.bool b)) h.jsonlAboveSoftFloorLatest)]

structure AiGuardControl where
  id : String := ""
  sourcePath : String := ""
  setting : String := ""
  value : RawMessage := none

def controlFields : List (Field Text AiGuardControl) :=
  [field "id" AiGuardControl.id (fun c x => { c with id := x }) decodeString,
    field "source_path" AiGuardControl.sourcePath (fun c x => { c with sourcePath := x })
      decodeString,
    field "setting" AiGuardControl.setting (fun c x => { c with setting := x }) decodeString,
    field "value" AiGuardControl.value (fun c x => { c with value := x }) decodeRaw]

def encodeControl (c : AiGuardControl) : Option Document :=
  encodeStruct
    [("id", some (encodeString c.id)), ("source_path", some (encodeString c.sourcePath)),
      ("setting", some (encodeString c.setting)), ("value", some (encodeRaw c.value))]

structure ToolAiGuard (float : Type) where
  controls : Option (Slice AiGuardControl) := none
  score : float
  bucket : String := ""
  assessedTS : ZonedTime := ZonedTime.zero
  isReattestation : Bool := false
  scope : RawMessage := none
  reasons : Slice RawMessage := Slice.nil

def ToolAiGuard.zero : ToolAiGuard float := { score := F.zero }

def toolFields : List (Field Text (ToolAiGuard float)) :=
  [field "controls" ToolAiGuard.controls (fun t x => { t with controls := x })
      (decodePtr Slice.nil (decodeSlice {} (decodeStruct controlFields))),
    field "score" ToolAiGuard.score (fun t x => { t with score := x }) (decodeFloat F),
    field "bucket" ToolAiGuard.bucket (fun t x => { t with bucket := x }) decodeString,
    field "assessed_ts" ToolAiGuard.assessedTS (fun t x => { t with assessedTS := x }) decodeTime,
    field "is_reattestation" ToolAiGuard.isReattestation
      (fun t x => { t with isReattestation := x }) decodeBool,
    field "scope" ToolAiGuard.scope (fun t x => { t with scope := x }) decodeRaw,
    field "reasons" ToolAiGuard.reasons (fun t x => { t with reasons := x })
      (decodeSlice none decodeRaw)]

def ToolAiGuard.members (t : ToolAiGuard float) : List (String × Option Document) :=
  (match t.controls with
    | none => []
    | some controls => [("controls", encodeSlice encodeControl controls)]) ++
  [("score", some (encodeFloat F t.score)), ("bucket", some (encodeString t.bucket)),
    ("assessed_ts", encodeTime t.assessedTS), ("is_reattestation", some (.bool t.isReattestation)),
    ("scope", some (encodeRaw t.scope)),
    ("reasons", encodeSlice (fun r => some (encodeRaw r)) t.reasons)]

def encodeTool (t : ToolAiGuard float) : Option Document := encodeStruct (t.members F)

structure AiGuard (float : Type) where
  byTool : Map (ToolAiGuard float) := none

def aiGuardFields : List (Field Text (AiGuard float)) :=
  [field "by_tool" AiGuard.byTool (fun g x => { g with byTool := x })
    (decodeMap (ToolAiGuard.zero F) (decodeStruct (toolFields F)))]

def encodeAiGuard (g : AiGuard float) : Option Document :=
  encodeStruct [("by_tool", encodeMap (encodeTool F) g.byTool)]

/-- {lit}`HostSummary` and the blocks that {lit}`HostDetail` adds to it. -/
structure HostDetail (float : Type) where
  hostID : String := ""
  hostname : Option String := none
  agentVersion : String := ""
  lastSeenTS : ZonedTime := ZonedTime.zero
  status : String := ""
  currentRisk : Option (CurrentRisk float) := none
  openEventCounts24h : Map Int := none
  hostMeta : Option HostMeta := none
  policyState : Option PolicyState := none
  agentHealth : Option AgentHealth := none
  aiGuard : Option (AiGuard float) := none

def hostFields : List (Field Text (HostDetail float)) :=
  [field "host_id" HostDetail.hostID (fun h x => { h with hostID := x }) decodeString,
    field "hostname" HostDetail.hostname (fun h x => { h with hostname := x })
      (decodePtr "" decodeString),
    field "agent_version" HostDetail.agentVersion (fun h x => { h with agentVersion := x })
      decodeString,
    field "last_seen_ts" HostDetail.lastSeenTS (fun h x => { h with lastSeenTS := x }) decodeTime,
    field "status" HostDetail.status (fun h x => { h with status := x }) decodeString,
    field "current_risk" HostDetail.currentRisk (fun h x => { h with currentRisk := x })
      (decodePtr (CurrentRisk.zero F) (decodeStruct (currentRiskFields F))),
    field "open_event_counts_24h" HostDetail.openEventCounts24h
      (fun h x => { h with openEventCounts24h := x }) (decodeMap 0 decodeInt),
    field "host_meta" HostDetail.hostMeta (fun h x => { h with hostMeta := x })
      (decodePtr {} (decodeStruct hostMetaFields)),
    field "policy_state" HostDetail.policyState (fun h x => { h with policyState := x })
      (decodePtr {} (decodeStruct policyStateFields)),
    field "agent_health" HostDetail.agentHealth (fun h x => { h with agentHealth := x })
      (decodePtr {} (decodeStruct agentHealthFields)),
    field "ai_guard" HostDetail.aiGuard (fun h x => { h with aiGuard := x })
      (decodePtr {} (decodeStruct (aiGuardFields F)))]

def decodeHostDetail (j : Document) : Option (HostDetail float) := decodeStruct (hostFields F) j {}

def encodeHostDetail (h : HostDetail float) : Option Document :=
  encodeStruct
    [("host_id", some (encodeString h.hostID)),
      ("hostname", encodePtr (fun s => some (encodeString s)) h.hostname),
      ("agent_version", some (encodeString h.agentVersion)),
      ("last_seen_ts", encodeTime h.lastSeenTS), ("status", some (encodeString h.status)),
      ("current_risk", encodePtr (encodeCurrentRisk F) h.currentRisk),
      ("open_event_counts_24h", encodeMap (fun n => some (encodeInt n)) h.openEventCounts24h),
      ("host_meta", encodePtr encodeHostMeta h.hostMeta),
      ("policy_state", encodePtr encodePolicyState h.policyState),
      ("agent_health", encodePtr encodeAgentHealth h.agentHealth),
      ("ai_guard", encodePtr (encodeAiGuard F) h.aiGuard)]

/-!
## The times that are written

A document is written unless one of its times cannot be.
-/

def valuesOf {item : Type} : Map item -> List item
  | none => []
  | some m => (sortedEntries m).map Prod.snd

def CurrentRisk.times (r : CurrentRisk float) : List ZonedTime :=
  (valuesOf r.byTool).map ToolRisk.assessedTS

def AiGuard.times (g : AiGuard float) : List ZonedTime :=
  (valuesOf g.byTool).map ToolAiGuard.assessedTS

def HostDetail.times (h : HostDetail float) : List ZonedTime :=
  h.lastSeenTS :: ((h.currentRisk.elim [] CurrentRisk.times) ++
    ((h.policyState.bind PolicyState.lastPolicyReloadTS).toList ++
      ((h.agentHealth.bind AgentHealth.lastHeartbeatTS).toList ++
        h.aiGuard.elim [] AiGuard.times)))

def AllWritable (times : List ZonedTime) : Prop := forall t, t ∈ times -> t.Writable

instance (times : List ZonedTime) : Decidable (AllWritable times) :=
  inferInstanceAs (Decidable (forall t, t ∈ times -> t.Writable))

theorem allWritable_append {times more : List ZonedTime} :
    AllWritable (times ++ more) <-> AllWritable times ∧ AllWritable more :=
  List.forall_mem_append

theorem encodeTime_isSome (t : ZonedTime) : (encodeTime t).isSome <-> t.Writable := by
  unfold encodeTime
  split
  · rename_i h
    exact iff_of_true rfl h
  · rename_i h
    exact iff_of_false Bool.false_ne_true h

theorem encodeStruct_isSome (members : List (String × Option Document)) :
    (encodeStruct members).isSome = members.all (fun m => m.2.isSome) := by
  unfold encodeStruct
  rw [Option.isSome_map, encodeObject_isSome]

theorem encodePtr_isSome {type : Type} {write : type -> Option Document} {p : Option type}
    {times : type -> List ZonedTime}
    (h : forall a, (write a).isSome <-> AllWritable (times a)) :
    (encodePtr write p).isSome <-> AllWritable (p.elim [] times) := by
  cases p with
  | none => exact iff_of_true rfl (fun _ ht => absurd ht List.not_mem_nil)
  | some a => exact h a

theorem encodeMap_isSome {item : Type} {write : item -> Option Document} {m : Map item}
    {time : item -> ZonedTime} (h : forall a, (write a).isSome <-> (time a).Writable) :
    (encodeMap write m).isSome <-> AllWritable ((valuesOf m).map time) := by
  cases m with
  | none => exact iff_of_true rfl (fun _ ht => absurd ht List.not_mem_nil)
  | some m =>
      unfold encodeMap AllWritable valuesOf
      rw [Option.isSome_map, encodeObject_isSome, List.all_map, List.all_eq_true, List.map_map,
        List.forall_mem_map]
      exact forall₂_congr (fun e _ => h e.2)

theorem encodeSlice_isSome {item : Type} {write : item -> Option Document}
    (h : forall a, (write a).isSome = true) (s : Slice item) :
    (encodeSlice write s).isSome = true := by
  unfold encodeSlice
  cases s.items with
  | none => rfl
  | some items =>
      show ((encodeAll write items).map Json.array).isSome = true
      rw [Option.isSome_map, encodeAll_isSome]
      exact List.all_eq_true.mpr (fun a _ => h a)

theorem encodeToolRisk_isSome (r : ToolRisk float) :
    (encodeToolRisk F r).isSome <-> r.assessedTS.Writable := by
  unfold encodeToolRisk
  rw [encodeStruct_isSome]
  simp only [List.all_cons, List.all_nil, Option.isSome_some, Bool.true_and, Bool.and_true]
  exact encodeTime_isSome r.assessedTS

theorem encodeCurrentRisk_isSome (r : CurrentRisk float) :
    (encodeCurrentRisk F r).isSome <-> AllWritable r.times := by
  unfold encodeCurrentRisk
  rw [encodeStruct_isSome]
  simp only [List.all_cons, List.all_nil, Option.isSome_some, Bool.true_and, Bool.and_true]
  exact encodeMap_isSome (encodeToolRisk_isSome F)

theorem encodeHostMeta_isSome (m : HostMeta) : (encodeHostMeta m).isSome = true := by
  have hstrings : forall s : Slice String, (encodeStrings s).isSome = true :=
    encodeSlice_isSome (fun _ => rfl)
  have hinterface : forall n, (encodeNetInterface n).isSome = true := by
    intro n
    unfold encodeNetInterface
    rw [encodeStruct_isSome]
    simp only [List.all_cons, List.all_nil, Option.isSome_some, hstrings, Bool.and_self]
  have hgateway : forall p : Option String,
      (encodePtr (fun s => some (encodeString s)) p).isSome = true := by
    intro p
    cases p <;> rfl
  unfold encodeHostMeta
  rw [encodeStruct_isSome]
  simp only [List.all_cons, List.all_nil, Option.isSome_some, hstrings, hgateway,
    encodeSlice_isSome hinterface, Bool.and_self]

theorem encodeTool_isSome (t : ToolAiGuard float) :
    (encodeTool F t).isSome <-> t.assessedTS.Writable := by
  have hcontrol : forall c, (encodeControl c).isSome = true := fun _ => rfl
  have hreasons : (encodeSlice (fun r => some (encodeRaw r)) t.reasons).isSome = true :=
    encodeSlice_isSome (fun _ => rfl) t.reasons
  unfold encodeTool ToolAiGuard.members
  rw [encodeStruct_isSome, List.all_append]
  have hcontrols : (match t.controls with
      | none => []
      | some controls => [("controls", encodeSlice encodeControl controls)]).all
        (fun m : String × Option Document => m.2.isSome) = true := by
    cases t.controls with
    | none => rfl
    | some controls =>
        show ((encodeSlice encodeControl controls).isSome && true) = true
        rw [encodeSlice_isSome hcontrol, Bool.and_self]
  rw [hcontrols]
  simp only [List.all_cons, List.all_nil, Option.isSome_some, Bool.true_and, Bool.and_true,
    hreasons]
  exact encodeTime_isSome t.assessedTS

theorem encodeAiGuard_isSome (g : AiGuard float) :
    (encodeAiGuard F g).isSome <-> AllWritable g.times := by
  unfold encodeAiGuard
  rw [encodeStruct_isSome]
  simp only [List.all_cons, List.all_nil, Bool.and_true]
  exact encodeMap_isSome (encodeTool_isSome F)

theorem encodePtr_time_isSome (p : Option ZonedTime) :
    (encodePtr encodeTime p).isSome <-> AllWritable p.toList := by
  cases p with
  | none => exact iff_of_true rfl (fun _ ht => absurd ht List.not_mem_nil)
  | some t => exact (encodeTime_isSome t).trans List.forall_mem_singleton.symm

theorem encodePolicyState_isSome (p : PolicyState) :
    (encodePolicyState p).isSome <-> AllWritable p.lastPolicyReloadTS.toList := by
  unfold encodePolicyState
  rw [encodeStruct_isSome]
  simp only [List.all_cons, List.all_nil, Option.isSome_some, Bool.true_and, Bool.and_true]
  exact encodePtr_time_isSome p.lastPolicyReloadTS

theorem encodeAgentHealth_isSome (h : AgentHealth) :
    (encodeAgentHealth h).isSome <-> AllWritable h.lastHeartbeatTS.toList := by
  have hint : forall p : Option Int, (encodePtr (fun n => some (encodeInt n)) p).isSome = true := by
    intro p
    cases p <;> rfl
  have hbool : forall p : Option Bool, (encodePtr (fun b => some (.bool b)) p).isSome = true := by
    intro p
    cases p <;> rfl
  unfold encodeAgentHealth
  rw [encodeStruct_isSome]
  simp only [List.all_cons, List.all_nil, Option.isSome_some, Bool.true_and, Bool.and_true, hint,
    hbool]
  exact encodePtr_time_isSome h.lastHeartbeatTS

theorem encodeHostDetail_isSome (h : HostDetail float) :
    (encodeHostDetail F h).isSome <-> AllWritable h.times := by
  have hname : (encodePtr (fun s => some (encodeString s)) h.hostname).isSome = true := by
    cases h.hostname <;> rfl
  have hcounts : (encodeMap (fun n => some (encodeInt n)) h.openEventCounts24h).isSome = true := by
    cases h.openEventCounts24h with
    | none => rfl
    | some m =>
        unfold encodeMap
        rw [Option.isSome_map, encodeObject_isSome, List.all_map]
        exact List.all_eq_true.mpr (fun _ _ => rfl)
  have hmeta : (encodePtr encodeHostMeta h.hostMeta).isSome = true := by
    cases h.hostMeta with
    | none => rfl
    | some m => exact encodeHostMeta_isSome m
  have hpolicy : (encodePtr encodePolicyState h.policyState).isSome <->
      AllWritable (h.policyState.bind PolicyState.lastPolicyReloadTS).toList := by
    rw [encodePtr_isSome encodePolicyState_isSome]
    cases h.policyState <;> exact Iff.rfl
  have hhealth : (encodePtr encodeAgentHealth h.agentHealth).isSome <->
      AllWritable (h.agentHealth.bind AgentHealth.lastHeartbeatTS).toList := by
    rw [encodePtr_isSome encodeAgentHealth_isSome]
    cases h.agentHealth <;> exact Iff.rfl
  unfold encodeHostDetail HostDetail.times
  rw [encodeStruct_isSome]
  simp only [List.all_cons, List.all_nil, Option.isSome_some, Bool.true_and, Bool.and_true, hname,
    hcounts, hmeta, Bool.and_eq_true]
  rw [encodeTime_isSome, encodePtr_isSome (encodeCurrentRisk_isSome F), hpolicy, hhealth,
    encodePtr_isSome (encodeAiGuard_isSome F), ← allWritable_append, ← allWritable_append,
    ← allWritable_append]
  exact List.forall_mem_cons.symm

end

end Wire
end Fleet
end LodelineManager
