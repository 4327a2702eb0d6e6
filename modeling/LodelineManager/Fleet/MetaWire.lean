import LodelineManager.Fleet.WireValues
import LodelineManager.Go.JSONPaths
import Mathlib.Tactic.FinCases

/-!
# /v1/meta

The body of {lit}`/v1/meta` as it is received, with the {lit}`license` object of older servers,
and what the console sends on.  The two pointers are left out when they are nil.
-/

namespace LodelineManager
namespace Fleet
namespace Wire

open Foundation Go JSON

structure ActiveHosts where
  activeHostCount : Int := 0
  activeWindowDays : Int := 0

def activeHostsFields : List (Field Text ActiveHosts) :=
  [field "active_host_count" ActiveHosts.activeHostCount
      (fun h x => { h with activeHostCount := x }) decodeInt,
    field "active_window_days" ActiveHosts.activeWindowDays
      (fun h x => { h with activeWindowDays := x }) decodeInt]

def encodeActiveHosts (h : ActiveHosts) : Option Document :=
  encodeStruct
    [("active_host_count", some (encodeInt h.activeHostCount)),
      ("active_window_days", some (encodeInt h.activeWindowDays))]

structure AuditHead where
  seq : Int := 0
  hash : String := ""
  sig : String := ""
  pubkeyID : String := ""
  pubkey : String := ""

def auditHeadFields : List (Field Text AuditHead) :=
  [field "seq" AuditHead.seq (fun h x => { h with seq := x }) decodeInt,
    field "hash" AuditHead.hash (fun h x => { h with hash := x }) decodeString,
    field "sig" AuditHead.sig (fun h x => { h with sig := x }) decodeString,
    field "pubkey_id" AuditHead.pubkeyID (fun h x => { h with pubkeyID := x }) decodeString,
    field "pubkey" AuditHead.pubkey (fun h x => { h with pubkey := x }) decodeString]

def encodeAuditHead (h : AuditHead) : Option Document :=
  encodeStruct
    [("seq", some (encodeInt h.seq)), ("hash", some (encodeString h.hash)),
      ("sig", some (encodeString h.sig)), ("pubkey_id", some (encodeString h.pubkeyID)),
      ("pubkey", some (encodeString h.pubkey))]

structure AlertsDefinitionDefault where
  evidenceKinds : Slice String := Slice.nil
  aiGuardBuckets : Slice String := Slice.nil
  additionalKinds : Slice String := Slice.nil

def alertsFields : List (Field Text AlertsDefinitionDefault) :=
  [field "evidence_kinds" AlertsDefinitionDefault.evidenceKinds
      (fun a x => { a with evidenceKinds := x }) decodeStrings,
    field "ai_guard_buckets" AlertsDefinitionDefault.aiGuardBuckets
      (fun a x => { a with aiGuardBuckets := x }) decodeStrings,
    field "additional_kinds" AlertsDefinitionDefault.additionalKinds
      (fun a x => { a with additionalKinds := x }) decodeStrings]

def encodeAlerts (a : AlertsDefinitionDefault) : Option Document :=
  encodeStruct
    [("evidence_kinds", encodeStrings a.evidenceKinds),
      ("ai_guard_buckets", encodeStrings a.aiGuardBuckets),
      ("additional_kinds", encodeStrings a.additionalKinds)]

/-- {lit}`fleet.Meta`. -/
structure ServerMeta where
  serverVersion : String := ""
  schemaVersion : Int := 0
  ts : ZonedTime := ZonedTime.zero
  alertsDefinitionDefault : AlertsDefinitionDefault := {}
  fleet : Option ActiveHosts := none
  auditHead : Option AuditHead := none

/-- A member that {lit}`omitempty` leaves out when the pointer is nil. -/
def omitempty {type : Type} (name : String) (write : type -> Option Document) :
    Option type -> List (String × Option Document)
  | none => []
  | some a => [(name, write a)]

def ServerMeta.members (m : ServerMeta) : List (String × Option Document) :=
  [("server_version", some (encodeString m.serverVersion)),
    ("schema_version", some (encodeInt m.schemaVersion)), ("ts", encodeTime m.ts),
    ("alerts_definition_default", encodeAlerts m.alertsDefinitionDefault)] ++
  (omitempty "fleet" encodeActiveHosts m.fleet ++
    omitempty "audit_head" encodeAuditHead m.auditHead)

def encodeServerMeta (m : ServerMeta) : Option Document := encodeStruct m.members

/-- The two numbers that older servers report inside {lit}`license`. -/
structure LegacyLicense where
  currentHostCount : Int := 0
  activeWindowDays : Int := 0

def legacyLicenseFields : List (Field Text LegacyLicense) :=
  [field "current_host_count" LegacyLicense.currentHostCount
      (fun l x => { l with currentHostCount := x }) decodeInt,
    field "active_window_days" LegacyLicense.activeWindowDays
      (fun l x => { l with activeWindowDays := x }) decodeInt]

/-- The body as it is received: {lit}`Meta` is embedded, so its fields stand beside the one of
the license. -/
structure MetaWire extends ServerMeta where
  legacyLicense : Option LegacyLicense := none

def metaWireFields : List (Field Text MetaWire) :=
  [field "server_version" (fun w => w.serverVersion)
      (fun w x => { w with serverVersion := x }) decodeString,
    field "schema_version" (fun w => w.schemaVersion) (fun w x => { w with schemaVersion := x })
      decodeInt,
    field "ts" (fun w => w.ts) (fun w x => { w with ts := x }) decodeTime,
    field "alerts_definition_default" (fun w => w.alertsDefinitionDefault)
      (fun w x => { w with alertsDefinitionDefault := x }) (decodeStruct alertsFields),
    field "fleet" (fun w => w.fleet) (fun w x => { w with fleet := x })
      (decodePtr {} (decodeStruct activeHostsFields)),
    field "audit_head" (fun w => w.auditHead) (fun w x => { w with auditHead := x })
      (decodePtr {} (decodeStruct auditHeadFields)),
    field "license" (fun w => w.legacyLicense) (fun w x => { w with legacyLicense := x })
      (decodePtr {} (decodeStruct legacyLicenseFields))]

/-- {lit}`toMeta`: the fleet of an older server is taken from its license. -/
def MetaWire.toMeta (w : MetaWire) : ServerMeta :=
  match w.fleet, w.legacyLicense with
  | none, some l =>
      { w.toServerMeta with
        fleet := some
          { activeHostCount := l.currentHostCount, activeWindowDays := l.activeWindowDays } }
  | _, _ => w.toServerMeta

/-- {lit}`HTTPClient.Meta` on a body. -/
def decodeServerMeta (j : Document) : Option ServerMeta :=
  (decodeStruct metaWireFields j {}).map MetaWire.toMeta

/-!
## What is read
-/

theorem activeHostsFields_reads :
    Reads activeHostsFields "active_host_count" ActiveHosts.activeHostCount decodeInt ∧
      Reads activeHostsFields "active_window_days" ActiveHosts.activeWindowDays decodeInt := by
  have hnames : DistinctNames activeHostsFields := by
    unfold DistinctNames
    decide
  refine ⟨Reads.of_field hnames (List.mem_of_getElem? (i := 0) rfl) (fun _ _ => rfl) ?_,
    Reads.of_field hnames (List.mem_of_getElem? (i := 1) rfl) (fun _ _ => rfl) ?_⟩
  all_goals
    unfold activeHostsFields
    intro f hf
    fin_cases hf
    all_goals first | exact Or.inl rfl | exact Or.inr (field_other (fun _ _ => rfl))

theorem legacyLicenseFields_reads :
    Reads legacyLicenseFields "current_host_count" LegacyLicense.currentHostCount decodeInt ∧
      Reads legacyLicenseFields "active_window_days" LegacyLicense.activeWindowDays decodeInt := by
  have hnames : DistinctNames legacyLicenseFields := by
    unfold DistinctNames
    decide
  refine ⟨Reads.of_field hnames (List.mem_of_getElem? (i := 0) rfl) (fun _ _ => rfl) ?_,
    Reads.of_field hnames (List.mem_of_getElem? (i := 1) rfl) (fun _ _ => rfl) ?_⟩
  all_goals
    unfold legacyLicenseFields
    intro f hf
    fin_cases hf
    all_goals first | exact Or.inl rfl | exact Or.inr (field_other (fun _ _ => rfl))

theorem alertsFields_reads :
    Reads alertsFields "evidence_kinds" AlertsDefinitionDefault.evidenceKinds decodeStrings ∧
      Reads alertsFields "ai_guard_buckets" AlertsDefinitionDefault.aiGuardBuckets decodeStrings ∧
      Reads alertsFields "additional_kinds" AlertsDefinitionDefault.additionalKinds
        decodeStrings := by
  have hnames : DistinctNames alertsFields := by
    unfold DistinctNames
    decide
  refine ⟨Reads.of_field hnames (List.mem_of_getElem? (i := 0) rfl) (fun _ _ => rfl) ?_,
    Reads.of_field hnames (List.mem_of_getElem? (i := 1) rfl) (fun _ _ => rfl) ?_,
    Reads.of_field hnames (List.mem_of_getElem? (i := 2) rfl) (fun _ _ => rfl) ?_⟩
  all_goals
    unfold alertsFields
    intro f hf
    fin_cases hf
    all_goals first | exact Or.inl rfl | exact Or.inr (field_other (fun _ _ => rfl))

theorem auditHeadFields_reads :
    Reads auditHeadFields "seq" AuditHead.seq decodeInt ∧
      Reads auditHeadFields "hash" AuditHead.hash decodeString ∧
      Reads auditHeadFields "sig" AuditHead.sig decodeString ∧
      Reads auditHeadFields "pubkey_id" AuditHead.pubkeyID decodeString ∧
      Reads auditHeadFields "pubkey" AuditHead.pubkey decodeString := by
  have hnames : DistinctNames auditHeadFields := by
    unfold DistinctNames
    decide
  refine ⟨Reads.of_field hnames (List.mem_of_getElem? (i := 0) rfl) (fun _ _ => rfl) ?_,
    Reads.of_field hnames (List.mem_of_getElem? (i := 1) rfl) (fun _ _ => rfl) ?_,
    Reads.of_field hnames (List.mem_of_getElem? (i := 2) rfl) (fun _ _ => rfl) ?_,
    Reads.of_field hnames (List.mem_of_getElem? (i := 3) rfl) (fun _ _ => rfl) ?_,
    Reads.of_field hnames (List.mem_of_getElem? (i := 4) rfl) (fun _ _ => rfl) ?_⟩
  all_goals
    unfold auditHeadFields
    intro f hf
    fin_cases hf
    all_goals first | exact Or.inl rfl | exact Or.inr (field_other (fun _ _ => rfl))

theorem metaWireFields_reads :
    Reads metaWireFields "server_version" (fun w => w.serverVersion) decodeString ∧
      Reads metaWireFields "schema_version" (fun w => w.schemaVersion) decodeInt ∧
      Reads metaWireFields "ts" (fun w => w.ts) decodeTime ∧
      Reads metaWireFields "alerts_definition_default" (fun w => w.alertsDefinitionDefault)
        (decodeStruct alertsFields) ∧
      Reads metaWireFields "fleet" (fun w => w.fleet)
        (decodePtr {} (decodeStruct activeHostsFields)) ∧
      Reads metaWireFields "audit_head" (fun w => w.auditHead)
        (decodePtr {} (decodeStruct auditHeadFields)) ∧
      Reads metaWireFields "license" (fun w => w.legacyLicense)
        (decodePtr {} (decodeStruct legacyLicenseFields)) := by
  have hnames : DistinctNames metaWireFields := by
    unfold DistinctNames
    decide
  refine ⟨Reads.of_field hnames (List.mem_of_getElem? (i := 0) rfl) (fun _ _ => rfl) ?_,
    Reads.of_field hnames (List.mem_of_getElem? (i := 1) rfl) (fun _ _ => rfl) ?_,
    Reads.of_field hnames (List.mem_of_getElem? (i := 2) rfl) (fun _ _ => rfl) ?_,
    Reads.of_field hnames (List.mem_of_getElem? (i := 3) rfl) (fun _ _ => rfl) ?_,
    Reads.of_field hnames (List.mem_of_getElem? (i := 4) rfl) (fun _ _ => rfl) ?_,
    Reads.of_field hnames (List.mem_of_getElem? (i := 5) rfl) (fun _ _ => rfl) ?_,
    Reads.of_field hnames (List.mem_of_getElem? (i := 6) rfl) (fun _ _ => rfl) ?_⟩
  all_goals
    unfold metaWireFields
    intro f hf
    fin_cases hf
    all_goals first | exact Or.inl rfl | exact Or.inr (field_other (fun _ _ => rfl))

def headIn (vs : List Value) : AuditHead :=
  { seq := lastInt (membersOf "seq" vs)
    hash := lastText (membersOf "hash" vs)
    sig := lastText (membersOf "sig" vs)
    pubkeyID := lastText (membersOf "pubkey_id" vs)
    pubkey := lastText (membersOf "pubkey" vs) }

def countsIn (hosts days : String) (vs : List Value) : ActiveHosts :=
  { activeHostCount := lastInt (membersOf hosts vs), activeWindowDays := lastInt (membersOf days vs) }

def objectsIn (name : String) (v : Value) : List Value := pointed (fieldValues name v)

def fleetIn (v : Value) : Option ActiveHosts :=
  if (objectsIn "fleet" v).isEmpty then
    if (objectsIn "license" v).isEmpty then none
    else some (countsIn "current_host_count" "active_window_days" (objectsIn "license" v))
  else some (countsIn "active_host_count" "active_window_days" (objectsIn "fleet" v))

def alertsIn (name : String) (v : Value) : Option (List String) :=
  textsOf (membersOf name (fieldValues "alerts_definition_default" v))

/-- What was read, as the value of the body has it. -/
structure MetaRead (v : Value) (m : ServerMeta) : Prop where
  serverVersion : m.serverVersion = lastText (fieldValues "server_version" v)
  schemaVersion : m.schemaVersion = lastInt (fieldValues "schema_version" v)
  ts : m.ts = lastTime (fieldValues "ts" v)
  evidenceKinds : m.alertsDefinitionDefault.evidenceKinds.items = alertsIn "evidence_kinds" v
  aiGuardBuckets : m.alertsDefinitionDefault.aiGuardBuckets.items = alertsIn "ai_guard_buckets" v
  additionalKinds : m.alertsDefinitionDefault.additionalKinds.items =
    alertsIn "additional_kinds" v
  auditHead : m.auditHead =
    if (objectsIn "audit_head" v).isEmpty then none else some (headIn (objectsIn "audit_head" v))
  fleet : m.fleet = fleetIn v

theorem membersOf_single (name : String) (v : Value) : membersOf name [v] = fieldValues name v :=
  List.flatMap_singleton _ _

theorem pointer_of_decode {record inner : Type} {fields : List (Field Text record)}
    {innerFields : List (Field Text inner)} {name : String} {get : record -> Option inner}
    {zero : inner} {j : Document} {r r' : record}
    (h : Reads fields name get (decodePtr zero (decodeStruct innerFields)))
    (hdecode : decodeStruct fields j r = some r') (hnone : get r = none) :
    (objectsIn name (value j) = [] ∧ get r' = none) ∨
      exists js a, objectsIn name (value j) = js.map value ∧ js ≠ [] ∧ get r' = some a ∧
        readAll (decodeStruct innerFields) js zero = some a := by
  have hread := h.decodeStruct hdecode
  rw [hnone] at hread
  unfold objectsIn
  rw [fieldValues_value, pointed_value]
  rcases readAll_decodePtr hread with ⟨hnil, hp⟩ | ⟨a, hne, hp, ha⟩
  · rw [hnil]
    exact Or.inl ⟨rfl, hp⟩
  · exact Or.inr ⟨_, a, rfl, hne, hp, ha⟩

theorem isEmpty_map_value {js : List Document} (h : js ≠ []) : (js.map value).isEmpty = false := by
  cases js with
  | nil => exact absurd rfl h
  | cons j rest => rfl

theorem headIn_of_read {js : List Document} {a : AuditHead}
    (h : readAll (decodeStruct auditHeadFields) js {} = some a) : a = headIn (js.map value) := by
  rcases auditHeadFields_reads with ⟨hseq, hhash, hsig, hkey, hpubkey⟩
  unfold headIn
  rw [← hseq.lastInt h rfl, ← hhash.lastText h rfl, ← hsig.lastText h rfl, ← hkey.lastText h rfl,
    ← hpubkey.lastText h rfl]

theorem countsIn_of_read {js : List Document} {a : ActiveHosts}
    (h : readAll (decodeStruct activeHostsFields) js {} = some a) :
    a = countsIn "active_host_count" "active_window_days" (js.map value) := by
  rcases activeHostsFields_reads with ⟨hhosts, hdays⟩
  unfold countsIn
  rw [← hhosts.lastInt h rfl, ← hdays.lastInt h rfl]

theorem countsIn_of_license {js : List Document} {a : LegacyLicense}
    (h : readAll (decodeStruct legacyLicenseFields) js {} = some a) :
    ActiveHosts.mk a.currentHostCount a.activeWindowDays =
      countsIn "current_host_count" "active_window_days" (js.map value) := by
  rcases legacyLicenseFields_reads with ⟨hhosts, hdays⟩
  unfold countsIn
  rw [← hhosts.lastInt h rfl, ← hdays.lastInt h rfl]

section

variable {j : Document} {w : MetaWire} (h : decodeStruct metaWireFields j {} = some w)

include h

theorem auditHead_read : w.auditHead =
    if (objectsIn "audit_head" (value j)).isEmpty then none
    else some (headIn (objectsIn "audit_head" (value j))) := by
  rcases pointer_of_decode metaWireFields_reads.right.right.right.right.right.left h rfl with
    ⟨hnil, hp⟩ | ⟨js, a, hjs, hne, hp, hread⟩
  · rw [hnil]
    exact hp
  · rw [hjs, isEmpty_map_value hne, ← headIn_of_read hread]
    exact hp

theorem fleet_read : w.toMeta.fleet = fleetIn (value j) := by
  rcases metaWireFields_reads with ⟨_, _, _, _, hfleet, _, hlicense⟩
  unfold fleetIn MetaWire.toMeta
  rcases pointer_of_decode hfleet h rfl with ⟨hnil, hp⟩ | ⟨js, a, hjs, hne, hp, hread⟩
  · rw [hnil, hp]
    rcases pointer_of_decode hlicense h rfl with ⟨hnil', hp'⟩ | ⟨js, l, hjs, hne, hp', hread⟩
    · rw [hnil', hp']
      exact hp
    · rw [hjs, isEmpty_map_value hne, ← countsIn_of_license hread, hp']
      rfl
  · rw [hjs, isEmpty_map_value hne, ← countsIn_of_read hread, hp]
    exact hp

theorem alerts_read :
    w.alertsDefinitionDefault.evidenceKinds.items = alertsIn "evidence_kinds" (value j) ∧
      w.alertsDefinitionDefault.aiGuardBuckets.items = alertsIn "ai_guard_buckets" (value j) ∧
      w.alertsDefinitionDefault.additionalKinds.items = alertsIn "additional_kinds" (value j) := by
  have hread := metaWireFields_reads.right.right.right.left.decodeStruct h
  rcases alertsFields_reads with ⟨hkinds, hbuckets, hadditional⟩
  unfold alertsIn
  rw [fieldValues_value]
  exact ⟨hkinds.texts hread rfl, hbuckets.texts hread rfl, hadditional.texts hread rfl⟩

end

theorem MetaWire.toMeta_eq (w : MetaWire) :
    w.toMeta = { w.toServerMeta with fleet := w.toMeta.fleet } := by
  unfold MetaWire.toMeta
  split <;> rfl

theorem metaRead_of_decode {j : Document} {m : ServerMeta} (h : decodeServerMeta j = some m) :
    MetaRead (value j) m := by
  rcases Option.map_eq_some_iff.mp h with ⟨w, hw, heq⟩
  rcases metaWireFields_reads with ⟨hversion, hschema, hts, _⟩
  rcases alerts_read hw with ⟨hkinds, hbuckets, hadditional⟩
  have hone : readAll (decodeStruct metaWireFields) [j] {} = some w := by
    show (decodeStruct metaWireFields j {}).bind some = some w
    rw [hw]
    rfl
  rw [← heq, w.toMeta_eq]
  constructor
  · rw [← membersOf_single]
    exact hversion.lastText hone rfl
  · rw [← membersOf_single]
    exact hschema.lastInt hone rfl
  · rw [← membersOf_single]
    exact hts.lastTime hone rfl
  · exact hkinds
  · exact hbuckets
  · exact hadditional
  · exact auditHead_read hw
  · exact fleet_read hw

/-!
## What is written
-/

def ofTexts : Option (List String) -> Value
  | none => .null
  | some texts => .array (texts.map ofText)

section

variable {members : List (String × Option Document)} {d : Document} {name : String}
  (h : encodeStruct members = some d) (hnames : (members.map Prod.fst).Nodup)

include h hnames

theorem get?_encodeString {s : String} (hmem : (name, some (encodeString s)) ∈ members) :
    get? name (value d) = some (ofText s) := by
  rw [get?_of_encodeStruct h hnames hmem]
  exact congrArg some (value_encodeString s)

theorem get?_encodeInt {n : Int} (hrange : -2 ^ 63 <= n ∧ n < 2 ^ 63)
    (hmem : (name, some (encodeInt n)) ∈ members) :
    (get? name (value d)).bind asInt = some n := by
  rw [get?_of_encodeStruct h hnames hmem, Option.map_some, Option.bind_some]
  exact asInt_encodeInt hrange

theorem get?_encodeStrings {s : Slice String} (hmem : (name, encodeStrings s) ∈ members) :
    get? name (value d) = some (ofTexts s.items) := by
  have hstring : forall s d, some (encodeString s) = some d -> value d = ofText s := by
    intro s d hd
    cases hd
    exact value_encodeString s
  rcases exists_of_encodeStruct h hnames hmem with ⟨x, hx, hshown⟩
  rw [hshown, value_encodeSlice hstring hx]
  cases s.items <;> rfl

end

theorem encodeStrings_isSome (s : Slice String) : (encodeStrings s).isSome = true := by
  unfold encodeStrings encodeSlice
  cases s.items with
  | none => rfl
  | some texts =>
      show ((encodeAll _ texts).map Json.array).isSome = true
      rw [Option.isSome_map, encodeAll_isSome]
      exact List.all_eq_true.mpr (fun _ _ => rfl)

theorem omitempty_all {type : Type} {write : type -> Option Document}
    (hwrite : forall a, (write a).isSome = true) (name : String) (p : Option type) :
    (omitempty name write p).all (fun m => m.2.isSome) = true := by
  cases p with
  | none => rfl
  | some a =>
      show ((write a).isSome && true) = true
      rw [hwrite a]
      rfl

theorem encodeServerMeta_isSome (m : ServerMeta) :
    (encodeServerMeta m).isSome <-> m.ts.Writable := by
  have halerts : (encodeAlerts m.alertsDefinitionDefault).isSome = true := by
    unfold encodeAlerts
    rw [encodeStruct_isSome]
    simp only [List.all_cons, List.all_nil, encodeStrings_isSome, Bool.and_self]
  have hmore : (omitempty "fleet" encodeActiveHosts m.fleet ++
      omitempty "audit_head" encodeAuditHead m.auditHead).all (fun m => m.2.isSome) = true := by
    rw [List.all_append, omitempty_all (fun _ => rfl), omitempty_all (fun _ => rfl)]
    rfl
  unfold encodeServerMeta ServerMeta.members
  rw [encodeStruct_isSome, List.all_append, hmore, Bool.and_true]
  simp only [List.all_cons, List.all_nil, Option.isSome_some, halerts, Bool.true_and,
    Bool.and_true]
  exact encodeTime_isSome m.ts

theorem omitempty_names {type : Type} (name : String) (write : type -> Option Document)
    (p : Option type) :
    (omitempty name write p).map Prod.fst = if p.isSome then [name] else [] := by
  cases p <;> rfl

theorem ServerMeta.members_map_fst (m : ServerMeta) :
    m.members.map Prod.fst =
      ["server_version", "schema_version", "ts", "alerts_definition_default"] ++
        ((if m.fleet.isSome then ["fleet"] else []) ++
          if m.auditHead.isSome then ["audit_head"] else []) := by
  unfold ServerMeta.members
  rw [List.map_append, List.map_append, omitempty_names, omitempty_names]
  rfl

theorem ServerMeta.members_names (m : ServerMeta) : (m.members.map Prod.fst).Nodup := by
  rw [m.members_map_fst]
  generalize m.fleet.isSome = fleet, m.auditHead.isSome = head
  revert fleet head
  decide

theorem mem_omitempty {type : Type} {name : String} {write : type -> Option Document}
    {p : Option type} {a : type} (h : p = some a) : (name, write a) ∈ omitempty name write p := by
  rw [h]
  exact List.mem_singleton_self _

theorem not_mem_members {m : ServerMeta} :
    (m.fleet = none -> "fleet" ∉ m.members.map Prod.fst) ∧
      (m.auditHead = none -> "audit_head" ∉ m.members.map Prod.fst) := by
  rw [m.members_map_fst]
  constructor
  · intro hnone
    rw [hnone]
    generalize m.auditHead.isSome = head
    revert head
    decide
  · intro hnone
    rw [hnone]
    generalize m.fleet.isSome = fleet
    revert fleet
    decide

end Wire
end Fleet
end LodelineManager
