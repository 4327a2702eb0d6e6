import LodelineManager.Api.FleetBodies
import LodelineManager.Fleet.MetaWire
import LodelineManager.Foundation.ShortestDigits

/-!
# /v1/meta on its way to the settings page

The handler writes again what the fleet client has read, and the page says whether the
server has a signed head.  A server without one reports {lit}`null`, one that knows nothing of
heads reports nothing, and the page tells the two apart.
-/

namespace LodelineManager
namespace Api

open Foundation Go JSON Fleet Wire

/-!
## The page
-/

def numberText (n : Int) : String :=
  String.ofList (appendInt (n.sign * ShortestDigits.printed (ShortestDigits.nearest n.natAbs)) 1)

def unitsOf (s : String) : List Utf16.StringUnit := Utf16.codes s.toList

def printed : Option Value -> Option (List Utf16.StringUnit)
  | none => some (unitsOf "undefined")
  | some .null => some (unitsOf "null")
  | some (.number literal) => (asInt (.number literal)).map (fun n => unitsOf (numberText n))
  | some (.string u) => some u
  | _ => none

def auditSigningSummary : Option Value -> Option (List Utf16.StringUnit)
  | none => some (unitsOf "not reported by this server")
  | some .null => some (unitsOf "no signed head available")
  | some head =>
      (printed (get? "seq" head)).bind (fun seq =>
        (printed (get? "pubkey_id" head)).map (fun key =>
          unitsOf "signed head reported · seq " ++ seq ++ unitsOf " · key " ++ key ++
            unitsOf " (not verified)"))

def shownSummary (v : Value) : Option (List Utf16.StringUnit) :=
  auditSigningSummary (get? "audit_head" v)

/-!
## Documents that say the same
-/

structure HeadShown (h : AuditHead) (o : Value) : Prop where
  seq : (get? "seq" o).bind asInt = some h.seq
  hash : get? "hash" o = some (ofText h.hash)
  sig : get? "sig" o = some (ofText h.sig)
  pubkeyID : get? "pubkey_id" o = some (ofText h.pubkeyID)
  pubkey : get? "pubkey" o = some (ofText h.pubkey)

structure CountsShown (h : ActiveHosts) (o : Value) : Prop where
  activeHostCount : (get? "active_host_count" o).bind asInt = some h.activeHostCount
  activeWindowDays : (get? "active_window_days" o).bind asInt = some h.activeWindowDays

structure AlertsShown (v o : Value) : Prop where
  evidenceKinds : get? "evidence_kinds" o = some (ofTexts (alertsIn "evidence_kinds" v))
  aiGuardBuckets : get? "ai_guard_buckets" o = some (ofTexts (alertsIn "ai_guard_buckets" v))
  additionalKinds : get? "additional_kinds" o = some (ofTexts (alertsIn "additional_kinds" v))

/-- A member that is left out, or an object. -/
def Shown {type : Type} (R : type -> Value -> Prop) (x : Option Value) : Option type -> Prop
  | none => x = none
  | some a => exists o, x = some o ∧ R a o

/-- The document says what is read in the body, but for the state of the signed head. -/
structure MetaKept (v w : Value) : Prop where
  serverVersion : get? "server_version" w = some (ofText (lastText (fieldValues "server_version" v)))
  schemaVersion : (get? "schema_version" w).bind asInt =
    some (lastInt (fieldValues "schema_version" v))
  alerts : exists o, get? "alerts_definition_default" w = some o ∧ AlertsShown v o
  fleet : Shown CountsShown (get? "fleet" w) (fleetIn v)

def countsOf (hosts days : String) (o : Value) : Option Int × Option Int :=
  ((get? hosts o).bind asInt, (get? days o).bind asInt)

def objectAt (name : String) (v : Value) : Option Value :=
  (get? name v).filter (fun x => !x.isNull)

def fleetOf (v : Value) : Option (Option Int × Option Int) :=
  match objectAt "fleet" v with
  | some o => some (countsOf "active_host_count" "active_window_days" o)
  | none => (objectAt "license" v).map (countsOf "current_host_count" "active_window_days")

structure AlertsSame (o o' : Value) : Prop where
  evidenceKinds : get? "evidence_kinds" o' = get? "evidence_kinds" o
  aiGuardBuckets : get? "ai_guard_buckets" o' = get? "ai_guard_buckets" o
  additionalKinds : get? "additional_kinds" o' = get? "additional_kinds" o

/-- Two heads with the same fields under the same names. -/
structure HeadSame (o o' : Value) : Prop where
  seq : exists n, (get? "seq" o).bind asInt = some n ∧ (get? "seq" o').bind asInt = some n
  hash : get? "hash" o' = get? "hash" o
  sig : get? "sig" o' = get? "sig" o
  pubkeyID : get? "pubkey_id" o' = get? "pubkey_id" o
  pubkey : get? "pubkey" o' = get? "pubkey" o

/-- The head is left out, {lit}`null` or an object as it was sent. -/
def SentAs : Option Value -> Option Value -> Prop
  | none, x => x = none
  | some .null, x => x = some .null
  | some o, x => exists o', x = some o' ∧ HeadSame o o'

/-- A script finds the same in the document and in the body, and the page shows one text for
both. -/
structure MetaSame (v w : Value) : Prop where
  serverVersion : get? "server_version" w = get? "server_version" v
  schemaVersion : exists n, (get? "schema_version" v).bind asInt = some n ∧
    (get? "schema_version" w).bind asInt = some n
  alerts : exists o o', get? "alerts_definition_default" v = some o ∧
    get? "alerts_definition_default" w = some o' ∧ AlertsSame o o'
  fleet : (get? "fleet" w).map (countsOf "active_host_count" "active_window_days") = fleetOf v
  auditHead : SentAs (get? "audit_head" v) (get? "audit_head" w)
  summary : exists text, shownSummary w = some text ∧ shownSummary v = some text

/-- The head that is read in the body is the one of its member {lit}`audit_head`, and that is
not {lit}`null` and spells out the five fields. -/
def HeadSpelledOut (v : Value) : Prop :=
  match get? "audit_head" v with
  | none => objectsIn "audit_head" v = []
  | some .null => False
  | some o => objectsIn "audit_head" v ≠ [] ∧ HeadShown (headIn (objectsIn "audit_head" v)) o

/-- The body has every field under its exact name, and that says what the decoder reads. -/
structure SpelledOut (v : Value) : Prop where
  serverVersion : get? "server_version" v = some (ofText (lastText (fieldValues "server_version" v)))
  schemaVersion : (get? "schema_version" v).bind asInt =
    some (lastInt (fieldValues "schema_version" v))
  alerts : exists o, get? "alerts_definition_default" v = some o ∧ AlertsShown v o
  fleet : fleetOf v =
    (fleetIn v).map (fun h => (some h.activeHostCount, some h.activeWindowDays))
  auditHead : HeadSpelledOut v

/-!
## What is written
-/

theorem headShown_of_encode {h : AuditHead} {d : Document} (hencode : encodeAuditHead h = some d)
    (hseq : -2 ^ 63 <= h.seq ∧ h.seq < 2 ^ 63) : HeadShown h (value d) := by
  have hnames : (["seq", "hash", "sig", "pubkey_id", "pubkey"] : List String).Nodup := by decide
  constructor
  · exact get?_encodeInt hencode hnames hseq (List.mem_of_getElem? (i := 0) rfl)
  · exact get?_encodeString hencode hnames (List.mem_of_getElem? (i := 1) rfl)
  · exact get?_encodeString hencode hnames (List.mem_of_getElem? (i := 2) rfl)
  · exact get?_encodeString hencode hnames (List.mem_of_getElem? (i := 3) rfl)
  · exact get?_encodeString hencode hnames (List.mem_of_getElem? (i := 4) rfl)

theorem countsShown_of_encode {h : ActiveHosts} {d : Document}
    (hencode : encodeActiveHosts h = some d)
    (hhosts : -2 ^ 63 <= h.activeHostCount ∧ h.activeHostCount < 2 ^ 63)
    (hdays : -2 ^ 63 <= h.activeWindowDays ∧ h.activeWindowDays < 2 ^ 63) :
    CountsShown h (value d) := by
  have hnames : (["active_host_count", "active_window_days"] : List String).Nodup := by decide
  constructor
  · exact get?_encodeInt hencode hnames hhosts (List.mem_of_getElem? (i := 0) rfl)
  · exact get?_encodeInt hencode hnames hdays (List.mem_of_getElem? (i := 1) rfl)

theorem alertsShown_of_encode {v : Value} {m : ServerMeta} {d : Document} (hread : MetaRead v m)
    (hencode : encodeAlerts m.alertsDefinitionDefault = some d) : AlertsShown v (value d) := by
  have hnames : (["evidence_kinds", "ai_guard_buckets", "additional_kinds"] : List String).Nodup :=
    by decide
  constructor
  · rw [← hread.evidenceKinds]
    exact get?_encodeStrings hencode hnames (List.mem_of_getElem? (i := 0) rfl)
  · rw [← hread.aiGuardBuckets]
    exact get?_encodeStrings hencode hnames (List.mem_of_getElem? (i := 1) rfl)
  · rw [← hread.additionalKinds]
    exact get?_encodeStrings hencode hnames (List.mem_of_getElem? (i := 2) rfl)

theorem shown_of_omitempty {type : Type} {write : type -> Option Document}
    {R : type -> Value -> Prop} {name : String} {p : Option type}
    {members : List (String × Option Document)} {d : Document}
    (hencode : encodeStruct members = some d) (hnames : (members.map Prod.fst).Nodup)
    (hnone : p = none -> name ∉ members.map Prod.fst)
    (hsome : forall a, p = some a -> (name, write a) ∈ members)
    (hwrite : forall a x, p = some a -> write a = some x -> R a (value x)) :
    Shown R (get? name (value d)) p := by
  cases p with
  | none =>
      rcases encodeStruct_eq_some hencode with ⟨out, hout, heq⟩
      rw [heq]
      exact get?_of_not_mem hout (hnone rfl)
  | some a =>
      rcases exists_of_encodeStruct hencode hnames (hsome a rfl) with ⟨x, hx, hshown⟩
      exact ⟨value x, hshown, hwrite a x rfl hx⟩

theorem fleetIn_inRange {v : Value} {h : ActiveHosts} (hfleet : fleetIn v = some h) :
    (-2 ^ 63 <= h.activeHostCount ∧ h.activeHostCount < 2 ^ 63) ∧
      (-2 ^ 63 <= h.activeWindowDays ∧ h.activeWindowDays < 2 ^ 63) := by
  have hcounts : exists hosts days vs, h = countsIn hosts days vs := by
    unfold fleetIn at hfleet
    split_ifs at hfleet
    all_goals
      cases hfleet
      exact ⟨_, _, _, rfl⟩
  rcases hcounts with ⟨hosts, days, vs, heq⟩
  rw [heq]
  exact ⟨lastInt_inRange _, lastInt_inRange _⟩

section

variable {v : Value} {m : ServerMeta} {d : Document} (hread : MetaRead v m)
  (hencode : encodeServerMeta m = some d)

include hread hencode

theorem metaKept_of_encode : MetaKept v (value d) where
  serverVersion := by
    rw [← hread.serverVersion]
    exact get?_encodeString hencode (ServerMeta.members_names m)
      (List.mem_append_left _ (List.mem_of_getElem? (i := 0) rfl))
  schemaVersion := by
    rw [← hread.schemaVersion]
    apply get?_encodeInt hencode (ServerMeta.members_names m)
    · rw [hread.schemaVersion]
      exact lastInt_inRange _
    · exact List.mem_append_left _ (List.mem_of_getElem? (i := 1) rfl)
  alerts := by
    have hmem : ("alerts_definition_default", encodeAlerts m.alertsDefinitionDefault) ∈ m.members :=
      List.mem_append_left _ (List.mem_of_getElem? (i := 3) rfl)
    rcases exists_of_encodeStruct hencode (ServerMeta.members_names m) hmem with ⟨x, hx, hshown⟩
    exact ⟨value x, hshown, alertsShown_of_encode hread hx⟩
  fleet := by
    rw [← hread.fleet]
    apply shown_of_omitempty hencode (ServerMeta.members_names m) not_mem_members.left
    · intro h hfleet
      exact List.mem_append_right _ (List.mem_append_left _ (mem_omitempty hfleet))
    · intro h x hfleet hx
      rcases fleetIn_inRange (hread.fleet.symm.trans hfleet) with ⟨hhosts, hdays⟩
      exact countsShown_of_encode hx hhosts hdays

theorem headShown : Shown HeadShown (get? "audit_head" (value d)) m.auditHead := by
  apply shown_of_omitempty hencode (ServerMeta.members_names m) not_mem_members.right
  · intro h hhead
    exact List.mem_append_right _ (List.mem_append_right _ (mem_omitempty hhead))
  · intro h x hhead hx
    apply headShown_of_encode hx
    rw [hread.auditHead] at hhead
    split_ifs at hhead
    cases hhead
    exact lastInt_inRange _

end

theorem HeadShown.not_null {h : AuditHead} (hshown : HeadShown h .null) : False := by
  cases hshown.seq

theorem HeadShown.same {h : AuditHead} {o o' : Value} (ho : HeadShown h o)
    (ho' : HeadShown h o') : HeadSame o o' where
  seq := ⟨h.seq, ho.seq, ho'.seq⟩
  hash := ho'.hash.trans ho.hash.symm
  sig := ho'.sig.trans ho.sig.symm
  pubkeyID := ho'.pubkeyID.trans ho.pubkeyID.symm
  pubkey := ho'.pubkey.trans ho.pubkey.symm

theorem HeadSame.shown {h : AuditHead} {o o' : Value} (hsame : HeadSame o o')
    (ho' : HeadShown h o') : HeadShown h o where
  seq := by
    rcases hsame.seq with ⟨n, hn, hn'⟩
    rw [hn, ← hn', ho'.seq]
  hash := hsame.hash.symm.trans ho'.hash
  sig := hsame.sig.symm.trans ho'.sig
  pubkeyID := hsame.pubkeyID.symm.trans ho'.pubkeyID
  pubkey := hsame.pubkey.symm.trans ho'.pubkey

theorem HeadShown.summary {h : AuditHead} {o : Value} (hshown : HeadShown h o) :
    auditSigningSummary (some o) =
      some (unitsOf "signed head reported · seq " ++ unitsOf (numberText h.seq) ++
        unitsOf " · key " ++ unitsOf h.pubkeyID ++ unitsOf " (not verified)") := by
  have hseq : printed (get? "seq" o) = some (unitsOf (numberText h.seq)) := by
    rcases Option.bind_eq_some_iff.mp hshown.seq with ⟨x, hx, hn⟩
    rw [hx]
    cases x with
    | number literal =>
        show (asInt (.number literal)).map _ = _
        rw [hn]
        rfl
    | _ => cases hn
  have hkey : printed (get? "pubkey_id" o) = some (unitsOf h.pubkeyID) := by
    rw [hshown.pubkeyID]
    rfl
  cases o with
  | object members =>
      show (printed (get? "seq" (.object members))).bind _ = _
      rw [hseq, Option.bind_some, hkey, Option.map_some]
  | _ => cases hshown.seq

section

variable {v : Value} {m : ServerMeta} {d : Document} (hread : MetaRead v m)
  (hencode : encodeServerMeta m = some d)

include hread hencode

theorem sentAs_iff :
    (SentAs (get? "audit_head" v) (get? "audit_head" (value d)) ∧
        exists text, shownSummary (value d) = some text ∧ shownSummary v = some text) <->
      HeadSpelledOut v := by
  have hshown := headShown hread hencode
  rw [hread.auditHead] at hshown
  unfold HeadSpelledOut shownSummary
  cases hobjects : objectsIn "audit_head" v with
  | nil =>
      rw [hobjects] at hshown
      have hnone : get? "audit_head" (value d) = none := hshown
      rw [hnone]
      cases hmember : get? "audit_head" v with
      | none => exact iff_of_true ⟨rfl, _, rfl, rfl⟩ rfl
      | some o =>
          apply iff_of_false
          · rintro ⟨hsent, _⟩
            cases o with
            | null => cases hsent
            | _ =>
                rcases hsent with ⟨o', ho', _⟩
                cases ho'
          · cases o with
            | null => exact id
            | _ => exact fun hout => hout.left rfl
  | cons x rest =>
      rw [hobjects] at hshown
      rcases hshown with ⟨o', ho', hhead⟩
      rw [ho']
      cases hmember : get? "audit_head" v with
      | none =>
          apply iff_of_false
          · rintro ⟨hsent, _⟩
            cases hsent
          · intro hnil
            cases hnil
      | some o =>
          cases o with
          | null =>
              apply iff_of_false _ id
              rintro ⟨hsent, _⟩
              have hnull : some o' = some .null := hsent
              cases hnull
              exact hhead.not_null
          | _ =>
              constructor
              · rintro ⟨⟨o'', ho'', hsame⟩, _⟩
                cases ho''
                exact ⟨List.cons_ne_nil _ _, hsame.shown hhead⟩
              · rintro ⟨_, hspelled⟩
                exact ⟨⟨o', rfl, hspelled.same hhead⟩, _, hhead.summary, hspelled.summary⟩

end

theorem counts_of_shown {w : Value} {p : Option ActiveHosts}
    (h : Shown CountsShown (get? "fleet" w) p) :
    (get? "fleet" w).map (countsOf "active_host_count" "active_window_days") =
      p.map (fun h => (some h.activeHostCount, some h.activeWindowDays)) := by
  cases p with
  | none =>
      have hnone : get? "fleet" w = none := h
      rw [hnone]
      rfl
  | some counts =>
      rcases h with ⟨o, ho, hshown⟩
      rw [ho, Option.map_some, Option.map_some]
      unfold countsOf
      rw [hshown.activeHostCount, hshown.activeWindowDays]

theorem AlertsShown.same {v o o' : Value} (ho : AlertsShown v o) (ho' : AlertsShown v o') :
    AlertsSame o o' where
  evidenceKinds := ho'.evidenceKinds.trans ho.evidenceKinds.symm
  aiGuardBuckets := ho'.aiGuardBuckets.trans ho.aiGuardBuckets.symm
  additionalKinds := ho'.additionalKinds.trans ho.additionalKinds.symm

theorem AlertsSame.shown {v o o' : Value} (hsame : AlertsSame o o') (ho' : AlertsShown v o') :
    AlertsShown v o where
  evidenceKinds := hsame.evidenceKinds.symm.trans ho'.evidenceKinds
  aiGuardBuckets := hsame.aiGuardBuckets.symm.trans ho'.aiGuardBuckets
  additionalKinds := hsame.additionalKinds.symm.trans ho'.additionalKinds

theorem metaSame_iff {v : Value} {m : ServerMeta} {d : Document} (hread : MetaRead v m)
    (hencode : encodeServerMeta m = some d) : MetaSame v (value d) <-> SpelledOut v := by
  have hkept := metaKept_of_encode hread hencode
  have hhead := sentAs_iff hread hencode
  have hcounts := counts_of_shown hkept.fleet
  rcases hkept.alerts with ⟨out, hout, halerts⟩
  constructor
  · intro h
    refine ⟨?_, ?_, ?_, ?_, hhead.mp ⟨h.auditHead, h.summary⟩⟩
    · exact h.serverVersion.symm.trans hkept.serverVersion
    · rcases h.schemaVersion with ⟨n, hn, hn'⟩
      rw [hn, ← hn', hkept.schemaVersion]
    · rcases h.alerts with ⟨o, o', ho, ho', hsame⟩
      rw [hout] at ho'
      cases ho'
      exact ⟨o, ho, hsame.shown halerts⟩
    · exact h.fleet.symm.trans hcounts
  · intro h
    rcases hhead.mpr h.auditHead with ⟨hsent, hsummary⟩
    refine ⟨?_, ?_, ?_, ?_, hsent, hsummary⟩
    · exact hkept.serverVersion.trans h.serverVersion.symm
    · exact ⟨_, h.schemaVersion, hkept.schemaVersion⟩
    · rcases h.alerts with ⟨o, ho, hshown⟩
      exact ⟨o, out, ho, hout, hshown.same halerts⟩
    · exact hcounts.trans h.fleet.symm

/-!
## Through the client, the cache and the handler
-/

def handleFleetMeta (m : ServerMeta) : Option Document := encodeServerMeta m

def metaType : Method -> Type
  | .serverMeta => Decoded decodeServerMeta
  | _ => Document

def signedHead : Document :=
  objectOf [("seq", encodeInt 4211), ("hash", encodeString "abc"), ("sig", encodeString "def"),
    ("pubkey_id", encodeString "key-1"), ("pubkey", encodeString "ed25519:AAAA")]

def defaultAlerts : Document :=
  objectOf [("evidence_kinds", .array [encodeString "ai_guard_risk_assessed"]),
    ("ai_guard_buckets", .array [encodeString "high", encodeString "critical"]),
    ("additional_kinds", .array [])]

def legacyMeta : Document :=
  objectOf [("server_version", encodeString "0.8.2"), ("schema_version", encodeInt 1),
    ("ts", encodeString "2026-01-01T00:00:00Z"),
    ("alerts_definition_default", defaultAlerts),
    ("license", objectOf [("current_host_count", encodeInt 3), ("active_window_days", encodeInt 7)]),
    ("audit_head", signedHead)]

def nullHead : Document :=
  objectOf [("ts", encodeString "2026-01-01T00:00:00Z"), ("audit_head", .null)]

end Api
end LodelineManager
