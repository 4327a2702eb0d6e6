import LodelineManager.Fleet.Wire
import Mathlib.Tactic.FinCases

/-!
# What the wire structs keep of a value

The fields of a struct that was read, as the value has them, and the members of the
object that is written for it.
-/

namespace LodelineManager
namespace Fleet
namespace Wire

open Foundation Go JSON

/-!
## Events
-/

theorem eventFields_reads :
    Reads eventFields "event_id" Event.eventID decodeString ∧
      Reads eventFields "ts" Event.ts decodeTime ∧
      Reads eventFields "host_id" Event.hostID decodeString ∧
      Reads eventFields "severity" Event.severity decodeString ∧
      Reads eventFields "source" Event.source decodeRaw ∧
      Reads eventFields "subject" Event.subject decodeRaw ∧
      Reads eventFields "evidence" Event.evidence decodeEvidence ∧
      Reads eventFields "target_id" Event.targetID (decodePtr "" decodeString) := by
  have hnames : DistinctNames eventFields := by
    unfold DistinctNames
    decide
  refine ⟨Reads.of_field hnames (List.mem_of_getElem? (i := 1) rfl) (fun _ _ => rfl) ?_,
    Reads.of_field hnames (List.mem_of_getElem? (i := 2) rfl) (fun _ _ => rfl) ?_,
    Reads.of_field hnames (List.mem_of_getElem? (i := 3) rfl) (fun _ _ => rfl) ?_,
    Reads.of_field hnames (List.mem_of_getElem? (i := 5) rfl) (fun _ _ => rfl) ?_,
    Reads.of_field hnames (List.mem_of_getElem? (i := 6) rfl) (fun _ _ => rfl) ?_,
    Reads.of_field hnames (List.mem_of_getElem? (i := 7) rfl) (fun _ _ => rfl) ?_,
    Reads.of_field hnames (List.mem_of_getElem? (i := 8) rfl) (fun _ _ => rfl) ?_,
    Reads.of_field hnames (List.mem_of_getElem? (i := 9) rfl) (fun _ _ => rfl) ?_⟩
  all_goals
    unfold eventFields
    intro f hf
    fin_cases hf
    all_goals first | exact Or.inl rfl | exact Or.inr (field_other (fun _ _ => rfl))

theorem reads_kind : Reads probeFields "kind" id decodeString := by
  refine Reads.of_field (by unfold DistinctNames; decide) (List.mem_of_getElem? (i := 0) rfl)
    (fun _ _ => rfl) ?_
  unfold probeFields
  intro f hf
  fin_cases hf
  exact Or.inl rfl

theorem decodeEvidence_eq_some {v : Document} {c e : Evidence} (h : decodeEvidence v c = some e) :
    e.raw = some v ∧ e.kind = textIn "kind" (value v) := by
  rcases Option.map_eq_some_iff.mp h with ⟨kind, hkind, heq⟩
  rw [← heq]
  exact ⟨rfl, reads_kind.text hkind rfl⟩

/-- An event as the value of its document has it. -/
structure EventRead (v : Value) (e : Event) : Prop where
  eventID : e.eventID = textIn "event_id" v
  hostID : e.hostID = textIn "host_id" v
  severity : e.severity = textIn "severity" v
  targetID : e.targetID = optionalTextIn "target_id" v
  instant : e.ts.instant = instantIn "ts" v
  wholeMinutes : e.ts.offset % minute = 0
  source : e.source.elim .null value = rawIn "source" v
  subject : e.subject.elim .null value = rawIn "subject" v
  evidence : e.evidence.raw.elim .null value = rawIn "evidence" v
  kind : e.evidence.kind = textIn "kind" (rawIn "evidence" v)

theorem eventRead_of_decode {j : Document} {e : Event} (h : decodeEvent j {} = some e) :
    EventRead (value j) e := by
  rcases eventFields_reads with ⟨heventID, hts, hhostID, hseverity, hsource, hsubject, hevidence,
    htargetID⟩
  have htime := hts.instant h rfl
  have hkept : e.evidence.raw.elim .null value = rawIn "evidence" (value j) ∧
      e.evidence.kind = textIn "kind" (rawIn "evidence" (value j)) := by
    rcases hevidence.last (fun _ _ _ => decodeEvidence_eq_some) h with
      ⟨hraw, hsame⟩ | ⟨v, hraw, hkept, hkind⟩
    · rw [hraw, hsame]
      exact ⟨rfl, rfl⟩
    · rw [hraw, hkept]
      exact ⟨rfl, hkind⟩
  exact
    { eventID := heventID.text h rfl, hostID := hhostID.text h rfl
      severity := hseverity.text h rfl, targetID := htargetID.optionalText h rfl
      instant := htime.left, wholeMinutes := htime.right
      source := hsource.raw h rfl, subject := hsubject.raw h rfl
      evidence := hkept.left, kind := hkept.right }

/-- The object of an event says the same as the value that the event was read from. -/
structure EventKept (v w : Value) : Prop where
  eventID : get? "event_id" w = some (ofText (textIn "event_id" v))
  hostID : get? "host_id" w = some (ofText (textIn "host_id" v))
  severity : get? "severity" w = some (ofText (textIn "severity" v))
  targetID : get? "target_id" w = some (ofOptionalText (optionalTextIn "target_id" v))
  instant : exists ts, get? "ts" w = some ts ∧ asInstant ts = some (instantIn "ts" v)
  source : get? "source" w = some (rawIn "source" v)
  subject : get? "subject" w = some (rawIn "subject" v)
  evidence : get? "evidence" w = some (rawIn "evidence" v)

theorem value_encodePtr_string (p : Option String) :
    (encodePtr (fun s => some (encodeString s)) p).map value = some (ofOptionalText p) := by
  cases p with
  | none => rfl
  | some s => exact congrArg some (value_encodeString s)

theorem EventRead.kept {v : Value} {e : Event} (h : EventRead v e)
    {more : List (String × Option Document)} {out : List (Text × Document)}
    (hencode : encodeObject (e.members ++ more) = some out)
    (hnames : ((e.members ++ more).map Prod.fst).Nodup) : EventKept v (value (.object out)) := by
  have hmember : forall name d, (name, d) ∈ e.members ->
      get? name (value (.object out)) = d.map value := fun name d hd =>
    get?_of_mem hencode hnames (List.mem_append_left more hd)
  constructor
  · rw [hmember "event_id" _ (List.mem_of_getElem? (i := 1) rfl), ← h.eventID]
    exact congrArg some (value_encodeString e.eventID)
  · rw [hmember "host_id" _ (List.mem_of_getElem? (i := 3) rfl), ← h.hostID]
    exact congrArg some (value_encodeString e.hostID)
  · rw [hmember "severity" _ (List.mem_of_getElem? (i := 5) rfl), ← h.severity]
    exact congrArg some (value_encodeString e.severity)
  · rw [hmember "target_id" _ (List.mem_of_getElem? (i := 9) rfl), ← h.targetID]
    exact value_encodePtr_string e.targetID
  · have hts : ("ts", encodeTime e.ts) ∈ e.members := List.mem_of_getElem? (i := 2) rfl
    rcases exists_of_mem_members hencode (List.mem_append_left more hts) with ⟨d, hd⟩
    refine ⟨value d, ?_, ?_⟩
    · rw [hmember "ts" _ hts, hd]
      rfl
    · rw [← h.instant]
      exact encodeTime_eq_some hd h.wholeMinutes
  · rw [hmember "source" _ (List.mem_of_getElem? (i := 6) rfl), ← h.source]
    exact congrArg some (value_encodeRaw e.source)
  · rw [hmember "subject" _ (List.mem_of_getElem? (i := 7) rfl), ← h.subject]
    exact congrArg some (value_encodeRaw e.subject)
  · rw [hmember "evidence" _ (List.mem_of_getElem? (i := 8) rfl), ← h.evidence]
    exact congrArg some (value_encodeRaw e.evidence.raw)

/-!
## Pages of events
-/

theorem eventsPageFields_reads :
    Reads eventsPageFields "events" EventsPage.events (decodeSlice {} decodeEvent) ∧
      Reads eventsPageFields "next_cursor" EventsPage.nextCursor (decodePtr "" decodeString) := by
  have hnames : DistinctNames eventsPageFields := by
    unfold DistinctNames
    decide
  refine ⟨Reads.of_field hnames (List.mem_of_getElem? (i := 0) rfl) (fun _ _ => rfl) ?_,
    Reads.of_field hnames (List.mem_of_getElem? (i := 1) rfl) (fun _ _ => rfl) ?_⟩
  all_goals
    unfold eventsPageFields
    intro f hf
    fin_cases hf
    all_goals first | exact Or.inl rfl | exact Or.inr (field_other (fun _ _ => rfl))

def eventsIn (v : Value) : List Value := (rawIn "events" v).items

theorem eventsPage_read {j : Document} {page : EventsPage} (h : decodeEventsPage j = some page)
    (hsingle : Single "events" (value j)) :
    page.nextCursor = optionalTextIn "next_cursor" (value j) ∧
      List.Forall₂ EventRead (eventsIn (value j)) page.events.toList := by
  rcases eventsPageFields_reads with ⟨hevents, hcursor⟩
  refine ⟨hcursor.optionalText h rfl, ?_⟩
  unfold eventsIn
  rcases hevents.single hsingle h with ⟨hraw, hsame⟩ | ⟨v, hraw, hread⟩
  · rw [hraw, hsame]
    exact .nil
  · rw [hraw]
    have hslice := decodeSlice_nil hread
    generalize page.events = events at hslice
    cases hslice with
    | nil => exact .nil
    | @items vs out spare hall =>
        rw [show (value (.array vs)).items = vs.map value from Json.items_map units (.array vs)]
        apply List.forall₂_map_left_iff.mpr
        exact hall.imp (fun _ _ => eventRead_of_decode)

/-!
## Tools of a host
-/

section

variable {float : Type} {F : Floats float}

theorem toolFields_reads :
    Reads (toolFields F) "controls" ToolAiGuard.controls
        (decodePtr Slice.nil (decodeSlice {} (decodeStruct controlFields))) ∧
      Reads (toolFields F) "scope" ToolAiGuard.scope decodeRaw ∧
      Reads (toolFields F) "reasons" ToolAiGuard.reasons (decodeSlice none decodeRaw) := by
  have hnames : DistinctNames (toolFields F) := by
    show (["controls", "score", "bucket", "assessed_ts", "is_reattestation", "scope",
      "reasons"].map (fun name => foldName name.toList)).Nodup
    decide
  refine ⟨Reads.of_field hnames (List.mem_of_getElem? (i := 0) rfl) (fun _ _ => rfl) ?_,
    Reads.of_field hnames (List.mem_of_getElem? (i := 5) rfl) (fun _ _ => rfl) ?_,
    Reads.of_field hnames (List.mem_of_getElem? (i := 6) rfl) (fun _ _ => rfl) ?_⟩
  all_goals
    unfold toolFields
    intro f hf
    fin_cases hf
    all_goals first | exact Or.inl rfl | exact Or.inr (field_other (fun _ _ => rfl))

theorem controlFields_names : DistinctNames controlFields := by
  unfold DistinctNames
  decide

theorem reads_controlValue : Reads controlFields "value" AiGuardControl.value decodeRaw := by
  refine Reads.of_field controlFields_names (List.mem_of_getElem? (i := 3) rfl)
    (fun _ _ => rfl) ?_
  unfold controlFields
  intro f hf
  fin_cases hf
  all_goals first | exact Or.inl rfl | exact Or.inr (field_other (fun _ _ => rfl))

def ControlRead (v : Value) (c : AiGuardControl) : Prop :=
  c.value.elim .null value = rawIn "value" v

def valueOfRaws (s : Slice RawMessage) : Value :=
  match s.items with
  | none => .null
  | some raws => .array (raws.map (fun r => r.elim .null value))

/-- The controls of a tool as the value of its document has them; without any, the value
has none either. -/
def ControlsRead (v : Value) : Option (Slice AiGuardControl) -> Prop
  | none => rawIn "controls" v = .null
  | some s => exists vs cs, rawIn "controls" v = .array vs ∧ s.items = some cs ∧
      List.Forall₂ ControlRead vs cs

structure ToolRead (v : Value) (t : ToolAiGuard float) : Prop where
  scope : t.scope.elim .null value = rawIn "scope" v
  reasons : valueOfRaws t.reasons = rawIn "reasons" v
  controls : ControlsRead v t.controls

theorem valueOfRaws_read {v : Document} {s : Slice RawMessage}
    (h : SliceRead (fun v a => a = some v) v s) : valueOfRaws s = value v := by
  cases h with
  | nil => rfl
  | @items vs out spare hall =>
      have hout : out.map (fun r => r.elim .null value) = vs.map value := by
        induction hall with
        | nil => rfl
        | cons hv _ ih => rw [List.map_cons, List.map_cons, hv, ih]; rfl
      show Json.array (out.map _) = _
      rw [hout]
      exact congrArg Json.array (Json.mapItems_eq units vs).symm

theorem controlsRead_of_decode {v : Document} {p : Option (Slice AiGuardControl)}
    (h : decodePtr Slice.nil (decodeSlice {} (decodeStruct controlFields)) v none = some p) :
    (value v = .null ∧ p = none) ∨ exists vs cs spare, value v = .array vs ∧
      p = some { items := some cs, spare := spare } ∧ List.Forall₂ ControlRead vs cs := by
  unfold decodePtr at h
  split at h
  · rename_i hnull
    cases h
    cases v with
    | null => exact Or.inl ⟨rfl, rfl⟩
    | _ => cases hnull
  · rename_i hsome
    rcases Option.map_eq_some_iff.mp h with ⟨s, hs, heq⟩
    have hslice := decodeSlice_nil hs
    cases hslice with
    | nil => exact absurd rfl hsome
    | @items vs cs spare hall =>
        refine Or.inr ⟨vs.map value, cs, spare, congrArg Json.array (Json.mapItems_eq units vs),
          heq.symm, ?_⟩
        apply List.forall₂_map_left_iff.mpr
        exact hall.imp (fun _ _ hread => reads_controlValue.raw hread rfl)

theorem toolRead_of_decode {j : Document} {t : ToolAiGuard float}
    (h : decodeStruct (toolFields F) j (ToolAiGuard.zero F) = some t)
    (hsingle : Single "controls" (value j)) : ToolRead (value j) t := by
  rcases @toolFields_reads _ F with ⟨hcontrols, hscope, hreasons⟩
  constructor
  · exact hscope.raw h rfl
  · rcases hreasons.last (fun _ _ _ => decodeSlice_raw) h with ⟨hraw, hsame⟩ | ⟨v, hraw, hread⟩
    · rw [hraw, hsame]
      rfl
    · rw [hraw]
      exact valueOfRaws_read hread
  · rcases hcontrols.single hsingle h with ⟨hraw, hsame⟩ | ⟨v, hraw, hread⟩
    · rw [hsame]
      exact hraw
    · rcases controlsRead_of_decode hread with ⟨hnull, hp⟩ | ⟨vs, cs, spare, hvs, hp, hall⟩
      · rw [hp]
        exact hraw.trans hnull
      · rw [hp]
        exact ⟨vs, cs, hraw.trans hvs, rfl, hall⟩

theorem aiGuardFields_names : DistinctNames (aiGuardFields F) := by
  show (["by_tool"].map (fun name => foldName name.toList)).Nodup
  decide

theorem reads_byTool : Reads (aiGuardFields F) "by_tool" AiGuard.byTool
    (decodeMap (ToolAiGuard.zero F) (decodeStruct (toolFields F))) := by
  refine Reads.of_field aiGuardFields_names (List.mem_of_getElem? (i := 0) rfl)
    (fun _ _ => rfl) ?_
  unfold aiGuardFields
  intro f hf
  fin_cases hf
  exact Or.inl rfl

theorem hostFields_names : DistinctNames (hostFields F) := by
  show (["host_id", "hostname", "agent_version", "last_seen_ts", "status", "current_risk",
    "open_event_counts_24h", "host_meta", "policy_state", "agent_health", "ai_guard"].map
      (fun name => foldName name.toList)).Nodup
  decide

theorem reads_aiGuard : Reads (hostFields F) "ai_guard" HostDetail.aiGuard
    (decodePtr {} (decodeStruct (aiGuardFields F))) := by
  refine Reads.of_field hostFields_names (List.mem_of_getElem? (i := 10) rfl) (fun _ _ => rfl) ?_
  unfold hostFields
  intro f hf
  fin_cases hf
  all_goals first | exact Or.inl rfl | exact Or.inr (field_other (fun _ _ => rfl))

def toolsIn (v : Value) : Value := rawIn "by_tool" (rawIn "ai_guard" v)

def HostDetail.tool (h : HostDetail float) (key : String) : Option (ToolAiGuard float) :=
  h.aiGuard.bind (fun guard => guard.byTool.bind (fun tools => tools.lookup key))

/-- No block that is read into is named twice. -/
structure SingleBlocks (v : Value) : Prop where
  aiGuard : Single "ai_guard" v
  byTool : Single "by_tool" (rawIn "ai_guard" v)
  controls : forall key tool, entryIn key (toolsIn v) = some tool -> Single "controls" tool

theorem lookup_decodeMap {item : Type} {zero : item} {read : Document -> item -> Option item}
    {v : Document} {m : Map item} (h : decodeMap zero read v none = some m) (key : String) :
    (entryIn key (value v) = none ∧ m.bind (fun m => m.lookup key) = none) ∨
      exists d a, entryIn key (value v) = some (value d) ∧ read d zero = some a ∧
        m.bind (fun m => m.lookup key) = some a := by
  cases v with
  | null =>
      cases h
      exact Or.inl ⟨rfl, rfl⟩
  | object members =>
      rcases Option.map_eq_some_iff.mp h with ⟨m', hm', heq⟩
      rw [← heq, entryIn_value]
      rcases lookup_decodeEntries key hm' with ⟨hnone, hsame⟩ | ⟨d, a, hd, ha, hlookup⟩
      · rw [hnone]
        exact Or.inl ⟨rfl, hsame⟩
      · rw [hd]
        exact Or.inr ⟨d, a, rfl, ha, hlookup⟩
  | _ => cases h

theorem aiGuard_of_decode {v : Document} {p : Option (AiGuard float)}
    (h : decodePtr {} (decodeStruct (aiGuardFields F)) v none = some p)
    (hsingle : Single "by_tool" (value v)) (key : String) :
    (entryIn key (rawIn "by_tool" (value v)) = none ∧
        p.bind (fun guard => guard.byTool.bind (fun tools => tools.lookup key)) = none) ∨
      exists d t, entryIn key (rawIn "by_tool" (value v)) = some (value d) ∧
        decodeStruct (toolFields F) d (ToolAiGuard.zero F) = some t ∧
        p.bind (fun guard => guard.byTool.bind (fun tools => tools.lookup key)) = some t := by
  unfold decodePtr at h
  split at h
  · rename_i hnull
    cases h
    cases v with
    | null => exact Or.inl ⟨rfl, rfl⟩
    | _ => cases hnull
  · rcases Option.map_eq_some_iff.mp h with ⟨guard, hguard, heq⟩
    rw [← heq]
    show (_ ∧ guard.byTool.bind _ = none) ∨ exists d t, _ ∧ _ ∧ guard.byTool.bind _ = some t
    rcases reads_byTool.single hsingle hguard with ⟨hraw, hsame⟩ | ⟨d, hraw, hread⟩
    · rw [hraw, hsame]
      exact Or.inl ⟨rfl, rfl⟩
    · rw [hraw]
      exact lookup_decodeMap hread key

theorem tool_of_decode {j : Document} {h : HostDetail float} (hdecode : decodeHostDetail F j = some h)
    (hsingle : SingleBlocks (value j)) (key : String) :
    (entryIn key (toolsIn (value j)) = none ∧ h.tool key = none) ∨
      exists v t, entryIn key (toolsIn (value j)) = some v ∧ h.tool key = some t ∧
        ToolRead v t := by
  unfold toolsIn HostDetail.tool
  rcases reads_aiGuard.single hsingle.aiGuard hdecode with ⟨hraw, hsame⟩ | ⟨d, hraw, hread⟩
  · rw [hraw, hsame]
    exact Or.inl ⟨rfl, rfl⟩
  · have hby : Single "by_tool" (value d) := hraw ▸ hsingle.byTool
    rw [hraw]
    rcases aiGuard_of_decode hread hby key with hnone | ⟨d', t, hd', ht, hlookup⟩
    · exact Or.inl hnone
    · refine Or.inr ⟨value d', t, hd', hlookup, toolRead_of_decode ht ?_⟩
      apply hsingle.controls key
      unfold toolsIn
      rw [hraw]
      exact hd'

/-- The object of a tool says the same as the value that the tool was read from.  Controls
are absent where the value has none. -/
structure ToolKept (v w : Value) : Prop where
  scope : get? "scope" w = some (rawIn "scope" v)
  reasons : get? "reasons" w = some (rawIn "reasons" v)
  controls : (rawIn "controls" v = .null ∧ get? "controls" w = none) ∨
    exists vs ws, rawIn "controls" v = .array vs ∧ get? "controls" w = some (.array ws) ∧
      List.Forall₂ (fun c d => get? "value" d = some (rawIn "value" c)) vs ws

theorem value_encodeSlice {item : Type} {write : item -> Option Document} {f : item -> Value}
    (hwrite : forall a d, write a = some d -> value d = f a) {s : Slice item} {d : Document}
    (h : encodeSlice write s = some d) :
    value d = s.items.elim .null (fun items => .array (items.map f)) := by
  unfold encodeSlice at h
  split at h
  · rename_i hnil
    cases h
    rw [hnil]
    rfl
  · rename_i items hitems
    rcases Option.map_eq_some_iff.mp h with ⟨ds, hds, heq⟩
    have hall : ds.map value = items.map f := by
      have hwritten := encodeAll_eq_some hds
      clear hds heq h hitems
      induction hwritten with
      | nil => rfl
      | @cons a d items ds hd _ ih => rw [List.map_cons, List.map_cons, ih, hwrite a d hd]
    rw [hitems, ← heq]
    show value (.array ds) = .array (items.map f)
    rw [← hall]
    exact congrArg Json.array (Json.mapItems_eq units ds)

theorem value_encodeRaws {s : Slice RawMessage} {d : Document}
    (h : encodeSlice (fun r => some (encodeRaw r)) s = some d) : value d = valueOfRaws s := by
  have hraw : forall (r : RawMessage) d, some (encodeRaw r) = some d ->
      value d = r.elim .null value := by
    intro r d hd
    cases hd
    exact value_encodeRaw r
  rw [value_encodeSlice hraw h]
  unfold valueOfRaws
  cases s.items <;> rfl

theorem encodeStruct_eq_some {members : List (String × Option Document)} {d : Document}
    (h : encodeStruct members = some d) :
    exists out, encodeObject members = some out ∧ d = .object out := by
  rcases Option.map_eq_some_iff.mp h with ⟨out, hout, heq⟩
  exact ⟨out, hout, heq.symm⟩

theorem get?_of_encodeStruct {members : List (String × Option Document)} {d : Document}
    (h : encodeStruct members = some d) (hnames : (members.map Prod.fst).Nodup) {name : String}
    {v : Option Document} (hmem : (name, v) ∈ members) : get? name (value d) = v.map value := by
  rcases encodeStruct_eq_some h with ⟨out, hout, heq⟩
  rw [heq]
  exact get?_of_mem hout hnames hmem

theorem exists_of_encodeStruct {members : List (String × Option Document)} {d : Document}
    (h : encodeStruct members = some d) (hnames : (members.map Prod.fst).Nodup) {name : String}
    {v : Option Document} (hmem : (name, v) ∈ members) :
    exists x, v = some x ∧ get? name (value d) = some (value x) := by
  rcases encodeStruct_eq_some h with ⟨out, hout, _⟩
  rcases exists_of_mem_members hout hmem with ⟨x, hx⟩
  refine ⟨x, hx, ?_⟩
  rw [get?_of_encodeStruct h hnames hmem, hx]
  rfl

theorem controlKept {v : Value} {c : AiGuardControl} {d : Document} (h : ControlRead v c)
    (hencode : encodeControl c = some d) : get? "value" (value d) = some (rawIn "value" v) := by
  have hnames : (["id", "source_path", "setting", "value"] : List String).Nodup := by decide
  rw [get?_of_encodeStruct hencode hnames (List.mem_of_getElem? (i := 3) rfl), ← h]
  exact congrArg some (value_encodeRaw c.value)

theorem controlsKept {vs : List Value} {cs : List AiGuardControl} {ds : List Document}
    (h : List.Forall₂ ControlRead vs cs)
    (hencode : List.Forall₂ (fun c d => encodeControl c = some d) cs ds) :
    List.Forall₂ (fun c d => get? "value" d = some (rawIn "value" c)) vs (ds.map value) := by
  induction h generalizing ds with
  | nil =>
      cases hencode
      exact .nil
  | cons hread _ ih =>
      cases hencode with
      | cons hd hrest => exact .cons (controlKept hread hd) (ih hrest)

theorem members_names (t : ToolAiGuard float) : ((t.members F).map Prod.fst).Nodup := by
  have hnames : (["controls", "score", "bucket", "assessed_ts", "is_reattestation", "scope",
      "reasons"] : List String).Nodup := by decide
  unfold ToolAiGuard.members
  cases t.controls with
  | none => exact (List.nodup_cons.mp hnames).right
  | some controls => exact hnames

theorem ToolRead.kept {v : Value} {t : ToolAiGuard float} (h : ToolRead v t) {d : Document}
    (hencode : encodeTool F t = some d) : ToolKept v (value d) := by
  constructor
  · have hscope : ("scope", some (encodeRaw t.scope)) ∈ t.members F :=
      List.mem_append_right _ (List.mem_of_getElem? (i := 4) rfl)
    rw [get?_of_encodeStruct hencode (members_names t) hscope, ← h.scope]
    exact congrArg some (value_encodeRaw t.scope)
  · have hreasons : ("reasons", encodeSlice (fun r => some (encodeRaw r)) t.reasons) ∈
        t.members F := List.mem_append_right _ (List.mem_of_getElem? (i := 5) rfl)
    rcases exists_of_encodeStruct hencode (members_names t) hreasons with ⟨x, hx, hshown⟩
    rw [hshown, ← h.reasons]
    exact congrArg some (value_encodeRaws hx)
  · have hread := h.controls
    cases hcontrols : t.controls with
    | none =>
        rw [hcontrols] at hread
        rcases encodeStruct_eq_some hencode with ⟨out, hout, heq⟩
        refine Or.inl ⟨hread, ?_⟩
        rw [heq]
        apply get?_of_not_mem hout
        unfold ToolAiGuard.members
        rw [hcontrols]
        show "controls" ∉ (["score", "bucket", "assessed_ts", "is_reattestation", "scope",
          "reasons"] : List String)
        decide
    | some controls =>
        rw [hcontrols] at hread
        rcases hread with ⟨vs, cs, hvs, hitems, hall⟩
        have hmem : ("controls", encodeSlice encodeControl controls) ∈ t.members F := by
          unfold ToolAiGuard.members
          rw [hcontrols]
          exact List.mem_cons_self
        rcases exists_of_encodeStruct hencode (members_names t) hmem with ⟨x, hx, hshown⟩
        have hwritten := hx
        unfold encodeSlice at hwritten
        rw [hitems] at hwritten
        rcases Option.map_eq_some_iff.mp hwritten with ⟨ds, hds, harray⟩
        refine Or.inr ⟨vs, ds.map value, hvs, ?_, controlsKept hall (encodeAll_eq_some hds)⟩
        rw [hshown, ← harray]
        exact congrArg (some ∘ Json.array) (Json.mapItems_eq units ds)

def shownTool (key : String) (w : Value) : Option Value :=
  ((get? "ai_guard" w).bind (get? "by_tool")).bind (get? key)

theorem shown_of_guard {guard : AiGuard float} {d : Document}
    (hencode : encodeAiGuard F guard = some d) (key : String) :
    (guard.byTool.bind (fun tools => tools.lookup key) = none ∧
        (get? "by_tool" (value d)).bind (get? key) = none) ∨
      exists t x, guard.byTool.bind (fun tools => tools.lookup key) = some t ∧
        encodeTool F t = some x ∧
        (get? "by_tool" (value d)).bind (get? key) = some (value x) := by
  have hnames : (["by_tool"] : List String).Nodup := by decide
  have hmem : ("by_tool", encodeMap (encodeTool F) guard.byTool) ∈
      [("by_tool", encodeMap (encodeTool F) guard.byTool)] := List.mem_singleton_self _
  rcases exists_of_encodeStruct hencode hnames hmem with ⟨y, hy, hshown⟩
  rw [hshown]
  show (_ ∧ get? key (value y) = none) ∨ exists t x, _ ∧ _ ∧ get? key (value y) = some (value x)
  cases htools : guard.byTool with
  | none =>
      rw [htools] at hy
      cases hy
      exact Or.inl ⟨rfl, rfl⟩
  | some tools =>
      rw [htools] at hy
      rw [get?_encodeMap hy key]
      show (tools.lookup key = none ∧ _) ∨ exists t x, tools.lookup key = some t ∧ _
      cases hlookup : tools.lookup key with
      | none => exact Or.inl ⟨rfl, rfl⟩
      | some t =>
          rcases exists_of_encodeMap hy hlookup with ⟨x, hx⟩
          refine Or.inr ⟨t, x, rfl, hx, ?_⟩
          show (encodeTool F t).map value = some (value x)
          rw [hx]
          rfl

theorem shown_of_host {h : HostDetail float} {d : Document}
    (hencode : encodeHostDetail F h = some d) (key : String) :
    (h.tool key = none ∧ shownTool key (value d) = none) ∨
      exists t x, h.tool key = some t ∧ encodeTool F t = some x ∧
        shownTool key (value d) = some (value x) := by
  have hnames : (["host_id", "hostname", "agent_version", "last_seen_ts", "status",
      "current_risk", "open_event_counts_24h", "host_meta", "policy_state", "agent_health",
      "ai_guard"] : List String).Nodup := by decide
  rcases @exists_of_encodeStruct _ _ hencode hnames "ai_guard"
    (encodePtr (encodeAiGuard F) h.aiGuard) (List.mem_of_getElem? (i := 10) rfl) with ⟨x, hx, hguard⟩
  unfold shownTool HostDetail.tool
  rw [hguard]
  show (_ ∧ (get? "by_tool" (value x)).bind (get? key) = none) ∨
    exists t y, _ ∧ _ ∧ (get? "by_tool" (value x)).bind (get? key) = some (value y)
  cases hai : h.aiGuard with
  | none =>
      rw [hai] at hx
      cases hx
      exact Or.inl ⟨rfl, rfl⟩
  | some guard =>
      rw [hai] at hx
      exact shown_of_guard hx key

theorem tool_kept {j d : Document} {h : HostDetail float} (hdecode : decodeHostDetail F j = some h)
    (hencode : encodeHostDetail F h = some d) (hsingle : SingleBlocks (value j)) (key : String) :
    (entryIn key (toolsIn (value j)) = none ∧ shownTool key (value d) = none) ∨
      exists v w, entryIn key (toolsIn (value j)) = some v ∧
        shownTool key (value d) = some w ∧ ToolKept v w := by
  rcases tool_of_decode hdecode hsingle key with ⟨hnone, htool⟩ | ⟨v, t, hv, htool, hread⟩
  · rcases shown_of_host hencode key with ⟨_, hshown⟩ | ⟨t, x, ht, _⟩
    · exact Or.inl ⟨hnone, hshown⟩
    · rw [htool] at ht
      cases ht
  · rcases shown_of_host hencode key with ⟨ht, _⟩ | ⟨t', x, ht, hx, hshown⟩
    · rw [htool] at ht
      cases ht
    · rw [htool] at ht
      cases ht
      exact Or.inr ⟨v, value x, hv, hshown, hread.kept hx⟩

end

end Wire
end Fleet
end LodelineManager
