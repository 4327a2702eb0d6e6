import LodelineManager.Fleet.MockHosts
import LodelineManager.Foundation.FollowCursors
import LodelineManager.Go.Ascii

/-!
# The event listing of the mock client

The events with everything that {lit}`/v1/events` sends of them.  The filters of
{lit}`matchesEvent` are set against those that the contract names: the kind of the source is
one that the code never looks at.
-/

namespace LodelineManager
namespace Fleet

open Go JSON Foundation FollowCursors
open Wire (Evidence AiGuardControl controlFields probeFields)

/-!
## Evidence
-/

/-- The payload of {lit}`ai_guard_risk_assessed`. -/
structure EvidenceAiGuard (float : Type) where
  controls : Option (Slice AiGuardControl) := none
  kind : String := ""
  tool : String := ""
  scope : RawMessage := none
  score : float
  bucket : String := ""
  reasons : Slice RawMessage := Slice.nil
  isReattestation : Bool := false

section

variable {float : Type} (F : Floats float)

def evidenceAiGuardFields : List (Field Text (EvidenceAiGuard float)) :=
  [field "controls" EvidenceAiGuard.controls (fun g x => { g with controls := x })
      (decodePtr Slice.nil (decodeSlice {} (decodeStruct controlFields))),
    field "kind" EvidenceAiGuard.kind (fun g x => { g with kind := x }) decodeString,
    field "tool" EvidenceAiGuard.tool (fun g x => { g with tool := x }) decodeString,
    field "scope" EvidenceAiGuard.scope (fun g x => { g with scope := x }) decodeRaw,
    field "score" EvidenceAiGuard.score (fun g x => { g with score := x }) (decodeFloat F),
    field "bucket" EvidenceAiGuard.bucket (fun g x => { g with bucket := x }) decodeString,
    field "reasons" EvidenceAiGuard.reasons (fun g x => { g with reasons := x })
      (decodeSlice none decodeRaw),
    field "is_reattestation" EvidenceAiGuard.isReattestation
      (fun g x => { g with isReattestation := x }) decodeBool]

/-- {lit}`AsAiGuard`: nothing for another kind, and an error for evidence that does not
decode. -/
def asAiGuard (e : Evidence) : Except String (Option (EvidenceAiGuard float)) :=
  if e.kind ≠ "ai_guard_risk_assessed" then .ok none
  else
    match e.raw.bind (fun data => decodeStruct (evidenceAiGuardFields F) data { score := F.zero }) with
    | none => .error "fleet: evidence ai_guard"
    | some out => .ok (some out)

/-- The bucket that {lit}`matchesEvent` compares. -/
def aiGuardBucket (e : Evidence) : Option ByteString :=
  match asAiGuard F e with
  | .ok (some g) => some (utf8 g.bucket)
  | _ => none

def viewOf (e : Wire.Event) : Event :=
  { eventID := utf8 e.eventID
    ts := e.ts.instant
    hostID := utf8 e.hostID
    severity := utf8 e.severity
    kind := utf8 e.evidence.kind
    aiGuardBucket := aiGuardBucket F e.evidence }

end

def sourceKind (e : Wire.Event) : Option String :=
  e.source.bind (fun data => decodeStruct probeFields data "")

def eventKey (e : Wire.Event) : ByteString := utf8 e.eventID

/-- The events, in descending order of their distinct ids. -/
structure MockEvents where
  events : List Wire.Event
  sorted : events.Pairwise (fun a b => eventKey b < eventKey a)

/-!
## Pages
-/

section

variable {float : Type} (F : Floats float)

namespace MockEvents

def filtered (m : MockEvents) (p : EventsParams) : List Wire.Event :=
  m.events.filter (fun e => belowCursor p.cursor (viewOf F e) && matchesEvent (viewOf F e) p)

/-- {lit}`MockClient.Events`: the events of a page and its next cursor. -/
def page (m : MockEvents) (p : EventsParams) : List Wire.Event × Option ByteString :=
  cutAtLimit eventKey (m.filtered F p) p.limit

def fetch (m : MockEvents) (p : EventsParams) (_ : Nat) (cursor : ByteString) :
    List Wire.Event × Option ByteString :=
  m.page F { p with cursor := cursor }

def client (m : MockEvents) : MockClient where
  events := m.events.map (viewOf F)
  sorted := by
    rw [List.pairwise_map]
    exact m.sorted

theorem filtered_client (m : MockEvents) (p : EventsParams) :
    (m.filtered F p).map (viewOf F) = (m.client F).filtered p := by
  unfold filtered MockClient.filtered client
  rw [List.filter_map]
  rfl

theorem page_client (m : MockEvents) (p : EventsParams) :
    (m.client F).page p =
      { events := (m.page F p).1.map (viewOf F), nextCursor := (m.page F p).2 } := by
  unfold MockClient.page page cutAtLimit
  simp only [← filtered_client, List.length_map]
  by_cases hlong : (m.filtered F p).length > clampLimit p.limit
  · simp only [if_pos hlong]
    rw [← List.map_take, List.getLast?_map, Option.map_map]
    rfl
  · simp only [if_neg hlong]

/-!
## Walks
-/

section

variable {F} {m : MockEvents} {p : EventsParams}

theorem filtered_sorted : (m.filtered F p).Pairwise (fun a b => eventKey b < eventKey a) :=
  m.sorted.sublist List.filter_sublist

theorem filter_eq_drop {item : Type} {keep : item -> Bool} {k : Nat} {xs : List item}
    (hfront : forall x, x ∈ xs.take k -> keep x = false)
    (hback : forall x, x ∈ xs.drop k -> keep x = true) : xs.filter keep = xs.drop k := by
  have hnone : (xs.take k).filter keep = [] :=
    List.filter_eq_nil_iff.mpr (fun x hx => ne_true_of_eq_false (hfront x hx))
  have hall : (xs.drop k).filter keep = xs.drop k := List.filter_eq_self.mpr hback
  calc xs.filter keep = (xs.take k ++ xs.drop k).filter keep := by rw [List.take_append_drop]
    _ = xs.drop k := by rw [List.filter_append, hnone, hall, List.nil_append]

theorem below_iff {c : ByteString} (hc : c ≠ []) (e : Event) :
    belowCursor c e = true <-> e.eventID < c := by
  unfold belowCursor
  rw [decide_eq_true hc, Bool.true_and, Bool.not_eq_true', decide_eq_false_iff_not, not_le]

theorem below_trans {c : ByteString} {e x : Event} (he : belowCursor c e = true)
    (hx : x.eventID < e.eventID) : belowCursor c x = true := by
  by_cases hc : c = []
  · rw [hc]
    rfl
  · exact (below_iff hc x).mpr (lt_trans hx ((below_iff hc e).mp he))

theorem cut_descending {item : Type} {key : item -> ByteString} {xs : List item}
    (hsorted : xs.Pairwise (fun a b => key b < key a)) {k : Nat} {e : item}
    (he : (xs.take k).getLast? = some e) :
    (forall x, x ∈ xs.take k -> ¬ key x < key e) ∧ forall x, x ∈ xs.drop k -> key x < key e := by
  rw [← List.take_append_drop k xs, List.pairwise_append] at hsorted
  rcases hsorted with ⟨hfirst, _, hacross⟩
  constructor
  · rcases List.getLast?_eq_some_iff.mp he with ⟨front, hsplit⟩
    rw [hsplit, List.pairwise_append] at hfirst
    intro x hx
    rw [hsplit] at hx
    rcases List.mem_append.mp hx with hx | hx
    · exact lt_asymm (hfirst.right.right x hx e (List.mem_singleton_self e))
    · rw [List.mem_singleton.mp hx]
      exact lt_irrefl _
  · exact fun x hx => hacross e (List.mem_of_getLast? he) x hx

theorem filtered_from {e : Wire.Event} (hne : eventKey e ≠ []) (he : e ∈ m.filtered F p) :
    m.filtered F { p with cursor := eventKey e } =
      (m.filtered F p).filter (fun x => belowCursor (eventKey e) (viewOf F x)) := by
  have hbelow : belowCursor p.cursor (viewOf F e) = true :=
    ((Bool.and_eq_true _ _).mp (List.mem_filter.mp he).right).left
  unfold filtered
  rw [List.filter_filter]
  apply List.filter_congr
  intro x _
  show (belowCursor (eventKey e) (viewOf F x) && matchesEvent (viewOf F x) p) = _
  cases hx : belowCursor (eventKey e) (viewOf F x) with
  | false => rfl
  | true => rw [below_trans hbelow ((below_iff hne _).mp hx), Bool.true_and, Bool.true_and]

theorem filtered_next {k : Nat} {e : Wire.Event} (hk : k < (m.filtered F p).length)
    (he : ((m.filtered F p).take k).getLast? = some e) :
    m.filtered F { p with cursor := eventKey e } = (m.filtered F p).drop k := by
  rcases cut_descending filtered_sorted he with ⟨hfront, hback⟩
  have hne : eventKey e ≠ [] := by
    have hrest : 0 < ((m.filtered F p).drop k).length := by
      rw [List.length_drop]
      exact Nat.sub_pos_of_lt hk
    rcases List.exists_mem_of_length_pos hrest with ⟨x, hx⟩
    intro hnil
    exact List.not_lt_nil _ (hnil ▸ hback x hx)
  rw [filtered_from hne (List.mem_of_mem_take (List.mem_of_getLast? he))]
  apply filter_eq_drop
  · intro x hx
    apply Bool.eq_false_of_not_eq_true
    intro hb
    exact hfront x hx ((below_iff hne _).mp hb)
  · intro x hx
    exact (below_iff hne _).mpr (hback x hx)

theorem pages_fetch : Pages (fun c left => left = m.filtered F { p with cursor := c })
    (m.fetch F p) := by
  intro n c left hleft
  have hfetch : m.fetch F p n c = cutAtLimit eventKey left p.limit := by
    rw [hleft]
    rfl
  rw [hfetch]
  rcases cutAtLimit_cases eventKey left p.limit with ⟨_, hall⟩ | ⟨hlong, e, he, hfirst⟩
  · exact Or.inl hall
  · refine Or.inr ⟨clampLimit p.limit, eventKey e, clampLimit_pos p.limit, hlong, hfirst, ?_⟩
    subst hleft
    exact (filtered_next hlong he).symm

theorem returns_filtered : Returns (m.fetch F p) p.cursor (m.filtered F p) :=
  returns_of_pages pages_fetch rfl

end

end MockEvents

/-!
## The filters of the contract
-/

/-- Every filter that is set admits the event, as far as the code looks at it.  An event of
another kind has no bucket to compare. -/
structure SelectsApartFromSource (p : EventsParams) (e : Wire.Event) : Prop where
  since : p.since ≠ zeroTime -> p.since <= e.ts.instant
  until_ : p.until_ ≠ zeroTime -> e.ts.instant < p.until_
  hostIDs : p.hostIDs ≠ [] -> utf8 e.hostID ∈ p.hostIDs
  severity : p.severity ≠ [] -> utf8 e.severity ∈ p.severity
  evidenceKinds : p.evidenceKinds ≠ [] -> utf8 e.evidence.kind ∈ p.evidenceKinds
  minAiGuardBucket : p.minAiGuardBucket ≠ [] -> e.evidence.kind = "ai_guard_risk_assessed" ->
    exists g, asAiGuard F e.evidence = .ok (some g) ∧
      bucketAtLeast (utf8 g.bucket) p.minAiGuardBucket = true

/-- The filter that the code leaves out. -/
def SelectsSource (p : EventsParams) (e : Wire.Event) : Prop :=
  p.source ≠ [] -> exists kind, sourceKind e = some kind ∧ utf8 kind ∈ p.source

/-- The event passes every filter of the contract. -/
def Selects (p : EventsParams) (e : Wire.Event) : Prop :=
  SelectsApartFromSource F p e ∧ SelectsSource p e

theorem guard_iff {c : Prop} [Decidable c] {b : Bool} :
    (if c then false else b) = true <-> ¬ c ∧ b = true := by
  by_cases hc : c
  · rw [if_pos hc]
    exact iff_of_false Bool.false_ne_true (fun h => h.left hc)
  · rw [if_neg hc]
    exact (and_iff_right hc).symm

theorem inList_iff {xs : List ByteString} {x : ByteString} :
    inList xs x = true <-> (xs ≠ [] -> x ∈ xs) := by
  unfold inList containsString
  cases xs with
  | nil => exact iff_of_true rfl (fun h => absurd rfl h)
  | cons y rest =>
      have hpos : 0 < (y :: rest).length := Nat.succ_pos rest.length
      rw [decide_eq_true hpos, Bool.not_true, Bool.false_or, List.any_eq_true]
      constructor
      · rintro ⟨z, hz, heq⟩ _
        exact of_decide_eq_true heq ▸ hz
      · intro h
        exact ⟨x, h (List.cons_ne_nil y rest), decide_eq_true rfl⟩

theorem kind_view_iff (e : Wire.Event) : (viewOf F e).kind = bytesOf "ai_guard_risk_assessed" <->
    e.evidence.kind = "ai_guard_risk_assessed" := by
  have hascii : Ascii "ai_guard_risk_assessed" := ascii_of_all (by decide +kernel)
  show utf8 e.evidence.kind = _ <-> _
  rw [← utf8_ascii hascii]
  exact ⟨utf8_injective, congrArg utf8⟩

theorem matchesBucket_iff (e : Wire.Event) (min_ : ByteString) :
    matchesBucket (viewOf F e) min_ = true <->
      (min_ ≠ [] -> e.evidence.kind = "ai_guard_risk_assessed" ->
        exists g, asAiGuard F e.evidence = .ok (some g) ∧
          bucketAtLeast (utf8 g.bucket) min_ = true) := by
  unfold matchesBucket
  by_cases hcond : min_ ≠ [] ∧ (viewOf F e).kind = bytesOf "ai_guard_risk_assessed"
  · have hkind := (kind_view_iff F e).mp hcond.right
    rw [if_pos hcond]
    constructor
    · intro h _ _
      split at h
      · cases h
      · rename_i bucket hbucket
        have hread : aiGuardBucket F e.evidence = some bucket := hbucket
        unfold aiGuardBucket at hread
        split at hread
        · rename_i g hg
          cases hread
          exact ⟨g, hg, h⟩
        · cases hread
    · intro h
      rcases h hcond.left hkind with ⟨g, hg, hleast⟩
      have hread : (viewOf F e).aiGuardBucket = some (utf8 g.bucket) := by
        show aiGuardBucket F e.evidence = some (utf8 g.bucket)
        unfold aiGuardBucket
        rw [hg]
      rw [hread]
      exact hleast
  · rw [if_neg hcond]
    refine iff_of_true rfl (fun hmin hkind => absurd ⟨hmin, (kind_view_iff F e).mpr hkind⟩ hcond)

theorem matchesEvent_iff (p : EventsParams) (e : Wire.Event) :
    matchesEvent (viewOf F e) p = true <-> SelectsApartFromSource F p e := by
  unfold matchesEvent
  rw [guard_iff, guard_iff, guard_iff, guard_iff, guard_iff, matchesBucket_iff]
  simp only [Bool.not_eq_true', Bool.not_eq_false, inList_iff, not_and, not_lt, not_le]
  constructor
  · rintro ⟨hsince, huntil, hhosts, hseverity, hkinds, hbucket⟩
    exact ⟨hsince, huntil, hhosts, hseverity, hkinds, hbucket⟩
  · rintro ⟨hsince, huntil, hhosts, hseverity, hkinds, hbucket⟩
    exact ⟨hsince, huntil, hhosts, hseverity, hkinds, hbucket⟩

/-!
## What a walk returns
-/

/-- The events of a walk are those that pass every filter of the contract, each once. -/
def WalkSelects (m : MockEvents) (p : EventsParams) : Prop :=
  exists events, Returns (m.fetch F p) p.cursor events ∧ events.Nodup ∧
    forall e, e ∈ events <->
      e ∈ m.events ∧ belowCursor p.cursor (viewOf F e) = true ∧ Selects F p e

theorem mem_filtered_iff (m : MockEvents) (p : EventsParams) (e : Wire.Event) :
    e ∈ m.filtered F p <-> e ∈ m.events ∧ belowCursor p.cursor (viewOf F e) = true ∧
      SelectsApartFromSource F p e := by
  unfold MockEvents.filtered
  rw [List.mem_filter, Bool.and_eq_true, matchesEvent_iff]

theorem filtered_nodup (m : MockEvents) (p : EventsParams) : (m.filtered F p).Nodup := by
  apply MockEvents.filtered_sorted.imp
  intro a b hlt heq
  rw [heq] at hlt
  exact lt_irrefl _ hlt

/-- A walk keeps to the contract exactly when the events that pass the other filters have a
source that was asked for. -/
theorem walk_selects_iff (m : MockEvents) (p : EventsParams) :
    WalkSelects F m p <-> forall e, e ∈ m.events -> belowCursor p.cursor (viewOf F e) = true ->
      SelectsApartFromSource F p e -> SelectsSource p e := by
  constructor
  · rintro ⟨events, hreturns, _, hevents⟩ e he hbelow hrest
    rw [hreturns.unique MockEvents.returns_filtered] at hevents
    have hmem := (mem_filtered_iff F m p e).mpr ⟨he, hbelow, hrest⟩
    exact ((hevents e).mp hmem).right.right.right
  · intro hsource
    refine ⟨m.filtered F p, MockEvents.returns_filtered, filtered_nodup F m p, ?_⟩
    intro e
    rw [mem_filtered_iff]
    constructor
    · rintro ⟨he, hbelow, hrest⟩
      exact ⟨he, hbelow, hrest, hsource e he hbelow hrest⟩
    · rintro ⟨he, hbelow, hrest, _⟩
      exact ⟨he, hbelow, hrest⟩

end

def noFloats : Floats Int := { zero := 0, parse := fun _ => none, format := fun _ => "0" }

def agentEvents : MockEvents where
  events := [{ eventID := "e1", severity := "info"
               source := some (.object [(quote "kind".toList, encodeString "agent")]) }]
  sorted := List.pairwise_singleton _ _

def fromFileSystem : EventsParams :=
  { cursor := [], limit := 0, hostIDs := [], since := zeroTime, until_ := zeroTime
    evidenceKinds := [], severity := [], source := [bytesOf "file_system"], minAiGuardBucket := [] }

/-- Events of the file system were asked for, and the walk returns the one of the agent. -/
theorem not_walk_selects :
    ¬ forall (m : MockEvents) (p : EventsParams), WalkSelects noFloats m p := by
  intro h
  rcases h agentEvents fromFileSystem with ⟨events, hreturns, _, hevents⟩
  have hall : agentEvents.filtered noFloats fromFileSystem = agentEvents.events := rfl
  have hmem : agentEvents.events.head (List.cons_ne_nil _ _) ∈ events := by
    rw [hreturns.unique MockEvents.returns_filtered, hall]
    exact List.head_mem _
  rcases ((hevents _).mp hmem).right.right.right (List.cons_ne_nil _ _) with ⟨kind, hkind, hin⟩
  have hagent : kind = "agent" := (Option.some.inj hkind).symm
  rw [hagent] at hin
  exact absurd hin (by decide +kernel)

end Fleet
end LodelineManager
