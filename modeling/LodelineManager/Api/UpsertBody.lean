import LodelineManager.Api.Triage
import LodelineManager.Go.JSONText
import LodelineManager.Go.JSONTypes
import LodelineManager.Triage.PartialUpdate

/-!
# The bodies of upsert requests

From the JSON of a request body to the evidence that a row keeps.  The evidence is a
raw message: it keeps the bytes of the last member of its name, whatever they spell,
and the store asks no more of them than that there are some.
-/

namespace LodelineManager
namespace Api

open Foundation SingleConnection Triage Go JSON

/-!
## Decoding
-/

/-- The first JSON value of a body, with the bytes at which its members stand. -/
structure Body where
  doc : Document
  source : Document -> Triage.RawMessage
  spelled : forall name v, (name, v) ∈ doc.members -> Spells (source v) v

/-- The fields of {lit}`upsertRequest`. -/
def upsertRequestFields (source : Document -> Triage.RawMessage) :
    List (Field Text UpsertRequest) :=
  [field "host_id" UpsertRequest.hostID (fun r x => { r with hostID := x }) decodeString,
    field "event_id" UpsertRequest.eventID (fun r x => { r with eventID := x }) decodeString,
    field "status" (fun r => r.status.text) (fun r x => { r with status := ⟨x⟩ }) decodeString,
    field "assignee" UpsertRequest.assignee (fun r x => { r with assignee := x })
      (decodePtr "" decodeString),
    field "clear_assignee" UpsertRequest.clearAssignee (fun r x => { r with clearAssignee := x })
      decodeBool,
    field "evidence_snapshot" UpsertRequest.evidenceSnapshot
      (fun r x => { r with evidenceSnapshot := x }) (fun v _ => some (source v))]

def zeroUpsertRequest : UpsertRequest :=
  { hostID := "", eventID := "", status := noStatus, assignee := none, clearAssignee := false,
    evidenceSnapshot := [] }

def Body.upsertRequest (b : Body) : Option UpsertRequest :=
  decodeStruct (upsertRequestFields b.source) b.doc zeroUpsertRequest

def Body.evidence (b : Body) : Option Document :=
  (b.doc.named (fun t => takesName "evidence_snapshot" (units t))).getLast?

theorem reads_evidence (source : Document -> Triage.RawMessage) :
    Reads (upsertRequestFields source) "evidence_snapshot" UpsertRequest.evidenceSnapshot
      (fun v _ => some (source v)) where
  names := by
    show (["host_id", "event_id", "status", "assignee", "clear_assignee",
      "evidence_snapshot"].map (fun n => foldName n.toList)).Nodup
    decide +kernel
  own := by
    refine ⟨field "evidence_snapshot" UpsertRequest.evidenceSnapshot
      (fun r x => { r with evidenceSnapshot := x }) (fun v _ => some (source v)),
      List.mem_of_getLast? rfl, rfl, ?_⟩
    intro v r r' h
    refine field_own ?_ v r r' h
    intro _ _
    rfl
  others := by
    intro f hf hne v r r' h
    unfold upsertRequestFields at hf
    simp only [List.mem_cons, List.not_mem_nil, or_false] at hf
    rcases hf with rfl | rfl | rfl | rfl | rfl | rfl
    case inr.inr.inr.inr.inr => exact absurd rfl hne
    all_goals
      refine field_other ?_ v r r' h
      intro _ _
      rfl

theorem upsertRequest_evidence {b : Body} {req : UpsertRequest}
    (h : b.upsertRequest = some req) :
    req.evidenceSnapshot = (b.evidence.map b.source).getD [] := by
  have hall := (reads_evidence b.source).decodeStruct h
  unfold Body.evidence
  generalize b.doc.named (fun t => takesName "evidence_snapshot" (units t)) = vs at hall ⊢
  have hlast : forall (vs : List Document) (old new : Triage.RawMessage),
      readAll (fun v _ => some (b.source v)) vs old = some new ->
        new = (vs.getLast?.map b.source).getD old := by
    intro vs
    induction vs with
    | nil =>
        intro old new hread
        exact (Option.some.inj hread).symm
    | cons v rest ih =>
        intro old new hread
        have hrest := ih (b.source v) new hread
        rw [hrest, List.getLast?_cons]
        cases rest.getLast? with
        | none => rfl
        | some w => rfl
  exact hlast vs _ _ hall

theorem Body.evidence_spelled {b : Body} {v : Document} (h : b.evidence = some v) :
    Spells (b.source v) v := by
  have hmem := List.mem_of_getLast? h
  unfold Json.named at hmem
  rcases List.mem_map.mp hmem with ⟨m, hm, hv⟩
  have hmember := (List.mem_filter.mp hm).left
  rw [<- hv]
  exact b.spelled m.1 m.2 hmember

/-!
## Requests and the rows they leave
-/

/-- A request as the handler meets it: the clock, the analyst of the session, the body (no
JSON decodes to nothing) and the failures of the database. -/
structure Posted where
  now : Int
  subject : String
  body : Option Body
  faults : Nat -> Option SqlErr

def postUpsert (fk : Bool) (d : Db) (p : Posted) : Except ErrorResponse Reply × Conn Db :=
  match handleTriageUpsert p.now p.subject (p.body.bind Body.upsertRequest) with
  | .error e => (.error e, ⟨d, none⟩)
  | .ok call =>
      let out := call.prog.run (engine fk) p.faults ⟨d, none⟩
      (out.1.mapError mapTriageErr, out.2)

def postStep (fk : Bool) (c : Conn Db) (p : Posted) : Option (Conn Db) :=
  some (postUpsert fk c.committed p).2

/-- The body gives {lit}`null` for the evidence. -/
def Posted.NullEvidence (p : Posted) : Prop :=
  exists b v, p.body = some b ∧ b.evidence = some v ∧ v.isNull = true

/-- The request gives {lit}`null` for the evidence of a row that is not there yet. -/
def Posted.OpensWithNull (p : Posted) (d : Db) : Prop :=
  p.NullEvidence ∧ exists b inp, p.body = some b ∧
    handleTriageUpsert p.now p.subject b.upsertRequest = .ok (.upsert p.now inp) ∧
    d.triage.find? inp.key = none

/-- The bytes are a JSON value, and not {lit}`null`. -/
def HoldsJSON (bytes : Triage.RawMessage) : Prop :=
  exists v, Spells bytes v ∧ v.isNull = false

theorem handleTriageUpsert_evidence {now : Int} {subject : String} {req : UpsertRequest}
    {call : WriteCall} (h : handleTriageUpsert now subject (some req) = .ok call) :
    exists inp, call = .upsert now inp ∧ inp.evidenceSnapshot = req.evidenceSnapshot := by
  unfold handleTriageUpsert at h
  simp only at h
  split at h
  · cases h
  · split at h
    · cases h
    · cases h
      exact ⟨_, rfl, rfl⟩

theorem holdsJSON_of_body {b : Body} {req : UpsertRequest} (hreq : b.upsertRequest = some req)
    (hgiven : req.evidenceSnapshot ≠ [])
    (hnull : forall v, b.evidence = some v -> v.isNull = false) :
    HoldsJSON req.evidenceSnapshot := by
  have hevidence := upsertRequest_evidence hreq
  cases hmember : b.evidence with
  | none =>
      rw [hmember] at hevidence
      exact absurd hevidence hgiven
  | some v =>
      rw [hmember] at hevidence
      rw [hevidence]
      exact ⟨v, b.evidence_spelled hmember, hnull v hmember⟩

theorem partiallyUpdated_evidence {P : Triage.RawMessage -> Prop} {now : Int} {inp : UpsertInput}
    {d d' : Db} {row : Row} (h : PartiallyUpdated now inp d row d')
    (hd : forall r, r ∈ d.triage.rows -> P r.evidenceSnapshot)
    (hnew : d.triage.find? inp.key = none -> P inp.evidenceSnapshot) :
    forall r, r ∈ d'.triage.rows -> P r.evidenceSnapshot := by
  intro r hr
  have hfind := KeyedTable.find?_eq_some_iff.mpr ⟨hr, rfl⟩
  by_cases hkey : r.key = inp.key
  · rcases h.stored with ⟨r', hfind', _, _, _, hevidence⟩
    rw [hkey, hfind'] at hfind
    cases hfind
    rw [hevidence]
    cases hold : d.triage.find? inp.key with
    | none => exact hnew hold
    | some old => exact hd old (KeyedTable.find?_eq_some_iff.mp hold).left
  · rw [h.others r.key hkey] at hfind
    exact hd r (KeyedTable.find?_eq_some_iff.mp hfind).left

/-- One request keeps every row's evidence a JSON value, unless it opens a row with
{lit}`null`. -/
theorem postUpsert_holdsJSON {fk : Bool} {d : Db} {p : Posted}
    (hd : forall r, r ∈ d.triage.rows -> HoldsJSON r.evidenceSnapshot)
    (hnull : ¬ p.OpensWithNull d) :
    forall r, r ∈ (postUpsert fk d p).2.committed.triage.rows ->
      HoldsJSON r.evidenceSnapshot := by
  unfold postUpsert
  cases hbody : p.body with
  | none => exact hd
  | some b =>
      cases hreq : b.upsertRequest with
      | none =>
          rw [Option.bind_some, hreq]
          exact hd
      | some req =>
          rw [Option.bind_some, hreq]
          cases hcall : handleTriageUpsert p.now p.subject (some req) with
          | error e => exact hd
          | ok call =>
              rcases handleTriageUpsert_evidence hcall with ⟨inp, rfl, hevidence⟩
              have hserve : serve fk ⟨d, none⟩ { call := .upsert p.now inp, faults := p.faults } =
                  some ((WriteCall.upsert p.now inp).prog.run (engine fk) p.faults ⟨d, none⟩).2 :=
                rfl
              rcases (serve_upsert hserve).right with hsame | ⟨hrefused, row, hupdated⟩
              · intro r hr
                apply hd
                rw [<- hsame]
                exact hr
              · apply partiallyUpdated_evidence hupdated hd
                intro hnone
                have hgiven : req.evidenceSnapshot ≠ [] := by
                  intro hempty
                  apply hrefused
                  rw [hnone]
                  exact Or.inr (Or.inr (Or.inr (Or.inr ⟨rfl, hevidence.trans hempty⟩)))
                rw [hevidence]
                apply holdsJSON_of_body hreq hgiven
                intro v hv
                apply Bool.eq_false_of_not_eq_true
                intro hn
                exact hnull ⟨⟨b, v, hbody, hv, hn⟩, b, inp, hbody, hreq ▸ hcall, hnone⟩

theorem postUpsert_eq {fk : Bool} {d : Db} {p : Posted} {b : Body} {inp : UpsertInput}
    (hbody : p.body = some b)
    (hcall : handleTriageUpsert p.now p.subject b.upsertRequest = .ok (.upsert p.now inp)) :
    postUpsert fk d p =
      (((WriteCall.upsert p.now inp).prog.run (engine fk) p.faults ⟨d, none⟩).1.mapError
          mapTriageErr,
        ((WriteCall.upsert p.now inp).prog.run (engine fk) p.faults ⟨d, none⟩).2) := by
  unfold postUpsert
  rw [hbody, Option.bind_some, hcall]

theorem evidence_of_call {now : Int} {subject : String} {b : Body} {inp : UpsertInput}
    (hcall : handleTriageUpsert now subject b.upsertRequest = .ok (.upsert now inp)) :
    inp.evidenceSnapshot = (b.evidence.map b.source).getD [] := by
  cases hreq : b.upsertRequest with
  | none =>
      rw [hreq] at hcall
      cases hcall
  | some req =>
      rw [hreq] at hcall
      rcases handleTriageUpsert_evidence hcall with ⟨inp', heq, hevidence⟩
      cases heq
      rw [hevidence, upsertRequest_evidence hreq]

theorem postUpsert_absent {fk : Bool} {d : Db} {p : Posted} {b : Body} {inp : UpsertInput}
    (hbody : p.body = some b)
    (hcall : handleTriageUpsert p.now p.subject b.upsertRequest = .ok (.upsert p.now inp))
    (hnone : d.triage.find? inp.key = none) (habsent : b.evidence = none) :
    (exists e, (postUpsert fk d p).1 = .error e) ∧ (postUpsert fk d p).2 = ⟨d, none⟩ := by
  have hevidence := evidence_of_call hcall
  rw [habsent] at hevidence
  have hrefused : inp.Refused ((d.triage.find? inp.key).map scanRow) := by
    rw [hnone]
    exact Or.inr (Or.inr (Or.inr (Or.inr ⟨rfl, hevidence⟩)))
  rcases @refused_run fk p.now inp d hrefused p.faults with ⟨⟨e, he⟩, hsame⟩
  rw [postUpsert_eq hbody hcall, he]
  exact ⟨⟨mapTriageErr e, rfl⟩, hsame⟩

theorem postUpsert_given {fk : Bool} {d : Db} {p : Posted} {b : Body} {inp : UpsertInput}
    {v : Document} (hbody : p.body = some b)
    (hcall : handleTriageUpsert p.now p.subject b.upsertRequest = .ok (.upsert p.now inp))
    (hcheck : upsertCheck inp = none) (hfaults : p.faults = Prog.noFaults)
    (hgiven : b.evidence = some v) :
    exists a, (postUpsert fk d p).1 = .ok a := by
  have hevidence := evidence_of_call hcall
  rw [hgiven] at hevidence
  have hnonempty : inp.evidenceSnapshot ≠ [] := by
    rcases (b.evidence_spelled hgiven).head with ⟨first, rest, hbytes, _⟩
    rw [hevidence, Option.map_some, Option.getD_some, hbytes]
    exact List.cons_ne_nil first rest
  have haccepted : ¬ inp.Refused ((d.triage.find? inp.key).map scanRow) := by
    have hfields := (upsertCheck_eq_none_iff inp).mp hcheck
    unfold UpsertInput.Refused
    tauto
  rcases @upsert_accepted fk p.now inp d haccepted with ⟨row, d', hrun⟩
  rw [postUpsert_eq hbody hcall, hfaults, WriteCall.prog, Prog.run_map, hrun]
  exact ⟨.row row, rfl⟩

theorem run_holdsJSON {fk : Bool} {posts : List Posted} {c c' : Conn Db}
    (hrun : runSteps (postStep fk) c posts = some c')
    (hposts : EveryStep (postStep fk) (fun c p _ => ¬ p.OpensWithNull c.committed) c posts)
    (hc : forall r, r ∈ c.committed.triage.rows -> HoldsJSON r.evidenceSnapshot) :
    forall r, r ∈ c'.committed.triage.rows -> HoldsJSON r.evidenceSnapshot := by
  have hstep : forall (mid : Conn Db) (p : Posted) (after : Conn Db),
      ¬ p.OpensWithNull mid.committed ->
      (forall r, r ∈ mid.committed.triage.rows -> HoldsJSON r.evidenceSnapshot) ->
      postStep fk mid p = some after ->
      forall r, r ∈ after.committed.triage.rows -> HoldsJSON r.evidenceSnapshot := by
    intro mid p after hnull hmid hafter
    cases hafter
    exact postUpsert_holdsJSON hmid hnull
  exact run_invariant_every hstep hposts hc hrun

/-- As long as no request gives {lit}`null` for the evidence of a new row, every row that
requests leave behind holds a JSON value other than {lit}`null`; and a first upsert whose
evidence is absent or {lit}`null` is rejected and leaves nothing exactly when it is not
{lit}`null`. -/
theorem snapshots_outlive_events (fk : Bool) :
    (forall posts c, runSteps (postStep fk) ⟨Db.empty, none⟩ posts = some c ->
        EveryStep (postStep fk) (fun c p _ => ¬ p.OpensWithNull c.committed)
          ⟨Db.empty, none⟩ posts ->
        forall r, r ∈ c.committed.triage.rows -> HoldsJSON r.evidenceSnapshot) ∧
      forall d p b inp, p.body = some b ->
        handleTriageUpsert p.now p.subject b.upsertRequest = .ok (.upsert p.now inp) ->
        upsertCheck inp = none -> p.faults = Prog.noFaults ->
        d.triage.find? inp.key = none ->
        (forall v, b.evidence = some v -> v.isNull = true) ->
        ((exists e, (postUpsert fk d p).1 = .error e) ∧ (postUpsert fk d p).2 = ⟨d, none⟩ <->
          ¬ p.NullEvidence) := by
  constructor
  · intro posts c hrun hposts
    exact run_holdsJSON hrun hposts (fun r hr => by cases hr)
  · intro d p b inp hbody hcall hcheck hfaults hnone hnull
    constructor
    · intro hrejected hgives
      rcases hgives with ⟨b', v, hbody', hv, _⟩
      rw [hbody] at hbody'
      cases hbody'
      rcases @postUpsert_given fk d p b inp v hbody hcall hcheck hfaults hv with ⟨a, ha⟩
      rcases hrejected.left with ⟨e, he⟩
      rw [ha] at he
      cases he
    · intro hgives
      cases hmember : b.evidence with
      | none => exact postUpsert_absent hbody hcall hnone hmember
      | some v => exact absurd ⟨b, v, hbody, hmember, hnull v hmember⟩ hgives

/-!
## Two bodies
-/

def plainBytes (t : Text) : List UInt8 :=
  t.flatMap (fun part =>
    match part with
    | .char c _ => String.utf8EncodeChar c
    | _ => [])

/-- A body for the alert {lit}`e` of the host {lit}`h` with some evidence that is no string. -/
def alertBody (evidence : Document) (bytes : List UInt8) (h : Spells bytes evidence)
    (hstring : forall t, evidence ≠ .string t) : Body where
  doc := .object [(quote "host_id".toList, .string (quote ['h'])),
    (quote "event_id".toList, .string (quote ['e'])),
    (quote "evidence_snapshot".toList, evidence)]
  source := fun v =>
    match v with
    | .string t => 0x22 :: plainBytes t ++ [0x22]
    | _ => bytes
  spelled := by
    intro name v hv
    have hletter : forall (c : Char) (hc : plain c = true),
        SpellsText (plainBytes [.char c hc]) [.char c hc] := by
      intro c hc
      exact SpellsText.cons (SpellsPart.char c hc) SpellsText.nil
    simp only [Json.members, List.mem_cons, Prod.mk.injEq, List.not_mem_nil, or_false] at hv
    rcases hv with ⟨_, rfl⟩ | ⟨_, rfl⟩ | ⟨_, rfl⟩
    · exact Spells.string (hletter 'h' (by decide))
    · exact Spells.string (hletter 'e' (by decide))
    · cases v with
      | string t => exact absurd rfl (hstring t)
      | _ => exact h

/-- An alert with an empty object for its evidence. -/
theorem snapshots_outlive_events_opened :
    let p : Posted :=
      { now := 0, subject := "ana",
        body := some (alertBody (.object []) [0x7B, 0x7D]
          (@Spells.emptyObject [] (fun _ hb => by cases hb)) (fun _ h => by cases h)),
        faults := Prog.noFaults }
    forall r, r ∈ (postUpsert true Db.empty p).2.committed.triage.rows ->
      HoldsJSON r.evidenceSnapshot := by
  intro p
  have hgiven : ¬ p.NullEvidence := by
    intro h
    rcases h with ⟨b, v, hb, hv, hnull⟩
    cases hb
    have hevidence : some (Json.object []) = some v := hv
    cases hevidence
    cases hnull
  apply (snapshots_outlive_events true).left [p] _ rfl
  exact ⟨fun h => hgiven h.left, trivial⟩

/-- A first upsert that gives {lit}`null` for the evidence is stored, with the four bytes
{lit}`null`, which are no other JSON value. -/
theorem null_evidence_stored :
    let p : Posted :=
      { now := 0, subject := "ana",
        body := some (alertBody .null (spelling "null".toList) Spells.null
          (fun _ h => by cases h)),
        faults := Prog.noFaults }
    ((postUpsert true Db.empty p).2.committed.triage.find? ("h", "e")).map
        SqlRow.evidenceSnapshot = some [0x6E, 0x75, 0x6C, 0x6C] ∧
      ¬ HoldsJSON [0x6E, 0x75, 0x6C, 0x6C] := by
  intro p
  refine ⟨by decide +kernel, ?_⟩
  intro h
  rcases h with ⟨v, hv, hnull⟩
  have heq := hv.isNull_eq Spells.null
  rw [hnull] at heq
  cases heq

end Api
end LodelineManager
