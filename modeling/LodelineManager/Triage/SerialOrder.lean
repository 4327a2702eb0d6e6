import LodelineManager.Triage.Exec

/-!
# Concurrent writes

The store opens its database with one connection.  However the statements of
concurrent upserts and notes interleave, and whichever of them fail, the tables
end up as if the successful calls had run one after the other; and a status
change and an assignment of the same row may run in either order.
-/

namespace LodelineManager
namespace Triage

open Foundation SingleConnection Go

/-!
## A note's lookup stays true

A note reads the row outside any transaction and inserts later.  Rows are never
deleted, so what it saw still holds when it inserts.
-/

theorem Upserted.present {now : Int} {inp : UpsertInput} {d d' : Db} {row : Row}
    {key : String × String} (h : Upserted now inp d row d')
    (hex : exists r, d.triage.find? key = some r) :
    exists r, d'.triage.find? key = some r := by
  rcases hex with ⟨r, hr⟩
  by_cases hk : key = inp.key
  · rw [hk] at hr ⊢
    rcases h.of_present hr with ⟨_, hvalid, hfind⟩
    exact ⟨_, hfind⟩
  · exact ⟨r, (h.find?_other hk).trans hr⟩

theorem WriteCall.Effect.present {d d' : Db} {w : WriteCall} {a : Reply}
    {key : String × String} (h : w.Effect d a d')
    (hex : exists r, d.triage.find? key = some r) :
    exists r, d'.triage.find? key = some r := by
  cases h with
  | upsert hup => exact hup.present hex
  | appendNote hfind => exact hex

theorem not_readOnly_insertNote (fk : Bool) (hostID eventID author body at_ : String) :
    ¬ ReadOnly (engine fk) (.insertNote hostID eventID author body at_) := by
  intro h
  -- a database that holds the row, so that the foreign key does not refuse the note
  let row : SqlRow :=
    { hostID := hostID, eventID := eventID, status := statusOpen, statusCheck := by decide,
      assignee := none, evidenceSnapshot := [], createdAt := "", updatedAt := "" }
  let table : KeyedTable SqlRow.key := { rows := [row], pk := List.nodup_singleton _ }
  let db : Db := { Db.empty with triage := table }
  have hfind : db.triage.find? (hostID, eventID) = some row :=
    KeyedTable.find?_eq_some_iff.mpr ⟨List.mem_singleton.mpr rfl, rfl⟩
  have happly : (engine fk).apply (.insertNote hostID eventID author body at_) db =
      .ok (db.noteSeq + 1, db.insertNote hostID eventID author body at_) := by
    simp [engine, execStmt, hfind]
  have hsame := congrArg Db.noteSeq (h db _ _ happly)
  exact Nat.succ_ne_self 0 hsame

theorem readTo_upsert {fk : Bool} {now : Int} {inp : UpsertInput} {p : Call Reply}
    (h : ReadTo (engine fk) (WriteCall.upsert now inp).prog p) :
    p = (WriteCall.upsert now inp).prog := by
  rcases h.head with heq | ⟨o, k, r, hp, _, _⟩
  · exact heq
  · rw [WriteCall.prog, upsert] at hp
    cases hcheck : upsertCheck inp with
    | some e =>
        rw [hcheck] at hp
        cases hp
    | none =>
        rw [hcheck] at hp
        cases hp

def noteInsert (now : Int) (hostID eventID author body : String) : Call Reply :=
  .auto (.insertNote hostID eventID author body (formatTS now)) (fun done =>
    (match done with
    | .error e => .ret (.error (.database "triage: insert note" e))
    | .ok id =>
        .ret (.ok { id := id, hostID := hostID, eventID := eventID, author := author,
                    body := body, createdAt := now }) : Call Note).map (Except.map Reply.note))

theorem readTo_appendNote {fk : Bool} {now : Int} {hostID eventID author body : String}
    {p : Call Reply} (hlive : ¬ Doomed Succeeded p)
    (h : ReadTo (engine fk) (WriteCall.appendNote now hostID eventID author body).prog p) :
    p = (WriteCall.appendNote now hostID eventID author body).prog ∨
      (p = noteInsert now hostID eventID author body ∧
        ¬ (hostID = "" || eventID = "" || author = "" || body = "") = true) := by
  rcases h.head with heq | ⟨o, k, r, hp, _, hrest⟩
  · exact Or.inl heq
  · apply Or.inr
    rw [WriteCall.prog, appendNote] at hp
    split at hp
    · cases hp
    · rename_i hfields
      refine ⟨?_, hfields⟩
      cases hp
      cases r with
      | none =>
          rcases hrest.head with heq | ⟨_, _, _, hp, _, _⟩
          · rw [heq] at hlive
            exact absurd (doomed_error _) hlive
          · cases hp
      | some r =>
          rcases hrest.head with heq | ⟨_, _, _, hp, hro, _⟩
          · exact heq
          · cases hp
            exact absurd hro (not_readOnly_insertNote fk hostID eventID author body _)

theorem appendNote_run_present {fk : Bool} {now : Int} {hostID eventID author body : String}
    {d : Db} (hfields : ¬ (hostID = "" || eventID = "" || author = "" || body = "") = true)
    (hex : exists r, d.triage.find? (hostID, eventID) = some r) :
    (WriteCall.appendNote now hostID eventID author body).prog.run (engine fk) Prog.noFaults
        ⟨d, none⟩ =
      (noteInsert now hostID eventID author body).run (engine fk) Prog.noFaults ⟨d, none⟩ := by
  rcases hex with ⟨r, hr⟩
  rw [WriteCall.prog, appendNote, if_neg hfields]
  simp only [getRow, Prog.map, Prog.run, Engine.answer, Prog.noFaults_zero,
    Prog.noFaults_tail, engine, execStmt, hr, scanned, noteInsert, Option.isNone_some,
    Bool.and_false]

theorem present_of_noteInsert_run {fk : Bool} {now : Int}
    {hostID eventID author body : String} {d : Db}
    (hfields : ¬ (hostID = "" || eventID = "" || author = "" || body = "") = true)
    (hsame : (noteInsert now hostID eventID author body).run (engine fk) Prog.noFaults
        ⟨d, none⟩ =
      (WriteCall.appendNote now hostID eventID author body).prog.run (engine fk) Prog.noFaults
        ⟨d, none⟩) :
    exists r, d.triage.find? (hostID, eventID) = some r := by
  cases hfind : d.triage.find? (hostID, eventID) with
  | some r => exact ⟨r, rfl⟩
  | none =>
      rw [WriteCall.prog, appendNote, if_neg hfields] at hsame
      cases fk <;>
        simp [noteInsert, getRow, Prog.map, Prog.run, Engine.answer, engine, execStmt, hfind,
          scanned, Except.map] at hsame

theorem stable_writes {ident : Type} (fk : Bool) (calls : ident -> WriteCall) :
    Stable Succeeded (engine fk) (fun t => (calls t).prog) := by
  intro t u p d a d' hread hlive hsame hrun hgood
  change ReadTo (engine fk) (calls t).prog p at hread
  change p.run _ _ _ = (calls t).prog.run _ _ _ at hsame
  show p.run _ _ _ = (calls t).prog.run _ _ _
  cases hcall : calls t with
  | upsert now inp =>
      rw [hcall] at hread
      rw [readTo_upsert hread]
  | appendNote now hostID eventID author body =>
      rw [hcall] at hread hsame
      rcases readTo_appendNote hlive hread with hstart | ⟨hinsert, hfields⟩
      · rw [hstart]
      · rw [hinsert] at hsame ⊢
        rcases hgood with ⟨b, hb⟩
        rw [hb] at hrun
        have heff := (prog_ok hrun).left
        exact (appendNote_run_present hfields
          (heff.present (present_of_noteInsert_run hfields hsame))).symm

/-- The tables after the calls that have taken effect are those of a serial run of
calls, each of which succeeds; a call that has returned is among them exactly
when it succeeded. -/
def SerialOutcome {ident : Type} (fk : Bool) (calls : ident -> WriteCall) (d0 : Db)
    (s : System Db Stmt Stmt.Res SqlErr (Except Err Reply) ident) : Prop :=
  exists order : List (ident × Except Err Reply),
    (order.map Prod.fst).Nodup ∧
    Serial (engine fk) (fun t => (calls t).prog) d0 order s.committed ∧
    (forall t a, (t, a) ∈ order -> Succeeded a) ∧
    forall t a, s.progs t = .ret a -> ((t, a) ∈ order <-> Succeeded a)

theorem serialOutcome_run {ident : Type} [DecidableEq ident] {fk : Bool}
    {calls : ident -> WriteCall} {d0 : Db} {events : List (Event SqlErr ident)}
    {s : System Db Stmt Stmt.Res SqlErr (Except Err Reply) ident}
    (hrun : runSteps (System.step (engine fk))
      (System.start d0 (fun t => (calls t).prog)) events = some s) :
    SerialOutcome fk calls d0 s := by
  rcases serialized_run (stable_writes fk calls) (fun t => callShape_prog fk (calls t)) hrun
    with ⟨order, hs⟩
  refine ⟨order, hs.nodup, hs.serial, fun t a ha => hs.good_of_mem ha, ?_⟩
  intro t a hret
  rw [hs.mem_iff hret]
  exact ⟨fun h => h.right, fun h => ⟨rfl, h⟩⟩

/-!
## A status change and an assignment
-/

/-- Sets the status and nothing else. -/
structure StatusOnly (inp : UpsertInput) : Prop where
  status : inp.status ≠ noStatus
  assignee : inp.assignee = none
  clearAssignee : inp.clearAssignee = false

/-- Sets or clears the assignee and nothing else. -/
structure AssigneeOnly (inp : UpsertInput) : Prop where
  status : inp.status = noStatus
  assignee : inp.clearAssignee = true ∨ inp.assignee.isSome = true

def assigned (inp : UpsertInput) : Option String :=
  if inp.clearAssignee then none else inp.assignee

def settled (r : SqlRow) : Status × Option String × RawMessage × String :=
  (r.status, r.assignee, r.evidenceSnapshot, r.createdAt)

theorem settled_set (r : SqlRow) (status : Status) (h : status.isValid = true)
    (assignee : Option String) (at_ : String) :
    settled (r.set status h assignee at_) =
      (status, assignee, r.evidenceSnapshot, r.createdAt) := rfl

theorem settled_statusOnly {now : Int} {inp : UpsertInput} (hinp : StatusOnly inp) (r : SqlRow)
    (h : (updatedRow now (scanRow r) inp).status.isValid = true) (at_ : String) :
    settled (r.set (updatedRow now (scanRow r) inp).status h
        (updatedAssignee (scanRow r) inp) at_) =
      (inp.status, r.assignee, r.evidenceSnapshot, r.createdAt) := by
  have hstatus : (updatedRow now (scanRow r) inp).status = inp.status := by
    cases hchange : statusChanges (scanRow r) inp with
    | true => exact updatedRow_status_moved hchange
    | false =>
        rw [updatedRow_status_kept hchange]
        rcases (Bool.and_eq_false_iff).mp hchange with hno | hsame
        · exact absurd hinp.status (of_decide_eq_false hno)
        · exact (Decidable.not_not.mp (of_decide_eq_false hsame)).symm
  have hassignee : updatedAssignee (scanRow r) inp = r.assignee := by
    unfold updatedAssignee
    rw [hinp.clearAssignee, hinp.assignee]
    rfl
  rw [settled_set, hstatus, hassignee]

theorem settled_assigneeOnly {now : Int} {inp : UpsertInput} (hinp : AssigneeOnly inp)
    (r : SqlRow) (h : (updatedRow now (scanRow r) inp).status.isValid = true) (at_ : String) :
    settled (r.set (updatedRow now (scanRow r) inp).status h
        (updatedAssignee (scanRow r) inp) at_) =
      (r.status, assigned inp, r.evidenceSnapshot, r.createdAt) := by
  have hstatus : (updatedRow now (scanRow r) inp).status = r.status := by
    apply updatedRow_status_kept
    unfold statusChanges
    rw [hinp.status]
    exact Bool.false_and _
  have hassignee : updatedAssignee (scanRow r) inp = assigned inp := by
    unfold updatedAssignee assigned
    cases hclear : inp.clearAssignee with
    | true => rfl
    | false =>
        rcases hinp.assignee with hset | hset
        · rw [hclear] at hset
          cases hset
        · rcases Option.isSome_iff_exists.mp hset with ⟨v, hv⟩
          rw [hv]
  rw [settled_set, hstatus, hassignee]

/-- The call succeeds alone on the first contents and leaves the second. -/
def SucceedsWith (fk : Bool) (d : Db) (w : WriteCall) (d' : Db) : Prop :=
  exists a, w.prog.run (engine fk) Prog.noFaults ⟨d, none⟩ = (.ok a, ⟨d', none⟩)

theorem upsert_succeedsWith {d : Db} {r : SqlRow} {inp : UpsertInput} (fk : Bool) (now : Int)
    (hcheck : upsertCheck inp = none) (hfind : d.triage.find? inp.key = some r) :
    exists d' hvalid, SucceedsWith fk d (.upsert now inp) d' ∧
      d'.triage.find? inp.key = some (r.set (updatedRow now (scanRow r) inp).status hvalid
        (updatedAssignee (scanRow r) inp) (formatTS now)) := by
  rcases upsert_existing fk now hcheck hfind with ⟨d', heff, hrun⟩
  rcases heff.of_present hfind with ⟨_, hvalid, hfind'⟩
  refine ⟨d', hvalid, ⟨.row (updatedRow now (scanRow r) inp), ?_⟩, hfind'⟩
  rw [WriteCall.prog, Prog.run_map, hrun]
  rfl

theorem status_then_assignee {d : Db} {r : SqlRow} {s a : UpsertInput} (fk : Bool)
    (ns na : Int) (hfind : d.triage.find? s.key = some r) (hkey : a.key = s.key)
    (hs : upsertCheck s = none) (ha : upsertCheck a = none)
    (hstatus : StatusOnly s) (hassignee : AssigneeOnly a) :
    exists d1 d2 r2, SucceedsWith fk d (.upsert ns s) d1 ∧
      SucceedsWith fk d1 (.upsert na a) d2 ∧
      d2.triage.find? s.key = some r2 ∧
      settled r2 = (s.status, assigned a, r.evidenceSnapshot, r.createdAt) := by
  rcases upsert_succeedsWith fk ns hs hfind with ⟨d1, h1, hok1, hfind1⟩
  have hset1 := settled_statusOnly hstatus r h1 (formatTS ns)
  rw [← hkey] at hfind1
  rcases upsert_succeedsWith fk na ha hfind1 with ⟨d2, h2, hok2, hfind2⟩
  have hset2 := settled_assigneeOnly hassignee _ h2 (formatTS na)
  rw [hkey] at hfind2
  refine ⟨d1, d2, _, hok1, hok2, hfind2, hset2.trans ?_⟩
  simp only [settled, Prod.mk.injEq] at hset1
  rw [hset1.left]
  rfl

theorem assignee_then_status {d : Db} {r : SqlRow} {s a : UpsertInput} (fk : Bool)
    (ns na : Int) (hfind : d.triage.find? s.key = some r) (hkey : a.key = s.key)
    (hs : upsertCheck s = none) (ha : upsertCheck a = none)
    (hstatus : StatusOnly s) (hassignee : AssigneeOnly a) :
    exists d1 d2 r2, SucceedsWith fk d (.upsert na a) d1 ∧
      SucceedsWith fk d1 (.upsert ns s) d2 ∧
      d2.triage.find? s.key = some r2 ∧
      settled r2 = (s.status, assigned a, r.evidenceSnapshot, r.createdAt) := by
  have hfind' := hfind
  rw [← hkey] at hfind'
  rcases upsert_succeedsWith fk na ha hfind' with ⟨d1, h1, hok1, hfind1⟩
  have hset1 := settled_assigneeOnly hassignee r h1 (formatTS na)
  rw [hkey] at hfind1
  rcases upsert_succeedsWith fk ns hs hfind1 with ⟨d2, h2, hok2, hfind2⟩
  have hset2 := settled_statusOnly hstatus _ h2 (formatTS ns)
  refine ⟨d1, d2, _, hok1, hok2, hfind2, hset2.trans ?_⟩
  simp only [settled, Prod.mk.injEq] at hset1
  rw [hset1.right.left]
  rfl

/-!
## No update is lost

Among any other writes: as long as no third upsert is about the row, it ends up
with the status and the assignee that the successful ones asked for.
-/

section

variable {ident : Type} {fk : Bool} {calls : ident -> WriteCall} {t1 t2 : ident}
  {ns na : Int} {s a : UpsertInput}

/-- Only the two given calls upsert the row of the first. -/
structure OnlyTwo (calls : ident -> WriteCall) (t1 t2 : ident) (ns na : Int)
    (s a : UpsertInput) : Prop where
  first : calls t1 = .upsert ns s
  second : calls t2 = .upsert na a
  key : a.key = s.key
  statusOnly : StatusOnly s
  assigneeOnly : AssigneeOnly a
  others : forall t n inp, t ≠ t1 -> t ≠ t2 -> calls t = .upsert n inp -> inp.key ≠ s.key

theorem OnlyTwo.ne (h : OnlyTwo calls t1 t2 ns na s a) : t1 ≠ t2 := by
  intro heq
  have hcall := h.first
  rw [heq, h.second] at hcall
  cases hcall
  exact h.statusOnly.status h.assigneeOnly.status

theorem OnlyTwo.effect [DecidableEq ident] (h : OnlyTwo calls t1 t2 ns na s a) {d d' : Db}
    {t : ident} {b : Reply} {r : SqlRow} (heff : (calls t).Effect d b d')
    (hfind : d.triage.find? s.key = some r) :
    exists r', d'.triage.find? s.key = some r' ∧
      settled r' = (if t = t1 then s.status else r.status,
        if t = t2 then assigned a else r.assignee, r.evidenceSnapshot, r.createdAt) := by
  by_cases ht1 : t = t1
  · have ht2 : t ≠ t2 := fun heq => h.ne (ht1.symm.trans heq)
    rw [ht1, h.first] at heff
    cases heff with
    | upsert hup =>
        rcases hup.of_present hfind with ⟨hrow, hvalid, hfind'⟩
        subst hrow
        rw [if_pos ht1, if_neg ht2]
        exact ⟨_, hfind', settled_statusOnly h.statusOnly r hvalid _⟩
  · rw [if_neg ht1]
    by_cases ht2 : t = t2
    · rw [ht2, h.second] at heff
      cases heff with
      | upsert hup =>
          rw [← h.key] at hfind ⊢
          rcases hup.of_present hfind with ⟨hrow, hvalid, hfind'⟩
          subst hrow
          rw [if_pos ht2]
          exact ⟨_, hfind', settled_assigneeOnly h.assigneeOnly r hvalid _⟩
    · rw [if_neg ht2]
      refine ⟨r, ?_, rfl⟩
      cases hcall : calls t with
      | upsert n inp =>
          rw [hcall] at heff
          cases heff with
          | upsert hup =>
              exact (hup.find?_other (fun heq => h.others t n inp ht1 ht2 hcall heq.symm)).trans
                hfind
      | appendNote n hostID eventID author body =>
          rw [hcall] at heff
          cases heff with
          | appendNote _ => exact hfind

theorem OnlyTwo.serial [DecidableEq ident] (h : OnlyTwo calls t1 t2 ns na s a) {d d' : Db}
    {order : List (ident × Except Err Reply)} {r : SqlRow}
    (hserial : Serial (engine fk) (fun t => (calls t).prog) d order d')
    (hgood : forall t b, (t, b) ∈ order -> Succeeded b)
    (hfind : d.triage.find? s.key = some r) :
    exists r', d'.triage.find? s.key = some r' ∧
      settled r' = (if t1 ∈ order.map Prod.fst then s.status else r.status,
        if t2 ∈ order.map Prod.fst then assigned a else r.assignee,
        r.evidenceSnapshot, r.createdAt) := by
  induction hserial generalizing r with
  | nil d => exact ⟨r, hfind, rfl⟩
  | @cons d mid d' t b rest hrun _ ih =>
      rcases hgood t b List.mem_cons_self with ⟨v, hv⟩
      rw [hv] at hrun
      rcases h.effect (prog_ok hrun).left hfind with ⟨r1, hfind1, hset1⟩
      rcases ih (fun u c hc => hgood u c (List.mem_cons_of_mem _ hc)) hfind1 with
        ⟨r2, hfind2, hset2⟩
      refine ⟨r2, hfind2, hset2.trans ?_⟩
      simp only [settled, Prod.mk.injEq] at hset1
      rw [hset1.left, hset1.right.left, hset1.right.right.left, hset1.right.right.right,
        List.map_cons]
      -- the row remembers the head of the order unless the rest overwrites it
      by_cases hm1 : t1 ∈ rest.map Prod.fst <;> by_cases hm2 : t2 ∈ rest.map Prod.fst <;>
        simp [hm1, hm2, eq_comm]

theorem OnlyTwo.run [DecidableEq ident] (h : OnlyTwo calls t1 t2 ns na s a) {d0 : Db}
    {sys : System Db Stmt Stmt.Res SqlErr (Except Err Reply) ident} {r : SqlRow}
    (hout : SerialOutcome fk calls d0 sys) (hfind : d0.triage.find? s.key = some r)
    {b1 b2 : Reply} (h1 : sys.progs t1 = .ret (.ok b1)) (h2 : sys.progs t2 = .ret (.ok b2)) :
    exists r', sys.committed.triage.find? s.key = some r' ∧
      settled r' = (s.status, assigned a, r.evidenceSnapshot, r.createdAt) := by
  rcases hout with ⟨order, _, hserial, hgood, hret⟩
  rcases h.serial hserial hgood hfind with ⟨r', hfind', hset⟩
  have hm1 : t1 ∈ order.map Prod.fst :=
    List.mem_map_of_mem ((hret t1 _ h1).mpr (succeeded_ok b1))
  have hm2 : t2 ∈ order.map Prod.fst :=
    List.mem_map_of_mem ((hret t2 _ h2).mpr (succeeded_ok b2))
  rw [if_pos hm1, if_pos hm2] at hset
  exact ⟨r', hfind', hset⟩

end

/-- Concurrent writes are serial, the two updates of a row commute, and none of
them is lost. -/
theorem concurrent_writes (fk : Bool) {ident : Type} [DecidableEq ident]
    (calls : ident -> WriteCall) (d0 : Db) :
    (forall events s, runSteps (System.step (engine fk))
        (System.start d0 (fun t => (calls t).prog)) events = some s ->
      SerialOutcome fk calls d0 s ∧
        forall t1 t2 ns na i a r b1 b2, OnlyTwo calls t1 t2 ns na i a ->
          d0.triage.find? i.key = some r ->
          s.progs t1 = .ret (.ok b1) -> s.progs t2 = .ret (.ok b2) ->
          exists r', s.committed.triage.find? i.key = some r' ∧
            settled r' = (i.status, assigned a, r.evidenceSnapshot, r.createdAt)) ∧
    (forall i a ns na r, d0.triage.find? i.key = some r -> a.key = i.key ->
      upsertCheck i = none -> upsertCheck a = none -> StatusOnly i -> AssigneeOnly a ->
      exists d1 d12 d2 d21 r12 r21,
        SucceedsWith fk d0 (.upsert ns i) d1 ∧ SucceedsWith fk d1 (.upsert na a) d12 ∧
        SucceedsWith fk d0 (.upsert na a) d2 ∧ SucceedsWith fk d2 (.upsert ns i) d21 ∧
        d12.triage.find? i.key = some r12 ∧ d21.triage.find? i.key = some r21 ∧
        settled r12 = settled r21 ∧
        settled r12 = (i.status, assigned a, r.evidenceSnapshot, r.createdAt)) := by
  constructor
  · intro events s hrun
    have hout := serialOutcome_run hrun
    constructor
    · exact hout
    · intro t1 t2 ns na i a r b1 b2 htwo hfind h1 h2
      exact htwo.run hout hfind h1 h2
  · intro i a ns na r hfind hkey hi ha hstatus hassignee
    rcases status_then_assignee fk ns na hfind hkey hi ha hstatus hassignee with
      ⟨d1, d12, r12, hi1, ha1, hfind12, hset12⟩
    rcases assignee_then_status fk ns na hfind hkey hi ha hstatus hassignee with
      ⟨d2, d21, r21, ha2, hi2, hfind21, hset21⟩
    exact ⟨d1, d12, d2, d21, r12, r21, hi1, ha1, ha2, hi2, hfind12, hfind21,
      hset12.trans hset21.symm, hset12⟩

def oneRow : SqlRow :=
  { hostID := "h", eventID := "e", status := statusOpen, statusCheck := by decide,
    assignee := none, evidenceSnapshot := [123, 125], createdAt := "", updatedAt := "" }

def oneRowDb : Db :=
  { Db.empty with triage := { rows := [oneRow], pk := List.nodup_singleton _ } }

def resolveInput : UpsertInput := ⟨"h", "e", statusResolved, none, false, [], "ana"⟩

def assignInput : UpsertInput := ⟨"h", "e", noStatus, some "bo", false, [], "bo"⟩

def resolveAndAssign : Bool -> WriteCall
  | true => .upsert 5 resolveInput
  | false => .upsert 6 assignInput

def resolveAndAssignEvents : List (Event SqlErr Bool) :=
  [true, true, true, true, true, false, true, false, false, false, false].map
    (fun t => .access t none)

theorem onlyTwo_resolveAndAssign :
    OnlyTwo resolveAndAssign true false 5 6 resolveInput assignInput where
  first := rfl
  second := rfl
  key := rfl
  statusOnly := ⟨by decide, rfl, rfl⟩
  assigneeOnly := ⟨rfl, Or.inr rfl⟩
  others := by
    intro t n inp ht1 ht2
    cases t with
    | true => exact absurd rfl ht1
    | false => exact absurd rfl ht2

theorem concurrent_writes_resolveAndAssign :
    (exists s r', runSteps (System.step (engine true))
        (System.start oneRowDb (fun t => (resolveAndAssign t).prog)) resolveAndAssignEvents =
          some s ∧
      SerialOutcome true resolveAndAssign oneRowDb s ∧
      s.committed.triage.find? ("h", "e") = some r' ∧
      settled r' = (statusResolved, some "bo", [123, 125], "")) ∧
    exists d1 d12, SucceedsWith true oneRowDb (.upsert 5 resolveInput) d1 ∧
      SucceedsWith true d1 (.upsert 6 assignInput) d12 := by
  rcases concurrent_writes true resolveAndAssign oneRowDb with ⟨hruns, hcommute⟩
  constructor
  · have hrun : exists s b1 b2, runSteps (System.step (engine true))
        (System.start oneRowDb (fun t => (resolveAndAssign t).prog)) resolveAndAssignEvents =
          some s ∧ s.progs true = .ret (.ok b1) ∧ s.progs false = .ret (.ok b2) :=
      ⟨_, _, _, rfl, rfl, rfl⟩
    rcases hrun with ⟨s, b1, b2, hs, h1, h2⟩
    rcases hruns resolveAndAssignEvents s hs with ⟨hout, hboth⟩
    rcases hboth true false 5 6 resolveInput assignInput oneRow b1 b2
      onlyTwo_resolveAndAssign rfl h1 h2 with ⟨r', hfind, hset⟩
    exact ⟨s, r', hs, hout, hfind, hset⟩
  · rcases hcommute resolveInput assignInput 5 6 oneRow rfl rfl rfl rfl
      onlyTwo_resolveAndAssign.statusOnly onlyTwo_resolveAndAssign.assigneeOnly with
      ⟨d1, d12, _, _, _, _, hi, ha, _⟩
    exact ⟨d1, d12, hi, ha⟩

end Triage
end LodelineManager
