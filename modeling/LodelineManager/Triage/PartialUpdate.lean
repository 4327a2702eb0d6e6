import LodelineManager.Go.TimeParse
import LodelineManager.Triage.AuditTrail

/-!
# An upsert as one partial update

What an upsert is for, said once and apart from its two paths: a request that is
not refused lays its fields over the row that is there, or over nothing.  The
transaction does that and no more.
-/

namespace LodelineManager
namespace Triage

open Foundation SingleConnection Go

/-!
## The reference
-/

/-- A request that an upsert refuses. -/
def UpsertInput.Refused (inp : UpsertInput) (existing : Option Row) : Prop :=
  inp.hostID = "" ∨ inp.eventID = "" ∨ inp.actor = "" ∨
    (inp.status ≠ noStatus ∧ inp.status.isValid = false) ∨
    (existing = none ∧ inp.evidenceSnapshot = [])

instance decidableRefused (inp : UpsertInput) (existing : Option Row) :
    Decidable (inp.Refused existing) :=
  inferInstanceAs (Decidable (_ ∨ _))

/-- The row that a request makes of the row that is there. -/
def partialUpdate (now : Int) (inp : UpsertInput) : Option Row -> Row
  | none =>
      { hostID := inp.hostID
        eventID := inp.eventID
        status := if inp.status = noStatus then statusOpen else inp.status
        assignee := inp.assignee
        evidenceSnapshot := inp.evidenceSnapshot
        createdAt := now
        updatedAt := now }
  | some row =>
      { row with
        status := if inp.status = noStatus then row.status else inp.status
        assignee := if inp.clearAssignee then none else inp.assignee.or row.assignee
        updatedAt := now }

def transition (existing : Option Row) (row : Row) : Option (Option Status) :=
  if existing.map Row.status = some row.status then none else some (existing.map Row.status)

/-- What a partial update leaves in the tables: the row under its key, with the old
bytes and the old creation time where there was one, at most one new entry of the log,
and all else as it was. -/
structure PartiallyUpdated (now : Int) (inp : UpsertInput) (d : Db) (row : Row) (d' : Db) :
    Prop where
  stored : exists r, d'.triage.find? inp.key = some r ∧ r.Holds row ∧
    r.updatedAt = formatTS now ∧
    r.createdAt = ((d.triage.find? inp.key).map SqlRow.createdAt).getD (formatTS now) ∧
    r.evidenceSnapshot =
      ((d.triage.find? inp.key).map SqlRow.evidenceSnapshot).getD inp.evidenceSnapshot
  others : forall key, key ≠ inp.key -> d'.triage.find? key = d.triage.find? key
  logged : d'.triageLog = d.triageLog ++
    ((transition ((d.triage.find? inp.key).map scanRow) row).map (fun fromStatus =>
      newEntry d inp.hostID inp.eventID inp.actor fromStatus (some row.status)
        (formatTS now))).toList
  noted : d'.triageNotes = d.triageNotes

/-!
## The two paths
-/

theorem insertedRow_eq (now : Int) (inp : UpsertInput) :
    insertedRow now inp = partialUpdate now inp none := rfl

theorem updatedRow_eq (now : Int) (existing : Row) (inp : UpsertInput) :
    updatedRow now existing inp = partialUpdate now inp (some existing) := by
  have hstatus : (if statusChanges existing inp then inp.status else existing.status) =
      if inp.status = noStatus then existing.status else inp.status := by
    unfold statusChanges
    by_cases hnone : inp.status = noStatus
    · simp [hnone]
    · by_cases hsame : inp.status = existing.status
      · simp [hsame]
      · simp [hnone, hsame]
  have hassignee : updatedAssignee existing inp =
      if inp.clearAssignee then none else inp.assignee.or existing.assignee := by
    unfold updatedAssignee
    cases inp.assignee with
    | none => rfl
    | some name => rfl
  unfold updatedRow partialUpdate
  rw [hstatus, hassignee]

theorem transition_none (row : Row) : transition none row = some none := by
  unfold transition
  rw [Option.map_none, if_neg (Option.some_ne_none _).symm]

theorem transition_some (existing : Row) (now : Int) (inp : UpsertInput) :
    transition (some existing) (updatedRow now existing inp) =
      if statusChanges existing inp then some (some existing.status) else none := by
  unfold transition
  cases hchange : statusChanges existing inp with
  | false =>
      have hkept : (updatedRow now existing inp).status = existing.status := by
        show (if statusChanges existing inp then inp.status else existing.status) = _
        rw [hchange]
        rfl
      rw [hkept, Option.map_some, if_pos rfl]
      rfl
  | true =>
      have hmoved : (updatedRow now existing inp).status = inp.status := by
        show (if statusChanges existing inp then inp.status else existing.status) = _
        rw [hchange]
        rfl
      have hne : existing.status ≠ inp.status := by
        have hboth := (Bool.and_eq_true _ _).mp hchange
        exact fun heq => of_decide_eq_true hboth.right heq.symm
      rw [hmoved, Option.map_some, if_neg (fun heq => hne (Option.some.inj heq))]
      rfl

theorem stored_updateRow {now : Int} {inp : UpsertInput} {d : Db} {r : SqlRow}
    (hsome : d.triage.find? inp.key = some r)
    (hvalid : (updatedRow now (scanRow r) inp).status.isValid = true) :
    exists r', (d.updateRow inp.key (updatedRow now (scanRow r) inp).status hvalid
          (updatedAssignee (scanRow r) inp) (formatTS now)).triage.find? inp.key = some r' ∧
      r'.Holds (updatedRow now (scanRow r) inp) ∧ r'.updatedAt = formatTS now ∧
      r'.createdAt = r.createdAt ∧ r'.evidenceSnapshot = r.evidenceSnapshot := by
  refine ⟨r.set (updatedRow now (scanRow r) inp).status hvalid
    (updatedAssignee (scanRow r) inp) (formatTS now), ?_, ?_, rfl, rfl, rfl⟩
  · rw [find?_updateRow, if_pos rfl, hsome]
    rfl
  · exact ⟨rfl, rfl, rfl, rfl, rfl, rfl⟩

theorem Upserted.partiallyUpdated {now : Int} {inp : UpsertInput} {d d' : Db} {row : Row}
    (h : Upserted now inp d row d') :
    row = partialUpdate now inp ((d.triage.find? inp.key).map scanRow) ∧
      PartiallyUpdated now inp d row d' := by
  have hothers : forall key, key ≠ inp.key -> d'.triage.find? key = d.triage.find? key :=
    fun key hne => h.find?_other hne
  cases h with
  | @inserted t hvalid hnone hrows =>
      rw [hnone, Option.map_none]
      refine ⟨insertedRow_eq now inp, ?_, hothers, ?_, rfl⟩
      · rw [hnone]
        refine ⟨storedRow (insertedRow now inp) hvalid, ?_, ?_, rfl, rfl, rfl⟩
        · rw [insertLog_triage, KeyedTable.find?_of_rows_append hrows]
          exact if_pos rfl
        · exact ⟨rfl, rfl, rfl, rfl, rfl, rfl⟩
      · rw [hnone, Option.map_none, transition_none]
        rfl
  | @kept r hvalid hsome hchange =>
      rw [hsome, Option.map_some]
      refine ⟨updatedRow_eq now (scanRow r) inp, ?_, hothers, ?_, rfl⟩
      · rw [hsome]
        exact stored_updateRow hsome hvalid
      · rw [hsome, Option.map_some, transition_some, hchange]
        exact (List.append_nil _).symm
  | @moved r hvalid hsome hchange =>
      rw [hsome, Option.map_some]
      refine ⟨updatedRow_eq now (scanRow r) inp, ?_, hothers, ?_, rfl⟩
      · rw [hsome]
        exact stored_updateRow hsome hvalid
      · rw [hsome, Option.map_some, transition_some, hchange]
        rfl

/-!
## Refusals
-/

theorem upsertCheck_eq_none_iff (inp : UpsertInput) :
    upsertCheck inp = none <->
      ¬ (inp.hostID = "" ∨ inp.eventID = "" ∨ inp.actor = "" ∨
        (inp.status ≠ noStatus ∧ inp.status.isValid = false)) := by
  unfold upsertCheck
  split
  · rename_i hfields
    simp only [Bool.or_eq_true, decide_eq_true_eq] at hfields
    constructor
    · intro h
      cases h
    · intro h
      exact absurd (by tauto) h
  · rename_i hfields
    simp only [Bool.or_eq_true, decide_eq_true_eq] at hfields
    split
    · rename_i hstatus
      rw [Bool.and_eq_true, decide_eq_true_eq, Bool.not_eq_true'] at hstatus
      constructor
      · intro h
        cases h
      · intro h
        exact absurd (Or.inr (Or.inr (Or.inr hstatus))) h
    · rename_i hstatus
      rw [Bool.and_eq_true, decide_eq_true_eq, Bool.not_eq_true'] at hstatus
      constructor
      · intro _
        tauto
      · intro _
        rfl

theorem upsert_refused {fk : Bool} {now : Int} {inp : UpsertInput} {d : Db}
    (h : inp.Refused ((d.triage.find? inp.key).map scanRow)) :
    exists e, (upsert now inp).run (engine fk) Prog.noFaults ⟨d, none⟩ =
      (.error e, ⟨d, none⟩) := by
  unfold upsert
  cases hcheck : upsertCheck inp with
  | some e => exact ⟨e, rfl⟩
  | none =>
      have hpassed := (upsertCheck_eq_none_iff inp).mp hcheck
      unfold UpsertInput.Refused at h
      have hinsert : (d.triage.find? inp.key).map scanRow = none ∧ inp.evidenceSnapshot = [] := by
        tauto
      have hnone : d.triage.find? inp.key = none := Option.map_eq_none_iff.mp hinsert.left
      have hfind : d.triage.find? (inp.hostID, inp.eventID) = none := hnone
      simp only [Prog.run, Prog.noFaults_zero, Prog.noFaults_tail, upsertTx, getRowTx,
        Prog.deferRollback, Engine.answer, engine, execStmt, hfind, scanned]
      rcases insertPath_run fk now hcheck hnone with hempty | ⟨d', heff, hrun⟩
      · exact ⟨_, hempty.right⟩
      · exfalso
        unfold insertPath at hrun
        rw [hinsert.right, if_pos List.length_nil] at hrun
        cases hrun

theorem upsert_accepted {fk : Bool} {now : Int} {inp : UpsertInput} {d : Db}
    (h : ¬ inp.Refused ((d.triage.find? inp.key).map scanRow)) :
    exists row d', (upsert now inp).run (engine fk) Prog.noFaults ⟨d, none⟩ =
      (.ok row, ⟨d', none⟩) := by
  unfold UpsertInput.Refused at h
  have hcheck : upsertCheck inp = none := by
    rw [upsertCheck_eq_none_iff]
    tauto
  cases hfind : d.triage.find? inp.key with
  | some r =>
      rcases upsert_existing fk now hcheck hfind with ⟨d', _, hrun⟩
      exact ⟨_, d', hrun⟩
  | none =>
      have hfind' : d.triage.find? (inp.hostID, inp.eventID) = none := hfind
      unfold upsert
      simp only [hcheck, Prog.run, Prog.noFaults_zero, Prog.noFaults_tail, upsertTx, getRowTx,
        Prog.deferRollback, Engine.answer, engine, execStmt, hfind', scanned]
      rcases insertPath_run fk now hcheck hfind with hempty | ⟨d', _, hrun⟩
      · have hsnapshot := List.eq_nil_of_length_eq_zero hempty.left
        rw [hfind, Option.map_none] at h
        tauto
      · exact ⟨_, d', hrun⟩

/-!
## Reading the row again
-/

theorem getByEventKey_run {fk : Bool} {d : Db} {hostID eventID : String} {r : SqlRow}
    (h : d.triage.find? (hostID, eventID) = some r) :
    (getByEventKey hostID eventID).run (engine fk) Prog.noFaults ⟨d, none⟩ =
      (.ok (scanRow r), ⟨d, none⟩) := by
  unfold getByEventKey getRow
  simp only [Prog.run, Prog.noFaults_zero, Engine.answer, engine, execStmt, h, scanned]

theorem parseTS_formatTS_iff (t : Int) : parseTS (formatTS t) = t <-> Time.InRange t := by
  have hzero : Time.InRange zeroTime := by decide
  unfold parseTS formatTS
  rw [String.toList_ofList]
  by_cases h : Time.InRange t
  · rw [parseTime_formatUTC h]
    exact ⟨fun _ => h, fun _ => rfl⟩
  · rw [parseTime_formatUTC_none h]
    constructor
    · intro heq
      rw [<- heq]
      exact hzero
    · intro hin
      exact absurd hin h

theorem scanRow_eq_iff {now : Int} {inp : UpsertInput} {existing : Option SqlRow} {r : SqlRow}
    (hholds : r.Holds (partialUpdate now inp (existing.map scanRow)))
    (hupdated : r.updatedAt = formatTS now)
    (hcreated : r.createdAt = (existing.map SqlRow.createdAt).getD (formatTS now)) :
    scanRow r = partialUpdate now inp (existing.map scanRow) <-> Time.InRange now := by
  have hstamp : (partialUpdate now inp (existing.map scanRow)).updatedAt = now := by
    cases existing with
    | none => rfl
    | some old => rfl
  constructor
  · intro heq
    have hup := congrArg Row.updatedAt heq
    rw [hstamp] at hup
    rw [<- parseTS_formatTS_iff, <- hupdated]
    exact hup
  · intro hrange
    have hparse := (parseTS_formatTS_iff now).mpr hrange
    rcases hholds with ⟨hhost, hevent, hstatus, hassignee, hsnapshot, _⟩
    unfold scanRow
    rw [hhost, hevent, hstatus, hassignee, hsnapshot, hupdated, hparse, hcreated]
    cases existing with
    | none =>
        show _ = insertedRow now inp
        rw [Option.map_none, Option.map_none, Option.getD_none, hparse]
        rfl
    | some old => rfl

/-- An upsert is one partial update: it refuses what the reference refuses and changes
nothing then; otherwise it returns and stores the updated row, logs a transition exactly
when there is one, leaves every other row and all notes alone, and a lookup of the key
gives the returned row back, to the nanosecond, exactly when the clock stood in the years
that the text columns can hold. -/
theorem upsert_refines (fk : Bool) (now : Int) (inp : UpsertInput) (d : Db) :
    let existing := (d.triage.find? inp.key).map scanRow
    let row := partialUpdate now inp existing
    let out := (upsert now inp).run (engine fk) Prog.noFaults ⟨d, none⟩
    ((exists e, out.1 = .error e) <-> inp.Refused existing) ∧
      (inp.Refused existing -> out.2 = ⟨d, none⟩) ∧
      (¬ inp.Refused existing ->
        out.1 = .ok row ∧ out.2.tx = none ∧ row.updatedAt = now ∧
          PartiallyUpdated now inp d row out.2.committed ∧
          (((getByEventKey inp.hostID inp.eventID).run (engine fk) Prog.noFaults out.2).1 =
            .ok row <-> Time.InRange now)) := by
  intro existing row out
  have hrefused : inp.Refused existing -> (exists e, out.1 = .error e) ∧ out.2 = ⟨d, none⟩ := by
    intro h
    rcases upsert_refused h with ⟨e, hrun⟩
    have hout : out = (.error e, ⟨d, none⟩) := hrun
    rw [hout]
    exact ⟨⟨e, rfl⟩, rfl⟩
  have haccepted : ¬ inp.Refused existing -> out.1 = .ok row ∧ out.2.tx = none ∧
      PartiallyUpdated now inp d row out.2.committed := by
    intro h
    rcases upsert_accepted h with ⟨row', d', hrun⟩
    rcases (upsert_ok hrun).left.partiallyUpdated with ⟨hrow, hupdated⟩
    have hout : out = (.ok row', ⟨d', none⟩) := hrun
    rw [hout]
    have hsame : row' = row := hrow
    rw [hsame] at hupdated ⊢
    exact ⟨rfl, rfl, hupdated⟩
  refine ⟨⟨?_, fun h => (hrefused h).left⟩, fun h => (hrefused h).right, ?_⟩
  · intro herr
    by_contra h
    rcases herr with ⟨e, he⟩
    rw [(haccepted h).left] at he
    cases he
  · intro h
    rcases haccepted h with ⟨hok, htx, hupdated⟩
    rcases hupdated.stored with ⟨r, hfind, hholds, hup, hcreated, hsnapshot⟩
    have hstamp : row.updatedAt = now := by
      show (partialUpdate now inp existing).updatedAt = now
      cases existing with
      | none => rfl
      | some old => rfl
    have hconn : out.2 = ⟨out.2.committed, none⟩ := by
      rw [<- htx]
    have hread := @getByEventKey_run fk out.2.committed _ _ _ hfind
    refine ⟨hok, htx, hstamp, hupdated, ?_⟩
    rw [hconn, hread, <- scanRow_eq_iff hholds hup hcreated]
    exact ⟨fun heq => Except.ok.inj heq, fun heq => congrArg Except.ok heq⟩

/-- The first upsert of an alert. -/
theorem upsert_refines_firstAlert :
    let inp : UpsertInput :=
      { hostID := "h", eventID := "e", status := noStatus, assignee := some "ana",
        clearAssignee := false, evidenceSnapshot := [123, 125], actor := "ana" }
    ((upsert 0 inp).run (engine true) Prog.noFaults ⟨Db.empty, none⟩).1 =
      .ok { hostID := "h", eventID := "e", status := statusOpen, assignee := some "ana",
            evidenceSnapshot := [123, 125], createdAt := 0, updatedAt := 0 } := by
  intro inp
  exact ((upsert_refines true 0 inp Db.empty).right.right (by decide)).left

/-- In the year 10000 the returned row is not the one that is read back: both of its
times are the zero time there. -/
theorem upsert_not_read_back_year10000 :
    let now : Int := 253402300800000000000
    let inp : UpsertInput :=
      { hostID := "h", eventID := "e", status := statusOpen, assignee := none,
        clearAssignee := false, evidenceSnapshot := [123, 125], actor := "ana" }
    let out := (upsert now inp).run (engine true) Prog.noFaults ⟨Db.empty, none⟩
    let row : Row :=
      { hostID := "h", eventID := "e", status := statusOpen, assignee := none,
        evidenceSnapshot := [123, 125], createdAt := now, updatedAt := now }
    out.1 = .ok row ∧
      ((getByEventKey "h" "e").run (engine true) Prog.noFaults out.2).1 =
        .ok { row with createdAt := zeroTime, updatedAt := zeroTime } ∧
      zeroTime ≠ now := by
  intro now inp out row
  exact ⟨rfl, by decide +kernel, by decide⟩

/-!
## Calls that fail
-/

def storedStatus (d : Db) (key : String × String) : Option Status :=
  (d.triage.find? key).map SqlRow.status

/-- Between two states the status of a key has moved exactly when its log has grown, by
one entry that records the move. -/
def StatusLogged (d d' : Db) (key : String × String) : Prop :=
  (storedStatus d' key = storedStatus d key ∧ entriesOf d' key = entriesOf d key) ∨
    (storedStatus d' key ≠ storedStatus d key ∧
      exists e, entriesOf d' key = entriesOf d key ++ [e] ∧
        e.fromStatus = storedStatus d key ∧ e.toStatus = storedStatus d' key)

theorem StatusLogged.of_same {d d' : Db} {key : String × String}
    (hrow : d'.triage.find? key = d.triage.find? key)
    (hlog : entriesOf d' key = entriesOf d key) : StatusLogged d d' key := by
  apply Or.inl
  unfold storedStatus
  rw [hrow]
  exact ⟨rfl, hlog⟩

theorem PartiallyUpdated.statusLogged {now : Int} {inp : UpsertInput} {d d' : Db} {row : Row}
    (h : PartiallyUpdated now inp d row d') (key : String × String) : StatusLogged d d' key := by
  have hentries : entriesOf d' key = entriesOf d key ++
      ((transition ((d.triage.find? inp.key).map scanRow) row).map (fun fromStatus =>
        newEntry d inp.hostID inp.eventID inp.actor fromStatus (some row.status)
          (formatTS now))).toList.filter (fun e => decide (e.key = key)) := by
    unfold entriesOf
    rw [h.logged, List.filter_append]
  by_cases hkey : key = inp.key
  · subst hkey
    have hold : storedStatus d inp.key = ((d.triage.find? inp.key).map scanRow).map Row.status := by
      unfold storedStatus
      rw [Option.map_map]
      rfl
    have hnew : storedStatus d' inp.key = some row.status := by
      rcases h.stored with ⟨r, hfind, hholds, _⟩
      unfold storedStatus
      rw [hfind, Option.map_some, hholds.right.right.left]
    unfold transition at hentries
    unfold StatusLogged
    rw [hold, hnew]
    by_cases hsame : ((d.triage.find? inp.key).map scanRow).map Row.status = some row.status
    · rw [if_pos hsame] at hentries
      exact Or.inl ⟨hsame.symm, hentries.trans (List.append_nil _)⟩
    · rw [if_neg hsame] at hentries
      have hentry := hentries.trans
        (congrArg _ (List.filter_cons_of_pos (decide_eq_true (Eq.refl inp.key))))
      exact Or.inr ⟨fun heq => hsame heq.symm, _, hentry, rfl, rfl⟩
  · have hnone : forall change : Option (Option Status),
        (change.map (fun fromStatus =>
          newEntry d inp.hostID inp.eventID inp.actor fromStatus (some row.status)
            (formatTS now))).toList.filter (fun e => decide (e.key = key)) = [] := by
      intro change
      cases change with
      | none => rfl
      | some s => exact List.filter_cons_of_neg (fun heq => hkey (of_decide_eq_true heq).symm)
    rw [hnone, List.append_nil] at hentries
    exact StatusLogged.of_same (h.others key hkey) hentries

/-- A writing call that reports an error, whichever access failed, leaves the tables as
they were; and however a call ends, no status has moved without its entry in the log and
no entry is there without its move. -/
theorem failed_call_leaves_tables (fk : Bool) (w : WriteCall) (faults : Nat -> Option SqlErr)
    (d : Db) :
    let out := w.prog.run (engine fk) faults ⟨d, none⟩
    out.2.tx = none ∧
      ((exists e, out.1 = .error e) -> out.2.committed = d) ∧
      forall key, StatusLogged d out.2.committed key := by
  intro out
  have hout := prog_run_cases fk w faults d
  refine ⟨prog_run_tx fk w faults d, ?_, ?_⟩
  · intro herr
    rcases hout with hfail | ⟨a, ha, _⟩
    · exact hfail.right
    · rcases herr with ⟨e, he⟩
      have hboth : Except.ok a = Except.error e := ha.symm.trans he
      cases hboth
  · intro key
    rcases hout with hfail | ⟨a, _, heff⟩
    · have hsame : out.2.committed = d := hfail.right
      rw [hsame]
      exact StatusLogged.of_same rfl rfl
    · change w.Effect d a out.2.committed at heff
      generalize out.2.committed = d' at heff ⊢
      cases heff with
      | upsert hup => exact hup.partiallyUpdated.right.statusLogged key
      | appendNote hfind => exact StatusLogged.of_same rfl rfl

theorem refused_run {fk : Bool} {now : Int} {inp : UpsertInput} {d : Db}
    (h : inp.Refused ((d.triage.find? inp.key).map scanRow)) (faults : Nat -> Option SqlErr) :
    (exists e, ((WriteCall.upsert now inp).prog.run (engine fk) faults ⟨d, none⟩).1 = .error e) ∧
      ((WriteCall.upsert now inp).prog.run (engine fk) faults ⟨d, none⟩).2 = ⟨d, none⟩ := by
  have htx := prog_run_tx fk (.upsert now inp) faults d
  have hfailed : ¬ Succeeded ((WriteCall.upsert now inp).prog.run (engine fk) faults ⟨d, none⟩).1 ∧
      ((WriteCall.upsert now inp).prog.run (engine fk) faults ⟨d, none⟩).2.committed = d := by
    rcases (callShape_prog fk (.upsert now inp)).run_faults faults d with hfail | ⟨hgood, hrun⟩
    · exact hfail
    · rcases @upsert_refused fk now inp d h with ⟨e, he⟩
      rw [hrun, WriteCall.prog, Prog.run_map, he] at hgood
      exact absurd hgood (not_succeeded_error e)
  generalize (WriteCall.upsert now inp).prog.run (engine fk) faults ⟨d, none⟩ = out at *
  rcases out with ⟨res, ⟨committed, tx⟩⟩
  cases htx
  rcases hfailed with ⟨hnot, hsame⟩
  cases hsame
  refine ⟨?_, rfl⟩
  cases res with
  | error e => exact ⟨e, rfl⟩
  | ok a => exact absurd (succeeded_ok a) hnot

theorem serve_upsert {fk : Bool} {now : Int} {inp : UpsertInput} {d : Db}
    {faults : Nat -> Option SqlErr} {c : Conn Db}
    (h : serve fk ⟨d, none⟩ { call := .upsert now inp, faults := faults } = some c) :
    c.tx = none ∧ (c.committed = d ∨
      (¬ inp.Refused ((d.triage.find? inp.key).map scanRow) ∧
        exists row, PartiallyUpdated now inp d row c.committed)) := by
  rcases serve_cases h with ⟨htx, hsame | ⟨a, heff⟩⟩
  · exact ⟨htx, Or.inl hsame⟩
  · refine ⟨htx, ?_⟩
    by_cases hrefused : inp.Refused ((d.triage.find? inp.key).map scanRow)
    · have hc : ((WriteCall.upsert now inp).prog.run (engine fk) faults ⟨d, none⟩).2 = c :=
        Option.some.inj h
      apply Or.inl
      rw [<- hc, (refused_run hrefused faults).right]
    · apply Or.inr
      refine ⟨hrefused, ?_⟩
      generalize c.committed = d' at heff
      cases heff with
      | upsert hup => exact ⟨_, hup.partiallyUpdated.right⟩

/-!
## Inserting at once and inserting first
-/

def afterUpsert (fk : Bool) (now : Int) (inp : UpsertInput) (d : Db) : Db :=
  ((upsert now inp).run (engine fk) Prog.noFaults ⟨d, none⟩).2.committed

def UpsertInput.opening (inp : UpsertInput) : UpsertInput :=
  { inp with status := statusOpen, assignee := none, clearAssignee := false }

def storedAssignee (d : Db) (key : String × String) : Option (Option String) :=
  (d.triage.find? key).map SqlRow.assignee

theorem opening_check {inp : UpsertInput} (h : upsertCheck inp = none) :
    upsertCheck inp.opening = none := by
  have hfields := (upsertCheck_eq_none_iff inp).mp h
  rw [upsertCheck_eq_none_iff]
  intro hrefused
  apply hfields
  rcases hrefused with hhost | hevent | hactor | hstatus
  · exact Or.inl hhost
  · exact Or.inr (Or.inl hevent)
  · exact Or.inr (Or.inr (Or.inl hactor))
  · have hvalid : statusOpen.isValid = true := by decide
    have hinvalid : statusOpen.isValid = false := hstatus.right
    rw [hvalid] at hinvalid
    cases hinvalid

theorem afterUpsert_stored {fk : Bool} {now : Int} {inp : UpsertInput} {d : Db}
    (hcheck : upsertCheck inp = none)
    (hsnapshot : d.triage.find? inp.key = none -> inp.evidenceSnapshot ≠ []) :
    exists r, (afterUpsert fk now inp d).triage.find? inp.key = some r ∧
      r.Holds (partialUpdate now inp ((d.triage.find? inp.key).map scanRow)) := by
  have haccepted : ¬ inp.Refused ((d.triage.find? inp.key).map scanRow) := by
    have hfields := (upsertCheck_eq_none_iff inp).mp hcheck
    unfold UpsertInput.Refused
    rw [Option.map_eq_none_iff]
    tauto
  rcases @upsert_accepted fk now _ _ haccepted with ⟨row, d', hrun⟩
  rcases (upsert_ok hrun).left.partiallyUpdated with ⟨hrow, hupdated⟩
  rcases hupdated.stored with ⟨r, hfind, hholds, _⟩
  unfold afterUpsert
  rw [hrun]
  exact ⟨r, hfind, hrow ▸ hholds⟩

/-- A first upsert stores the status that opening the row and then applying the same
request stores.  It stores the same assignee too unless the request both clears and
gives one: the insert keeps the name, the update clears it. -/
theorem insert_as_update (fk : Bool) {now opened later : Int} {inp : UpsertInput} {d : Db}
    (hcheck : upsertCheck inp = none) (hsnapshot : inp.evidenceSnapshot ≠ [])
    (hnone : d.triage.find? inp.key = none) :
    let inserted := afterUpsert fk now inp d
    let updated := afterUpsert fk later inp (afterUpsert fk opened inp.opening d)
    (exists status, storedStatus inserted inp.key = some status ∧
        storedStatus updated inp.key = some status) ∧
      storedAssignee inserted inp.key = some inp.assignee ∧
      storedAssignee updated inp.key = some (if inp.clearAssignee then none else inp.assignee) ∧
      (storedAssignee inserted inp.key = storedAssignee updated inp.key <->
        ¬ (inp.clearAssignee = true ∧ inp.assignee ≠ none)) := by
  intro inserted updated
  have hopened : (d.triage.find? inp.opening.key) = none := hnone
  rcases @afterUpsert_stored fk now inp d hcheck (fun _ => hsnapshot) with ⟨r, hfind, hholds⟩
  rcases @afterUpsert_stored fk opened inp.opening d (opening_check hcheck)
    (fun _ => hsnapshot) with ⟨first, hfirst, hfirstHolds⟩
  have hpresent : (afterUpsert fk opened inp.opening d).triage.find? inp.key = some first := hfirst
  rcases @afterUpsert_stored fk later inp (afterUpsert fk opened inp.opening d) hcheck
    (fun _ => hsnapshot) with ⟨r', hfind', hholds'⟩
  rw [hnone] at hholds
  rw [hopened] at hfirstHolds
  rw [hpresent] at hholds'
  rcases hfirstHolds with ⟨_, _, hfirstStatus, hfirstAssignee, _⟩
  have hstatus : r.status = r'.status := by
    rw [hholds.right.right.left, hholds'.right.right.left]
    show (if inp.status = noStatus then statusOpen else inp.status) =
      if inp.status = noStatus then first.status else inp.status
    rw [hfirstStatus]
    rfl
  have hassignee : r.assignee = inp.assignee := hholds.right.right.right.left
  have hassignee' : r'.assignee = if inp.clearAssignee then none else inp.assignee := by
    rw [hholds'.right.right.right.left]
    show (if inp.clearAssignee then none else inp.assignee.or first.assignee) = _
    have hunassigned : first.assignee = none := hfirstAssignee
    rw [hunassigned, Option.or_none]
  have hins : storedAssignee inserted inp.key = some inp.assignee := by
    rw [<- hassignee]
    exact congrArg (Option.map SqlRow.assignee) hfind
  have hupd : storedAssignee updated inp.key =
      some (if inp.clearAssignee then none else inp.assignee) := by
    rw [<- hassignee']
    exact congrArg (Option.map SqlRow.assignee) hfind'
  refine ⟨⟨r.status, congrArg (Option.map SqlRow.status) hfind, ?_⟩, hins, hupd, ?_⟩
  · rw [hstatus]
    exact congrArg (Option.map SqlRow.status) hfind'
  · rw [hins, hupd]
    cases inp.clearAssignee with
    | false => simp
    | true => simp

/-- A first upsert that assigns the alert. -/
theorem insert_as_update_assigned :
    let inp : UpsertInput :=
      { hostID := "h", eventID := "e", status := noStatus, assignee := some "ana",
        clearAssignee := false, evidenceSnapshot := [123, 125], actor := "bo" }
    storedAssignee (afterUpsert true 0 inp Db.empty) ("h", "e") =
      storedAssignee (afterUpsert true 2 inp (afterUpsert true 1 inp.opening Db.empty))
        ("h", "e") := by
  intro inp
  exact (@insert_as_update true 0 1 2 inp Db.empty (by decide) (by decide)
    rfl).right.right.right.mpr (by decide)

/-- A first upsert that gives an assignee and clears it stores the name; on a row that is
there it stores none. -/
theorem insert_ignores_clear :
    let inp : UpsertInput :=
      { hostID := "h", eventID := "e", status := noStatus, assignee := some "ana",
        clearAssignee := true, evidenceSnapshot := [123, 125], actor := "bo" }
    upsertCheck inp = none ∧
      storedAssignee (afterUpsert true 0 inp Db.empty) ("h", "e") = some (some "ana") ∧
      storedAssignee (afterUpsert true 2 inp (afterUpsert true 1 inp.opening Db.empty))
        ("h", "e") = some none := by
  intro inp
  exact ⟨by decide, by decide +kernel, by decide +kernel⟩

end Triage
end LodelineManager
