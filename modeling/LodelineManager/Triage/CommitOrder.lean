import LodelineManager.Foundation.StampOrder
import LodelineManager.Triage.ClockedWrites
import LodelineManager.Triage.PartialUpdate

/-!
# Commit order and clock order

The log and the notes of a key are numbered as they are committed, and are listed
by the text of a clock reading first.  What is listed is what was committed, in its
order, exactly when the readings that were written never step back.
-/

namespace LodelineManager
namespace Triage

open Foundation SingleConnection Go

/-!
## Lists of a key
-/

instance totalLogOrder : Std.Total logOrder := ⟨StampOrder.total⟩

instance transLogOrder : IsTrans SqlLog logOrder := ⟨fun _ _ _ => StampOrder.trans⟩

instance totalNoteOrder : Std.Total noteOrder := ⟨StampOrder.total⟩

instance transNoteOrder : IsTrans SqlNote noteOrder := ⟨fun _ _ _ => StampOrder.trans⟩

theorem listLog_run {fk : Bool} {d : Db} {key : String × String} {r : SqlRow}
    (h : d.triage.find? key = some r) :
    (listLog key.1 key.2).run (engine fk) Prog.noFaults ⟨d, none⟩ =
      (.ok (((entriesOf d key).insertionSort logOrder).map scanLog), ⟨d, none⟩) := by
  rw [listLog_eq]
  exact listing_run (.selectLog key.1 key.2) "triage: list log" (List.map scanLog) h rfl

theorem listNotes_run {fk : Bool} {d : Db} {key : String × String} {r : SqlRow}
    (h : d.triage.find? key = some r) :
    (listNotes key.1 key.2).run (engine fk) Prog.noFaults ⟨d, none⟩ =
      (.ok (((notesOf d key).insertionSort noteOrder).map scanNote), ⟨d, none⟩) := by
  rw [listNotes_eq]
  exact listing_run (.selectNotes key.1 key.2) "triage: list notes" (List.map scanNote) h rfl

/-- {lit}`ListLog` returns the entries of a key as they were committed. -/
def LogAsCommitted (fk : Bool) (d : Db) (key : String × String) : Prop :=
  ((listLog key.1 key.2).run (engine fk) Prog.noFaults ⟨d, none⟩).1 =
    .ok ((entriesOf d key).map scanLog)

/-- {lit}`ListNotes` returns the notes of a key as they were added. -/
def NotesAsAdded (fk : Bool) (d : Db) (key : String × String) : Prop :=
  ((listNotes key.1 key.2).run (engine fk) Prog.noFaults ⟨d, none⟩).1 =
    .ok ((notesOf d key).map scanNote)

theorem logAsCommitted_iff {fk : Bool} {d : Db} {key : String × String} {r : SqlRow}
    (h : d.triage.find? key = some r)
    (hids : (entriesOf d key).Pairwise (fun a b => a.id < b.id)) :
    LogAsCommitted fk d key <-> ((entriesOf d key).map SqlLog.at_).Pairwise (· <= ·) := by
  unfold LogAsCommitted
  rw [listLog_run h]
  constructor
  · intro heq
    have hlist := congrArg (List.map LogEntry.id) (Except.ok.inj heq)
    rw [List.map_map, List.map_map] at hlist
    exact StampOrder.steady_of_numbers (r := logOrder) (fun _ _ => Iff.rfl) hids hlist
  · intro hsteady
    rw [StampOrder.insertionSort_eq (r := logOrder) (fun _ _ => Iff.rfl) hids hsteady]

theorem notesAsAdded_iff {fk : Bool} {d : Db} {key : String × String} {r : SqlRow}
    (h : d.triage.find? key = some r)
    (hids : (notesOf d key).Pairwise (fun a b => a.id < b.id)) :
    NotesAsAdded fk d key <-> ((notesOf d key).map SqlNote.createdAt).Pairwise (· <= ·) := by
  unfold NotesAsAdded
  rw [listNotes_run h]
  constructor
  · intro heq
    have hlist := congrArg (List.map Note.id) (Except.ok.inj heq)
    rw [List.map_map, List.map_map] at hlist
    exact StampOrder.steady_of_numbers (r := noteOrder) (fun _ _ => Iff.rfl) hids hlist
  · intro hsteady
    rw [StampOrder.insertionSort_eq (r := noteOrder) (fun _ _ => Iff.rfl) hids hsteady]

/-!
## What the calls wrote
-/

def WriteCall.logReading (key : String × String) : WriteCall -> Option Int
  | upsert now inp => if inp.key = key then some now else none
  | appendNote _ _ _ _ _ => none

def WriteCall.noteReading (key : String × String) : WriteCall -> Option Int
  | upsert _ _ => none
  | appendNote now hostID eventID _ _ => if (hostID, eventID) = key then some now else none

def readingsOf (kind : WriteCall -> Option Int) (calls : List Served) : List Int :=
  calls.filterMap (fun l => kind l.call)

theorem readingsOf_concat (kind : WriteCall -> Option Int) (calls : List Served) (l : Served) :
    readingsOf kind (calls ++ [l]) = readingsOf kind calls ++ (kind l.call).toList := by
  unfold readingsOf
  rw [List.filterMap_append]
  cases hkind : kind l.call with
  | none => simp [hkind]
  | some t => simp [hkind]

/-- The clock never steps back along the readings, and stays in the years that the text
columns can hold. -/
def Steady (readings : List Int) : Prop :=
  (forall t, t ∈ readings -> Time.InRange t) ∧ readings.Pairwise (· <= ·)

theorem formatTS_le {a b : Int} (ha : Time.InRange a) (hb : Time.InRange b) (h : a <= b) :
    formatTS a <= formatTS b := by
  rcases Int.lt_or_eq_of_le h with hlt | heq
  · exact le_of_lt (formatTS_lt ha hb hlt)
  · rw [heq]

theorem Steady.texts {readings : List Int} {texts : List String} (h : Steady readings)
    (hsub : texts.Sublist (readings.map formatTS)) : texts.Pairwise (· <= ·) := by
  have hall : (readings.map formatTS).Pairwise (· <= ·) := by
    rw [List.pairwise_map]
    exact h.right.imp_of_mem (fun ha hb hab => formatTS_le (h.left _ ha) (h.left _ hb) hab)
  exact hall.sublist hsub

theorem readings_concat {kind : WriteCall -> Option Int} {calls : List Served} {l : Served}
    {texts texts' : List String} (h : texts.Sublist ((readingsOf kind calls).map formatTS))
    (hwrote : texts' = texts ∨
      exists t, kind l.call = some t ∧ texts' = texts ++ [formatTS t]) :
    texts'.Sublist ((readingsOf kind (calls ++ [l])).map formatTS) := by
  rw [readingsOf_concat, List.map_append]
  rcases hwrote with hsame | ⟨t, ht, hnew⟩
  · rw [hsame]
    exact h.trans (List.sublist_append_left _ _)
  · rw [hnew, ht]
    exact h.append (List.Sublist.refl _)

theorem ofKey_concat {row : Type} (keyOf : row -> String × String) (rows : List row) (new : row)
    (key : String × String) :
    (rows ++ [new]).filter (fun x => decide (keyOf x = key)) =
      rows.filter (fun x => decide (keyOf x = key)) ++ if keyOf new = key then [new] else [] := by
  rw [List.filter_append]
  by_cases hkey : keyOf new = key
  · simp [hkey]
  · simp [hkey]

section

variable {d d' : Db} {w : WriteCall} {a : Reply}

theorem logColumn_effect (h : w.Effect d a d') (key : String × String) :
    (entriesOf d' key).map SqlLog.at_ = (entriesOf d key).map SqlLog.at_ ∨
      exists t, w.logReading key = some t ∧
        (entriesOf d' key).map SqlLog.at_ =
          (entriesOf d key).map SqlLog.at_ ++ [formatTS t] := by
  unfold entriesOf
  rcases h.log with hsame | ⟨now, inp, fromStatus, toStatus, rfl, hlog⟩
  · rw [hsame]
    exact Or.inl rfl
  · have hentry : (newEntry d inp.hostID inp.eventID inp.actor fromStatus toStatus
        (formatTS now)).key = inp.key := rfl
    rw [hlog, ofKey_concat, hentry]
    by_cases hkey : inp.key = key
    · rw [if_pos hkey, List.map_append]
      exact Or.inr ⟨now, if_pos hkey, rfl⟩
    · rw [if_neg hkey, List.append_nil]
      exact Or.inl rfl

theorem noteColumn_effect (h : w.Effect d a d') (key : String × String) :
    (notesOf d' key).map SqlNote.createdAt = (notesOf d key).map SqlNote.createdAt ∨
      exists t, w.noteReading key = some t ∧
        (notesOf d' key).map SqlNote.createdAt =
          (notesOf d key).map SqlNote.createdAt ++ [formatTS t] := by
  unfold notesOf
  cases h with
  | upsert hup => cases hup <;> exact Or.inl rfl
  | @appendNote now hostID eventID author body r note hfind =>
      unfold Db.insertNote
      rw [ofKey_concat]
      unfold SqlNote.key
      by_cases hkey : (hostID, eventID) = key
      · rw [if_pos hkey, List.map_append]
        exact Or.inr ⟨now, if_pos hkey, rfl⟩
      · rw [if_neg hkey, List.append_nil]
        exact Or.inl rfl

theorem noteIds_effect (hids : d.triageNotes.Pairwise (fun a b => a.id < b.id))
    (hbound : forall n, n ∈ d.triageNotes -> n.id <= d.noteSeq) (h : w.Effect d a d') :
    d'.triageNotes.Pairwise (fun a b => a.id < b.id) ∧
      forall n, n ∈ d'.triageNotes -> n.id <= d'.noteSeq := by
  cases h with
  | upsert hup => cases hup <;> exact ⟨hids, hbound⟩
  | appendNote hfind =>
      constructor
      · refine List.pairwise_append.mpr ⟨hids, List.pairwise_singleton _ _, ?_⟩
        intro n hn n' hn'
        rw [List.mem_singleton.mp hn']
        exact Nat.lt_succ_of_le (hbound n hn)
      · intro n hn
        rcases List.mem_append.mp hn with hold | hnew
        · exact Nat.le_succ_of_le (hbound n hold)
        · rw [List.mem_singleton.mp hnew]
          exact Nat.le_refl _

end

/-- The times that stand in the tables are readings of the calls, in their order, and
notes are numbered as they are added. -/
structure Recorded (calls : List Served) (d : Db) : Prop where
  log : forall key,
    ((entriesOf d key).map SqlLog.at_).Sublist
      ((readingsOf (WriteCall.logReading key) calls).map formatTS)
  notes : forall key,
    ((notesOf d key).map SqlNote.createdAt).Sublist
      ((readingsOf (WriteCall.noteReading key) calls).map formatTS)
  noteIds : d.triageNotes.Pairwise (fun a b => a.id < b.id)
  noteBound : forall n, n ∈ d.triageNotes -> n.id <= d.noteSeq

theorem recorded_empty : Recorded [] Db.empty where
  log := fun _ => List.Sublist.refl []
  notes := fun _ => List.Sublist.refl []
  noteIds := List.Pairwise.nil
  noteBound := by
    intro n hn
    cases hn

theorem Recorded.keep {calls : List Served} {d d' : Db} (h : Recorded calls d)
    (l : Served) (hsame : d' = d) : Recorded (calls ++ [l]) d' := by
  subst hsame
  constructor
  · exact fun key => readings_concat (h.log key) (Or.inl rfl)
  · exact fun key => readings_concat (h.notes key) (Or.inl rfl)
  · exact h.noteIds
  · exact h.noteBound

theorem Recorded.effect {calls : List Served} {d d' : Db} {l : Served} {a : Reply}
    (h : Recorded calls d) (heff : l.call.Effect d a d') : Recorded (calls ++ [l]) d' := by
  constructor
  · exact fun key => readings_concat (h.log key) (logColumn_effect heff key)
  · exact fun key => readings_concat (h.notes key) (noteColumn_effect heff key)
  · exact (noteIds_effect h.noteIds h.noteBound heff).left
  · exact (noteIds_effect h.noteIds h.noteBound heff).right

theorem recorded_run {fk : Bool} {calls : List Served} {c : Conn Db}
    (hrun : runSteps (serve fk) ⟨Db.empty, none⟩ calls = some c) :
    c.tx = none ∧ Recorded calls c.committed := by
  induction calls using List.reverseRecOn generalizing c with
  | nil =>
      cases hrun
      exact ⟨rfl, recorded_empty⟩
  | append_singleton calls l ih =>
      rcases runSteps_concat hrun with ⟨mid, hmid, hstep⟩
      rcases mid with ⟨d, tx⟩
      rcases ih hmid with ⟨htx, hrecorded⟩
      cases htx
      rcases serve_cases hstep with ⟨hidle, hsame | ⟨a, heff⟩⟩
      · exact ⟨hidle, hrecorded.keep l hsame⟩
      · exact ⟨hidle, hrecorded.effect heff⟩

/-- After any run of calls the log of a key, as it was committed, tells the story of its
row; {lit}`ListLog` and {lit}`ListNotes` return log and notes in that order exactly when
the times that were written never step back, as they do not when the clock did not. -/
theorem lists_in_commit_order (fk : Bool) {calls : List Served} {c : Conn Db}
    (hrun : runSteps (serve fk) ⟨Db.empty, none⟩ calls = some c) {key : String × String}
    {r : SqlRow} (hfind : c.committed.triage.find? key = some r) :
    (entriesOf c.committed key).Pairwise (fun a b => a.id < b.id) ∧
      TrailOf (entriesOf c.committed key) r.status ∧
      (LogAsCommitted fk c.committed key <->
        ((entriesOf c.committed key).map SqlLog.at_).Pairwise (· <= ·)) ∧
      (NotesAsAdded fk c.committed key <->
        ((notesOf c.committed key).map SqlNote.createdAt).Pairwise (· <= ·)) ∧
      (Steady (readingsOf (WriteCall.logReading key) calls) ->
        LogAsCommitted fk c.committed key) ∧
      (Steady (readingsOf (WriteCall.noteReading key) calls) ->
        NotesAsAdded fk c.committed key) := by
  have haudited := (audited_run hrun).right
  have hrecorded := (recorded_run hrun).right
  have hids : (entriesOf c.committed key).Pairwise (fun a b => a.id < b.id) :=
    haudited.ids.sublist List.filter_sublist
  have hnoteIds : (notesOf c.committed key).Pairwise (fun a b => a.id < b.id) :=
    hrecorded.noteIds.sublist List.filter_sublist
  have hlog := @logAsCommitted_iff fk _ _ _ hfind hids
  have hnotes := @notesAsAdded_iff fk _ _ _ hfind hnoteIds
  refine ⟨hids, haudited.trail key r hfind, hlog, hnotes, ?_, ?_⟩
  · intro hsteady
    exact hlog.mpr (hsteady.texts (hrecorded.log key))
  · intro hsteady
    exact hnotes.mpr (hsteady.texts (hrecorded.notes key))

/-- An alert is opened and resolved while the clock goes on. -/
theorem lists_in_commit_order_resolved :
    let alert (status : Status) : UpsertInput :=
      { hostID := "h", eventID := "e", status := status, assignee := none,
        clearAssignee := false, evidenceSnapshot := [123, 125], actor := "ana" }
    let calls : List Served :=
      [{ call := .upsert 1 (alert statusOpen), faults := Prog.noFaults },
        { call := .upsert 2 (alert statusResolved), faults := Prog.noFaults }]
    exists c, runSteps (serve true) ⟨Db.empty, none⟩ calls = some c ∧
      LogAsCommitted true c.committed ("h", "e") := by
  intro alert calls
  have hsteady : Steady (readingsOf (WriteCall.logReading ("h", "e")) calls) := by
    show Steady [1, 2]
    exact ⟨by decide, by decide⟩
  exact ⟨_, rfl, (@lists_in_commit_order true calls _ rfl ("h", "e") _
    rfl).right.right.right.right.left hsteady⟩

/-- The clock steps back between the two: the move to resolved is listed before the
creation. -/
theorem log_against_commit_order :
    let alert (status : Status) : UpsertInput :=
      { hostID := "h", eventID := "e", status := status, assignee := none,
        clearAssignee := false, evidenceSnapshot := [123, 125], actor := "ana" }
    let d := afterUpsert true 1 (alert statusResolved)
      (afterUpsert true 2 (alert statusOpen) Db.empty)
    (((listLog "h" "e").run (engine true) Prog.noFaults ⟨d, none⟩).1.map
        (List.map (fun e => (e.id, e.fromStatus, e.toStatus))) =
      .ok [(2, some statusOpen, some statusResolved), (1, none, some statusOpen)]) := by
  decide +kernel

end Triage
end LodelineManager
