import LodelineManager.Triage.Exec
import Mathlib.Data.List.Chain

/-!
# The audit trail

The row of a key and its log are written by separate statements, and the log has
no foreign key.  Still the log of every key, taken in id order, tells the whole
story of the row: it starts from nothing, every entry goes on where the one
before it ended, and the last one ends at the current status.
-/

namespace LodelineManager
namespace Triage

open Foundation SingleConnection Go

def entriesOf (db : Db) (key : String × String) : List SqlLog :=
  db.triageLog.filter (fun e => decide (e.key = key))

def logInIdOrder (db : Db) (key : String × String) : List SqlLog :=
  (entriesOf db key).insertionSort (fun a b => a.id <= b.id)

/-- Log entries that lead a row from nothing to a status. -/
structure TrailOf (entries : List SqlLog) (status : Status) : Prop where
  first : entries.head?.map SqlLog.fromStatus = some none
  linked : entries.IsChain (fun a b => b.fromStatus = a.toStatus ∧ b.fromStatus ≠ b.toStatus)
  last : entries.getLast?.map SqlLog.toStatus = some (some status)

/-- Every row is told by its log, and every log or note row has its row. -/
structure AuditTrail (db : Db) : Prop where
  trail : forall r, r ∈ db.triage.rows -> TrailOf (logInIdOrder db r.key) r.status
  logged : forall e, e ∈ db.triageLog -> exists r, r ∈ db.triage.rows ∧ r.key = e.key
  noted : forall n, n ∈ db.triageNotes -> exists r, r ∈ db.triage.rows ∧ r.key = n.key

theorem TrailOf.nonempty {entries : List SqlLog} {status : Status}
    (h : TrailOf entries status) : entries ≠ [] := by
  intro hnil
  have hfirst := h.first
  rw [hnil] at hfirst
  cases hfirst

theorem trailOf_first {e : SqlLog} {status : Status} (hfrom : e.fromStatus = none)
    (hto : e.toStatus = some status) : TrailOf [e] status where
  first := by rw [List.head?_cons, Option.map_some, hfrom]
  linked := List.isChain_singleton e
  last := by rw [List.getLast?_singleton, Option.map_some, hto]

theorem TrailOf.snoc {entries : List SqlLog} {status status' : Status} {e : SqlLog}
    (h : TrailOf entries status) (hfrom : e.fromStatus = some status)
    (hto : e.toStatus = some status') (hne : status ≠ status') :
    TrailOf (entries ++ [e]) status' where
  first := by
    rw [List.head?_append_of_ne_nil _ h.nonempty]
    exact h.first
  linked := by
    refine h.linked.append (List.isChain_singleton e) ?_
    intro a ha b hb
    rw [List.head?_cons, Option.mem_some_iff] at hb
    subst hb
    have hlast := h.last
    rw [Option.mem_def.mp ha, Option.map_some, Option.some.injEq] at hlast
    rw [hfrom, hto, hlast]
    exact ⟨rfl, fun heq => hne (Option.some.inj heq)⟩
  last := by rw [List.getLast?_concat, Option.map_some, hto]

/-!
## Entries of a key
-/

def newEntry (db : Db) (hostID eventID actor : String) (fromStatus toStatus : Option Status)
    (at_ : String) : SqlLog :=
  { id := db.logSeq + 1, hostID := hostID, eventID := eventID, actor := actor,
    fromStatus := fromStatus, toStatus := toStatus, at_ := at_ }

theorem insertLog_triageLog (db : Db) (hostID eventID actor : String)
    (fromStatus toStatus : Option Status) (at_ : String) :
    (db.insertLog hostID eventID actor fromStatus toStatus at_).triageLog =
      db.triageLog ++ [newEntry db hostID eventID actor fromStatus toStatus at_] := rfl

theorem entriesOf_insertLog (db : Db) (hostID eventID actor : String)
    (fromStatus toStatus : Option Status) (at_ : String) (key : String × String) :
    entriesOf (db.insertLog hostID eventID actor fromStatus toStatus at_) key =
      if (hostID, eventID) = key then
        entriesOf db key ++ [newEntry db hostID eventID actor fromStatus toStatus at_]
      else entriesOf db key := by
  unfold entriesOf
  rw [insertLog_triageLog, List.filter_append]
  by_cases hk : (hostID, eventID) = key
  · rw [if_pos hk]
    congr 1
    exact List.filter_cons_of_pos (decide_eq_true hk)
  · have hnil : [newEntry db hostID eventID actor fromStatus toStatus at_].filter
        (fun e => decide (e.key = key)) = [] :=
      List.filter_cons_of_neg (fun h => hk (of_decide_eq_true h))
    rw [if_neg hk, hnil, List.append_nil]

/-!
## The invariant

It speaks of the tables as they are stored; ids grow along the log, so the stored
order is the id order.
-/

structure Audited (db : Db) : Prop where
  trail : forall key r, db.triage.find? key = some r -> TrailOf (entriesOf db key) r.status
  logged : forall e, e ∈ db.triageLog -> exists r, db.triage.find? e.key = some r
  noted : forall n, n ∈ db.triageNotes -> exists r, db.triage.find? n.key = some r
  ids : db.triageLog.Pairwise (fun a b => a.id < b.id)
  bound : forall e, e ∈ db.triageLog -> e.id <= db.logSeq

theorem audited_empty : Audited Db.empty where
  trail := by
    intro key r h
    cases h
  logged := by
    intro e he
    cases he
  noted := by
    intro n hn
    cases hn
  ids := List.Pairwise.nil
  bound := by
    intro e he
    cases he

theorem Audited.logInIdOrder_eq {db : Db} (h : Audited db) (key : String × String) :
    logInIdOrder db key = entriesOf db key := by
  apply List.Pairwise.insertionSort_eq
  have hids : (entriesOf db key).Pairwise (fun a b => a.id < b.id) :=
    h.ids.sublist List.filter_sublist
  exact hids.imp Nat.le_of_lt

theorem Audited.auditTrail {db : Db} (h : Audited db) : AuditTrail db where
  trail := by
    intro r hr
    rw [h.logInIdOrder_eq]
    exact h.trail r.key r (KeyedTable.find?_eq_some_iff.mpr ⟨hr, rfl⟩)
  logged := by
    intro e he
    rcases h.logged e he with ⟨r, hr⟩
    exact ⟨r, KeyedTable.find?_eq_some_iff.mp hr⟩
  noted := by
    intro n hn
    rcases h.noted n hn with ⟨r, hr⟩
    exact ⟨r, KeyedTable.find?_eq_some_iff.mp hr⟩

theorem Audited.entriesOf_of_missing {db : Db} (h : Audited db) {key : String × String}
    (hfind : db.triage.find? key = none) : entriesOf db key = [] := by
  apply List.filter_eq_nil_iff.mpr
  intro e he hk
  rcases h.logged e he with ⟨r, hr⟩
  rw [of_decide_eq_true hk, hfind] at hr
  cases hr

theorem Audited.ids_insertLog {db : Db} (h : Audited db) (hostID eventID actor : String)
    (fromStatus toStatus : Option Status) (at_ : String) :
    (db.insertLog hostID eventID actor fromStatus toStatus at_).triageLog.Pairwise
        (fun a b => a.id < b.id) ∧
      forall e, e ∈ (db.insertLog hostID eventID actor fromStatus toStatus at_).triageLog ->
        e.id <= db.logSeq + 1 := by
  rw [insertLog_triageLog]
  constructor
  · refine List.pairwise_append.mpr ⟨h.ids, List.pairwise_singleton _ _, ?_⟩
    intro a ha b hb
    rw [List.mem_singleton.mp hb]
    exact Nat.lt_succ_of_le (h.bound a ha)
  · intro e he
    rcases List.mem_append.mp he with hold | hnew
    · exact Nat.le_succ_of_le (h.bound e hold)
    · rw [List.mem_singleton.mp hnew]
      exact Nat.le_refl _

theorem Audited.inserted {now : Int} {inp : UpsertInput} {d : Db}
    {t : KeyedTable SqlRow.key} (hd : Audited d)
    (h : (insertedRow now inp).status.isValid = true)
    (hfind : d.triage.find? inp.key = none)
    (hrows : t.rows = d.triage.rows ++ [storedRow (insertedRow now inp) h]) :
    Audited (({ d with triage := t } : Db).insertLog inp.hostID inp.eventID inp.actor none
      (some (insertedRow now inp).status) (formatTS now)) where
  trail := by
    intro key r hr
    rw [entriesOf_insertLog]
    rw [insertLog_triage, KeyedTable.find?_of_rows_append hrows] at hr
    by_cases hk : (inp.hostID, inp.eventID) = key
    · have hkey : (storedRow (insertedRow now inp) h).key = key := hk
      rw [if_pos hkey] at hr
      cases hr
      have hnone : entriesOf ({ d with triage := t } : Db) key = [] :=
        hd.entriesOf_of_missing (hk ▸ hfind)
      rw [if_pos hk, hnone]
      exact trailOf_first rfl rfl
    · have hkey : ¬ (storedRow (insertedRow now inp) h).key = key := hk
      rw [if_neg hkey] at hr
      rw [if_neg hk]
      exact hd.trail key r hr
  logged := by
    intro e he
    rw [insertLog_triage, KeyedTable.find?_of_rows_append hrows]
    rcases List.mem_append.mp he with hold | hnew
    · split
      · exact ⟨_, rfl⟩
      · exact hd.logged e hold
    · have hkey : (storedRow (insertedRow now inp) h).key = e.key := by
        rw [List.mem_singleton.mp hnew]
        rfl
      rw [if_pos hkey]
      exact ⟨_, rfl⟩
  noted := by
    intro n hn
    rw [insertLog_triage, KeyedTable.find?_of_rows_append hrows]
    split
    · exact ⟨_, rfl⟩
    · exact hd.noted n hn
  ids := (hd.ids_insertLog _ _ _ _ _ _).left
  bound := (hd.ids_insertLog _ _ _ _ _ _).right

theorem Audited.kept {d : Db} {key : String × String} {r : SqlRow} {status : Status}
    {h : status.isValid = true} {assignee : Option String} {updatedAt : String}
    (hd : Audited d) (hfind : d.triage.find? key = some r) (hsame : status = r.status) :
    Audited (d.updateRow key status h assignee updatedAt) where
  trail := by
    intro key' r' hr'
    show TrailOf (entriesOf d key') r'.status
    rw [find?_updateRow] at hr'
    by_cases hk : key' = key
    · rw [if_pos hk, hk, hfind] at hr'
      cases hr'
      show TrailOf (entriesOf d key') status
      rw [hsame, hk]
      exact hd.trail key r hfind
    · rw [if_neg hk] at hr'
      exact hd.trail key' r' hr'
  logged := fun e he => exists_find?_updateRow (hd.logged e he)
  noted := fun n hn => exists_find?_updateRow (hd.noted n hn)
  ids := hd.ids
  bound := hd.bound

theorem Audited.moved {d : Db} {hostID eventID actor at_ : String} {r : SqlRow}
    {status : Status} {h : status.isValid = true} {assignee : Option String}
    {updatedAt : String} (hd : Audited d)
    (hfind : d.triage.find? (hostID, eventID) = some r) (hne : r.status ≠ status) :
    Audited ((d.updateRow (hostID, eventID) status h assignee updatedAt).insertLog hostID
      eventID actor (some r.status) (some status) at_) where
  trail := by
    intro key r' hr'
    rw [insertLog_triage, find?_updateRow] at hr'
    rw [entriesOf_insertLog]
    by_cases hk : (hostID, eventID) = key
    · rw [if_pos hk.symm, ← hk, hfind] at hr'
      cases hr'
      rw [if_pos hk, ← hk]
      exact (hd.trail (hostID, eventID) r hfind).snoc rfl rfl hne
    · rw [if_neg (fun heq => hk heq.symm)] at hr'
      rw [if_neg hk]
      exact hd.trail key r' hr'
  logged := by
    intro e he
    rw [insertLog_triage]
    rcases List.mem_append.mp he with hold | hnew
    · exact exists_find?_updateRow (hd.logged e hold)
    · rw [List.mem_singleton.mp hnew]
      exact exists_find?_updateRow ⟨r, hfind⟩
  noted := fun n hn => exists_find?_updateRow (hd.noted n hn)
  ids := (hd.ids_insertLog hostID eventID actor (some r.status) (some status) at_).left
  bound := (hd.ids_insertLog hostID eventID actor (some r.status) (some status) at_).right

theorem Audited.insertNote {d : Db} {hostID eventID author body createdAt : String} {r : SqlRow}
    (hd : Audited d) (hfind : d.triage.find? (hostID, eventID) = some r) :
    Audited (d.insertNote hostID eventID author body createdAt) where
  trail := hd.trail
  logged := hd.logged
  noted := by
    intro n hn
    rcases List.mem_append.mp hn with hold | hnew
    · exact hd.noted n hold
    · rw [List.mem_singleton.mp hnew]
      exact ⟨r, hfind⟩
  ids := hd.ids
  bound := hd.bound

theorem Audited.effect {d d' : Db} {w : WriteCall} {a : Reply} (hd : Audited d)
    (h : w.Effect d a d') : Audited d' := by
  cases h with
  | upsert hup =>
      cases hup with
      | inserted hvalid hfind hrows => exact hd.inserted hvalid hfind hrows
      | kept hvalid hfind hchange => exact hd.kept hfind (updatedRow_status_kept hchange)
      | @moved r hvalid hfind hchange =>
          refine hd.moved hfind ?_
          rw [updatedRow_status_moved hchange]
          exact status_ne_of_statusChanges hchange
  | appendNote hfind => exact hd.insertNote hfind

theorem audited_run {fk : Bool} {calls : List Served} {c : Conn Db}
    (hrun : runSteps (serve fk) ⟨Db.empty, none⟩ calls = some c) :
    c.tx = none ∧ Audited c.committed := by
  refine run_invariant (P := fun c : Conn Db => c.tx = none ∧ Audited c.committed)
    ?_ ⟨rfl, audited_empty⟩ hrun
  intro c l c' hc hstep
  rcases c with ⟨d, tx⟩
  rcases hc with ⟨htx, hd⟩
  subst htx
  have hcases := serve_cases hstep
  constructor
  · exact hcases.left
  · rcases hcases.right with hsame | ⟨a, heff⟩
    · rw [hsame]
      exact hd
    · exact hd.effect heff

/-!
## Who wrote an entry
-/

/-- The entry records the move that an upsert made between two states. -/
structure RecordsMove (before after : Db) (inp : UpsertInput) (e : SqlLog) : Prop where
  key : e.key = inp.key
  actor : e.actor = inp.actor
  fromStatus : e.fromStatus = (before.triage.find? inp.key).map SqlRow.status
  toStatus : e.toStatus = (after.triage.find? inp.key).map SqlRow.status

theorem new_entry_records_move {d d' : Db} {w : WriteCall} {a : Reply} {e : SqlLog}
    (h : w.Effect d a d') (hnot : e ∉ d.triageLog) (he : e ∈ d'.triageLog) :
    exists now inp, w = .upsert now inp ∧ RecordsMove d d' inp e := by
  cases h with
  | @upsert now inp row _ hup =>
      refine ⟨now, inp, rfl, ?_⟩
      cases hup with
      | inserted hvalid hfind hrows =>
          rcases List.mem_append.mp he with hold | hnew
          · exact absurd hold hnot
          · cases List.mem_singleton.mp hnew
            refine ⟨rfl, rfl, ?_, ?_⟩
            · rw [hfind]
              rfl
            · rw [insertLog_triage, KeyedTable.find?_of_rows_append hrows,
                storedRow_insertedRow_key, if_pos rfl]
              rfl
      | kept hvalid hfind hchange => exact absurd he hnot
      | moved hvalid hfind hchange =>
          rcases List.mem_append.mp he with hold | hnew
          · exact absurd hold hnot
          · cases List.mem_singleton.mp hnew
            refine ⟨rfl, rfl, ?_, ?_⟩
            · rw [hfind]
              rfl
            · rw [insertLog_triage, find?_updateRow, if_pos rfl, hfind]
              rfl
  | appendNote hfind => exact absurd he hnot

/-- The call of the run that wrote a log entry. -/
def WrittenBy (fk : Bool) (calls : List Served) (e : SqlLog) : Prop :=
  exists front now inp faults back before after,
    calls = front ++ ⟨.upsert now inp, faults⟩ :: back ∧
    runSteps (serve fk) ⟨Db.empty, none⟩ front = some before ∧
    serve fk before ⟨.upsert now inp, faults⟩ = some after ∧
    e ∉ before.committed.triageLog ∧ e ∈ after.committed.triageLog ∧
    RecordsMove before.committed after.committed inp e

/-- Whatever calls are made and however they fail, the log is the history of the
rows, and each entry is due to the upsert whose actor it names. -/
theorem auditTrail_of_calls {fk : Bool} {calls : List Served} {c : Conn Db}
    (hrun : runSteps (serve fk) ⟨Db.empty, none⟩ calls = some c) :
    AuditTrail c.committed ∧
      forall e, e ∈ c.committed.triageLog -> WrittenBy fk calls e := by
  constructor
  · exact (audited_run hrun).right.auditTrail
  · intro e he
    have hfirst := run_first_holds (P := fun c : Conn Db => e ∈ c.committed.triageLog) hrun
      (fun hempty => by cases hempty) he
    rcases hfirst with ⟨front, l, back, before, after, hcalls, hfront, hstep, hnot, hmem⟩
    rcases before with ⟨d, tx⟩
    have htx : tx = none := (audited_run hfront).left
    subst htx
    rcases (serve_cases hstep).right with hsame | ⟨a, heff⟩
    · rw [hsame] at hmem
      exact absurd hmem hnot
    · rcases new_entry_records_move heff hnot hmem with ⟨now, inp, hw, hmove⟩
      rcases l with ⟨w, faults⟩
      cases hw
      exact ⟨front, now, inp, faults, back, ⟨d, none⟩, after, hcalls, hfront, hstep, hnot, hmem,
        hmove⟩

def openAndResolve : List Served :=
  [⟨.upsert 0 ⟨"h", "e", noStatus, none, false, [123, 125], "ana"⟩, Prog.noFaults⟩,
    ⟨.upsert 1 ⟨"h", "e", statusResolved, none, false, [], "bo"⟩, Prog.noFaults⟩,
    ⟨.appendNote 2 "h" "e" "bo" "done", Prog.noFaults⟩]

theorem auditTrail_of_openAndResolve :
    exists c, runSteps (serve true) ⟨Db.empty, none⟩ openAndResolve = some c ∧
      c.committed.triageLog.length = 2 ∧ AuditTrail c.committed ∧
      forall e, e ∈ c.committed.triageLog -> WrittenBy true openAndResolve e := by
  have hrun : exists c, runSteps (serve true) ⟨Db.empty, none⟩ openAndResolve = some c ∧
      c.committed.triageLog.length = 2 := ⟨_, rfl, rfl⟩
  rcases hrun with ⟨c, hc, hlen⟩
  exact ⟨c, hc, hlen, auditTrail_of_calls hc⟩

end Triage
end LodelineManager
