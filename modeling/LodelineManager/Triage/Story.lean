import LodelineManager.Triage.PartialUpdate

/-!
# What a store tells

The tables without the numbers of their lines, and what a write is for: an upsert lays
its fields over the row and logs the move, a note is one line more.
-/

namespace LodelineManager
namespace Triage

open Foundation SingleConnection Go

/-- A row of {lit}`triage` under its key. -/
structure AlertTold where
  status : Status
  assignee : Option String
  evidenceSnapshot : RawMessage
  createdAt : String
  updatedAt : String
  deriving DecidableEq

structure LogTold where
  key : String × String
  actor : String
  fromStatus : Option Status
  toStatus : Option Status
  at_ : String
  deriving DecidableEq

structure NoteTold where
  key : String × String
  author : String
  body : String
  createdAt : String
  deriving DecidableEq

@[ext] structure Story where
  alert : String × String -> Option AlertTold
  log : List LogTold
  notes : List NoteTold

def SqlRow.told (r : SqlRow) : AlertTold :=
  { status := r.status, assignee := r.assignee, evidenceSnapshot := r.evidenceSnapshot
    createdAt := r.createdAt, updatedAt := r.updatedAt }

def SqlLog.told (e : SqlLog) : LogTold :=
  { key := e.key, actor := e.actor, fromStatus := e.fromStatus, toStatus := e.toStatus
    at_ := e.at_ }

def SqlNote.told (n : SqlNote) : NoteTold :=
  { key := n.key, author := n.author, body := n.body, createdAt := n.createdAt }

def Db.story (d : Db) : Story :=
  { alert := fun key => (d.triage.find? key).map SqlRow.told
    log := d.triageLog.map SqlLog.told
    notes := d.triageNotes.map SqlNote.told }

/-!
## One write
-/

/-- The row that an upsert makes of what was there. -/
def AlertTold.after (now : Int) (inp : UpsertInput) : Option AlertTold -> AlertTold
  | none =>
      { status := if inp.status = noStatus then statusOpen else inp.status
        assignee := inp.assignee
        evidenceSnapshot := inp.evidenceSnapshot
        createdAt := formatTS now
        updatedAt := formatTS now }
  | some a =>
      { a with
        status := if inp.status = noStatus then a.status else inp.status
        assignee := if inp.clearAssignee then none else inp.assignee.or a.assignee
        updatedAt := formatTS now }

def moveTold (now : Int) (inp : UpsertInput) (old : Option AlertTold) (new : AlertTold) :
    List LogTold :=
  if old.map AlertTold.status = some new.status then []
  else
    [{ key := inp.key, actor := inp.actor, fromStatus := old.map AlertTold.status
       toStatus := some new.status, at_ := formatTS now }]

def Story.after (s : Story) : WriteCall -> Story
  | .upsert now inp =>
      let old := s.alert inp.key
      let new := AlertTold.after now inp old
      { s with
        alert := Function.update s.alert inp.key (some new)
        log := s.log ++ moveTold now inp old new }
  | .appendNote now hostID eventID author body =>
      { s with
        notes := s.notes ++ [{ key := (hostID, eventID), author := author, body := body
                               createdAt := formatTS now }] }

/-!
## The tables follow the story
-/

theorem told_partialUpdate {now : Int} {inp : UpsertInput} {existing : Option SqlRow}
    {r : SqlRow} (hholds : r.Holds (partialUpdate now inp (existing.map scanRow)))
    (hupdated : r.updatedAt = formatTS now)
    (hcreated : r.createdAt = (existing.map SqlRow.createdAt).getD (formatTS now)) :
    r.told = AlertTold.after now inp (existing.map SqlRow.told) := by
  rcases hholds with ⟨_, _, hstatus, hassignee, hsnapshot, _⟩
  unfold SqlRow.told
  rw [hstatus, hassignee, hsnapshot, hupdated, hcreated]
  cases existing with
  | none => rfl
  | some old => rfl

theorem status_partialUpdate (now : Int) (inp : UpsertInput) (existing : Option SqlRow) :
    (partialUpdate now inp (existing.map scanRow)).status =
      (AlertTold.after now inp (existing.map SqlRow.told)).status := by
  cases existing with
  | none => rfl
  | some old => rfl

theorem moveTold_eq (now : Int) (inp : UpsertInput) (d : Db) (existing : Option SqlRow) :
    (((transition (existing.map scanRow) (partialUpdate now inp (existing.map scanRow))).map
      (fun fromStatus => newEntry d inp.hostID inp.eventID inp.actor fromStatus
        (some (partialUpdate now inp (existing.map scanRow)).status)
        (formatTS now))).toList).map SqlLog.told =
      moveTold now inp (existing.map SqlRow.told)
        (AlertTold.after now inp (existing.map SqlRow.told)) := by
  have hold : (existing.map scanRow).map Row.status =
      (existing.map SqlRow.told).map AlertTold.status := by
    cases existing with
    | none => rfl
    | some old => rfl
  unfold transition moveTold
  rw [status_partialUpdate, hold]
  split
  · rfl
  · rfl

theorem Upserted.story {now : Int} {inp : UpsertInput} {d d' : Db} {row : Row}
    (h : Upserted now inp d row d') : d'.story = d.story.after (.upsert now inp) := by
  rcases h.partiallyUpdated with ⟨hrow, hupdated⟩
  rw [hrow] at hupdated
  rcases hupdated.stored with ⟨r, hr, hholds, hstamp, hcreated, _⟩
  apply Story.ext
  · funext key
    show (d'.triage.find? key).map SqlRow.told =
      Function.update d.story.alert inp.key
        (some (AlertTold.after now inp ((d.triage.find? inp.key).map SqlRow.told))) key
    by_cases hkey : key = inp.key
    · rw [hkey, Function.update_self, hr]
      exact congrArg some (told_partialUpdate hholds hstamp hcreated)
    · rw [Function.update_of_ne hkey, hupdated.others key hkey]
      rfl
  · show d'.triageLog.map SqlLog.told = d.triageLog.map SqlLog.told ++ _
    rw [hupdated.logged, List.map_append, moveTold_eq]
    rfl
  · exact congrArg (List.map SqlNote.told) hupdated.noted

theorem WriteCall.Effect.story {d d' : Db} {w : WriteCall} {reply : Reply}
    (h : w.Effect d reply d') : d'.story = d.story.after w := by
  cases h with
  | upsert hup => exact hup.story
  | appendNote hfind =>
      unfold Db.story Db.insertNote Story.after
      rw [List.map_append]
      rfl

/-- The writes took effect one after the other between two contents. -/
inductive Written : Db -> List WriteCall -> Db -> Prop where
  | nil (d : Db) : Written d [] d
  | concat {d mid d' : Db} {calls : List WriteCall} {w : WriteCall} {reply : Reply} :
      Written d calls mid -> w.Effect mid reply d' -> Written d (calls ++ [w]) d'

theorem Written.story {d d' : Db} {calls : List WriteCall} (h : Written d calls d') :
    d'.story = calls.foldl Story.after d.story := by
  induction h with
  | nil => rfl
  | concat _ heffect ih =>
      rw [heffect.story, ih, List.foldl_append, List.foldl_cons, List.foldl_nil]

end Triage
end LodelineManager
