import LodelineManager.Triage.CommitOrder
import LodelineManager.Web.Notes

/-!
# The note form

The slide-over holds one mutation of each kind.  To start one while an earlier is
pending makes the component forget the earlier, whose request goes on.  The button of
the note form is disabled while a note is pending; Enter submits all the same.
-/

namespace LodelineManager
namespace Web

open Foundation SingleConnection Triage

/-!
## The component and its mutations
-/

/-- A mutation that the component has started, the draft that its note was composed in,
and whether the server has let it succeed. -/
structure Mutation where
  payload : Payload
  draft : Option Nat
  reply : Option Bool

/-- {lit}`upsert` is the pending upsert, with the note that its {lit}`onSuccess` appends and
the draft of that note; {lit}`appendNote` is the pending note. -/
structure NoteForm where
  event : EventWithTriage
  noteDraft : String
  draft : Nat
  upsert : Option (Nat × Option (NotePayload × Nat))
  appendNote : Option Nat

/-- A browser tab and the tables.  Mutations are numbered, and so are drafts: a draft lasts
until the form clears the field or goes away, however it is edited.  {lit}`origin` gives the
draft of a row of {lit}`triage_notes`. -/
structure NoteTab where
  form : Option NoteForm
  details : String × String -> DetailQuery
  mutations : Nat -> Option Mutation
  started : Nat
  composed : Nat
  db : Db
  origin : Nat -> Option Nat

/-- {lit}`enter` and {lit}`click` are the two ways to submit a note, and {lit}`save` is a
status button or the assignee form.  The server comes to a request with {lit}`handle`, and
{lit}`answer` brings the response. -/
inductive NoteLabel where
  | openEvent (event : EventWithTriage)
  | close
  | detail (key : String × String) (q : DetailQuery)
  | type (value : String)
  | enter
  | click
  | save (p : UpsertPayload)
  | handle (i : Nat) (now : Int) (subject : String) (faults : Nat -> Option SqlErr)
  | answer (i : Nat)
  | other (call : Served)

namespace NoteTab

def start (details : String × String -> DetailQuery) : NoteTab :=
  { form := none, details := details, mutations := fun _ => none, started := 0, composed := 0,
    db := Db.empty, origin := fun _ => none }

def triage (s : NoteTab) (b : NoteForm) : DetailOrNull :=
  useTriageDetailOrNull (s.details b.event.key)

def withForm (s : NoteTab) (b : NoteForm) : NoteTab := { s with form := some b }

def openEvent (s : NoteTab) (event : EventWithTriage) : NoteTab :=
  match s.form with
  | none =>
      { s with
        form := some { event := event, noteDraft := "", draft := s.composed, upsert := none,
                       appendNote := none }
        composed := s.composed + 1 }
  | some b => s.withForm { b with event := event }

def mutate (s : NoteTab) (p : Payload) (draft : Option Nat) : NoteTab :=
  { s with
    mutations := Function.update s.mutations s.started (some ⟨p, draft, none⟩)
    started := s.started + 1 }

def submitNote (s : NoteTab) (b : NoteForm) : NoteTab :=
  match onSubmitNote b.event (s.triage b) b.noteDraft with
  | .ignored => s
  | .append note =>
      (s.mutate (.note note) (some b.draft)).withForm { b with appendNote := some s.started }
  | .createFirst row note =>
      (s.mutate (.upsert row) none).withForm
        { b with upsert := some (s.started, some (note, b.draft)) }

/-- {lit}`appendNote.isPending || !noteDraft.trim()`. -/
def disabled (b : NoteForm) : Bool := b.appendNote.isSome || decide (trim b.noteDraft = "")

def store (s : NoteTab) (db : Db) (draft : Option Nat) : NoteTab :=
  { s with
    db := db
    origin :=
      if db.noteSeq = s.db.noteSeq then s.origin
      else Function.update s.origin db.noteSeq draft }

def setMutation (s : NoteTab) (i : Nat) (x : Option Mutation) : NoteTab :=
  { s with mutations := Function.update s.mutations i x }

def handle (s : NoteTab) (i : Nat) (m : Mutation) (now : Int) (subject : String)
    (faults : Nat -> Option SqlErr) : NoteTab :=
  match m.payload.handle now subject with
  | .error _ => s.setMutation i (some { m with reply := some false })
  | .ok call =>
      let out := call.prog.run (engine true) faults ⟨s.db, none⟩
      (s.setMutation i (some { m with reply := some out.1.isOk })).store out.2.committed m.draft

def noteAnswered (s : NoteTab) (b : NoteForm) (ok : Bool) : NoteTab :=
  if ok then
    { s with
      form := some { b with noteDraft := "", draft := s.composed, appendNote := none }
      composed := s.composed + 1 }
  else s.withForm { b with appendNote := none }

def upsertAnswered (s : NoteTab) (b : NoteForm) (waiting : Option (NotePayload × Nat))
    (ok : Bool) : NoteTab :=
  match waiting, ok with
  | some (note, draft), true =>
      (s.mutate (.note note) (some draft)).withForm
        { b with upsert := none, appendNote := some s.started }
  | _, _ => s.withForm { b with upsert := none }

def answer (s : NoteTab) (i : Nat) (ok : Bool) : NoteTab :=
  match s.form with
  | none => s
  | some b =>
      if b.appendNote = some i then s.noteAnswered b ok
      else
        match b.upsert with
        | none => s
        | some (j, waiting) => if j = i then s.upsertAnswered b waiting ok else s

def step (s : NoteTab) : NoteLabel -> Option NoteTab
  | .openEvent event => some (s.openEvent event)
  | .close => some { s with form := none }
  | .detail key q => some { s with details := Function.update s.details key q }
  | .type value => s.form.map (fun b => s.withForm { b with noteDraft := value })
  | .enter => s.form.map s.submitNote
  | .click =>
      match s.form with
      | none => none
      | some b => if disabled b then none else some (s.submitNote b)
  | .save p =>
      match s.form with
      | none => none
      | some b =>
          if b.upsert.isSome then none
          else
            some ((s.mutate (.upsert p) none).withForm { b with upsert := some (s.started, none) })
  | .handle i now subject faults =>
      match s.mutations i with
      | some ⟨p, draft, none⟩ => some (s.handle i ⟨p, draft, none⟩ now subject faults)
      | _ => none
  | .answer i =>
      match s.mutations i with
      | some ⟨_, _, some ok⟩ => some ((s.setMutation i none).answer i ok)
      | _ => none
  | .other call =>
      some (s.store (call.call.prog.run (engine true) call.faults ⟨s.db, none⟩).2.committed none)

/-- The rows of {lit}`triage_notes` that were composed as the draft. -/
def rowsOf (s : NoteTab) (d : Nat) : List SqlNote :=
  s.db.triageNotes.filter (fun n => decide (s.origin n.id = some d))

end NoteTab

def NoteLabel.Submits : NoteLabel -> Prop
  | .enter => True
  | .click => True
  | _ => False

/-- A note that would be submitted now is not about to be added: none is pending, and an
upsert that has one to follow it is pending only as long as no detail has arrived. -/
def NoteTab.Quiet (s : NoteTab) : Prop :=
  forall b, s.form = some b -> trim b.noteDraft ≠ "" ->
    b.appendNote = none ∧
      forall i waiting, b.upsert = some (i, some waiting) -> (s.triage b).data = none

/-!
## Drafts that were sent
-/

theorem onSubmitNote_append {event : EventWithTriage} {triage : DetailOrNull} {draft : String}
    {note : NotePayload} (h : onSubmitNote event triage draft = .append note) :
    trim draft ≠ "" ∧ triage.data ≠ none := by
  unfold onSubmitNote at h
  simp only at h
  split at h
  · cases h
  · rename_i hread
    split at h
    · cases h
    · rename_i hdata
      exact ⟨hread, fun hnone => hdata (Option.isNone_iff_eq_none.mpr hnone)⟩

theorem onSubmitNote_createFirst_read {event : EventWithTriage} {triage : DetailOrNull}
    {draft : String} {row : UpsertPayload} {note : NotePayload}
    (h : onSubmitNote event triage draft = .createFirst row note) : trim draft ≠ "" := by
  intro hblank
  unfold onSubmitNote at h
  simp only [hblank, if_true] at h
  cases h

namespace NoteTab

/-- A note of the draft is in a request that the server has not come to. -/
def OnItsWay (s : NoteTab) (i d : Nat) : Prop := exists p, s.mutations i = some ⟨p, some d, none⟩

/-- The draft is in the table or may come to be there without being submitted again. -/
def Sent (s : NoteTab) (d : Nat) : Prop := s.rowsOf d ≠ [] ∨ exists i, s.OnItsWay i d

structure Once (s : NoteTab) : Prop where
  rows : forall d, (s.rowsOf d).length <= 1
  first : forall i d, s.OnItsWay i d -> s.rowsOf d = []
  single : forall i j d, s.OnItsWay i d -> s.OnItsWay j d -> i = j

/-- The numbers that are in use have been given out. -/
structure Numbered (s : NoteTab) : Prop where
  mutations : forall i m, s.mutations i = some m -> i < s.started
  notes : forall n, n ∈ s.db.triageNotes -> n.id <= s.db.noteSeq
  origins : forall n d, s.origin n = some d -> n <= s.db.noteSeq
  sent : forall d, s.Sent d -> d < s.composed

/-- What the component knows about its draft. -/
structure Follows (s : NoteTab) (b : NoteForm) : Prop where
  draft : b.draft < s.composed
  note : forall i, b.appendNote = some i ->
    exists m, s.mutations i = some m ∧ m.draft = some b.draft
  sent : s.Sent b.draft ->
    exists i m, b.appendNote = some i ∧ s.mutations i = some m ∧ m.reply ≠ some false
  waiting : forall i note d, b.upsert = some (i, some (note, d)) ->
    d = b.draft ∧ b.appendNote = none

structure Sound (s : NoteTab) : Prop where
  once : s.Once
  numbered : s.Numbered
  follows : forall b, s.form = some b -> s.Follows b

section

variable {s s' : NoteTab} {b : NoteForm} {p : Payload} {draft : Option Nat} {i j d : Nat}

theorem sent_of_onItsWay (h : s.OnItsWay i d) : s.Sent d := Or.inr ⟨i, h⟩

theorem rows_of_not_sent (h : ¬ s.Sent d) : s.rowsOf d = [] :=
  not_not.mp (fun hrows => h (Or.inl hrows))

theorem Follows.not_sent (h : s.Follows b) (hnone : b.appendNote = none) : ¬ s.Sent b.draft := by
  intro hsent
  rcases h.sent hsent with ⟨i, m, hi, _, _⟩
  rw [hnone] at hi
  cases hi

/-!
### Starting a mutation
-/

theorem onItsWay_mutate (h : (s.mutate p draft).OnItsWay i d) :
    s.OnItsWay i d ∨ i = s.started ∧ draft = some d := by
  rcases h with ⟨q, hq⟩
  change Function.update s.mutations s.started (some ⟨p, draft, none⟩) i = _ at hq
  rw [Function.update_apply] at hq
  split at hq
  · rename_i hnew
    cases hq
    exact Or.inr ⟨hnew, rfl⟩
  · exact Or.inl ⟨q, hq⟩

theorem sent_mutate (h : (s.mutate p draft).Sent d) : s.Sent d ∨ draft = some d := by
  rcases h with hrows | ⟨i, hi⟩
  · exact Or.inl (Or.inl hrows)
  · rcases onItsWay_mutate hi with hold | ⟨_, hdraft⟩
    · exact Or.inl (sent_of_onItsWay hold)
    · exact Or.inr hdraft

theorem mutations_mutate {m : Mutation} (hs : s.Numbered) (h : s.mutations i = some m) :
    (s.mutate p draft).mutations i = some m :=
  (Function.update_of_ne (Nat.ne_of_lt (hs.mutations i m h)) _ _).trans h

theorem mutations_mutate_started :
    (s.mutate p draft).mutations s.started = some ⟨p, draft, none⟩ :=
  Function.update_self _ _ _

theorem Once.mutate (hs : s.Once) (hnew : forall d, draft = some d -> ¬ s.Sent d) :
    (s.mutate p draft).Once where
  rows := hs.rows
  first := by
    intro i d hi
    rcases onItsWay_mutate hi with hold | ⟨_, hdraft⟩
    · exact hs.first i d hold
    · have hrows : s.rowsOf d = [] := rows_of_not_sent (hnew d hdraft)
      exact hrows
  single := by
    intro i j d hi hj
    rcases onItsWay_mutate hi with hi | ⟨hi, hdraft⟩
    · rcases onItsWay_mutate hj with hj | ⟨_, hdraft⟩
      · exact hs.single i j d hi hj
      · exact absurd (sent_of_onItsWay hi) (hnew d hdraft)
    · rcases onItsWay_mutate hj with hj | ⟨hj, _⟩
      · exact absurd (sent_of_onItsWay hj) (hnew d hdraft)
      · exact hi.trans hj.symm

theorem Numbered.mutate (hs : s.Numbered) (hdraft : forall d, draft = some d -> d < s.composed) :
    (s.mutate p draft).Numbered where
  mutations := by
    intro i m hm
    change Function.update s.mutations s.started (some ⟨p, draft, none⟩) i = some m at hm
    rw [Function.update_apply] at hm
    split at hm
    · rename_i hi
      rw [hi]
      exact Nat.lt_succ_self s.started
    · exact Nat.lt_succ_of_lt (hs.mutations i m hm)
  notes := hs.notes
  origins := hs.origins
  sent := by
    intro d hd
    rcases sent_mutate hd with hold | hnew
    · exact hs.sent d hold
    · exact hdraft d hnew

/-!
### The server's turn, and the answer
-/

theorem onItsWay_setMutation {x : Option Mutation}
    (hx : forall q e, x ≠ some ⟨q, some e, none⟩) (h : (s.setMutation i x).OnItsWay j d) :
    j ≠ i ∧ s.OnItsWay j d := by
  rcases h with ⟨q, hq⟩
  change Function.update s.mutations i x j = _ at hq
  rw [Function.update_apply] at hq
  split at hq
  · exact absurd hq (hx q d)
  · rename_i hne
    exact ⟨hne, q, hq⟩

theorem sent_setMutation {x : Option Mutation} (hx : forall q e, x ≠ some ⟨q, some e, none⟩)
    (h : (s.setMutation i x).Sent d) : s.Sent d := by
  rcases h with hrows | ⟨j, hj⟩
  · exact Or.inl hrows
  · exact sent_of_onItsWay (onItsWay_setMutation hx hj).right

theorem Once.not_sent_setMutation {x : Option Mutation} (hs : s.Once)
    (hx : forall q e, x ≠ some ⟨q, some e, none⟩) (h : s.OnItsWay i d) :
    ¬ (s.setMutation i x).Sent d := by
  intro hsent
  rcases hsent with hrows | ⟨j, hj⟩
  · exact hrows (hs.first i d h)
  · rcases onItsWay_setMutation hx hj with ⟨hne, hold⟩
    exact hne (hs.single j i d hold h)

theorem Once.setMutation {x : Option Mutation} (hs : s.Once)
    (hx : forall q e, x ≠ some ⟨q, some e, none⟩) : (s.setMutation i x).Once where
  rows := hs.rows
  first := fun j d hj => hs.first j d (onItsWay_setMutation hx hj).right
  single := fun j k d hj hk =>
    hs.single j k d (onItsWay_setMutation hx hj).right (onItsWay_setMutation hx hk).right

theorem Numbered.setMutation {x : Option Mutation} (hs : s.Numbered) (hi : i < s.started)
    (hx : forall q e, x ≠ some ⟨q, some e, none⟩) : (s.setMutation i x).Numbered where
  mutations := by
    intro j m hm
    change Function.update s.mutations i x j = some m at hm
    rw [Function.update_apply] at hm
    split at hm
    · rename_i hj
      rw [hj]
      exact hi
    · exact hs.mutations j m hm
  notes := hs.notes
  origins := hs.origins
  sent := fun d hd => hs.sent d (sent_setMutation hx hd)

/-- What a call does to {lit}`triage_notes`: nothing, or one more row. -/
def NotesMoved (db db' : Db) : Prop :=
  db'.triageNotes = db.triageNotes ∧ db'.noteSeq = db.noteSeq ∨
    exists n : SqlNote, n.id = db.noteSeq + 1 ∧ db'.triageNotes = db.triageNotes ++ [n] ∧
      db'.noteSeq = db.noteSeq + 1

theorem notesMoved_effect {w : WriteCall} {a : Reply} {db db' : Db} (h : w.Effect db a db') :
    NotesMoved db db' := by
  cases h with
  | upsert hup => cases hup <;> exact Or.inl ⟨rfl, rfl⟩
  | appendNote hfind => exact Or.inr ⟨_, rfl, rfl, rfl⟩

theorem store_same : s.store s.db draft = s := by
  have horigin : (s.store s.db draft).origin = s.origin := if_pos rfl
  cases s
  exact congrArg (NoteTab.mk _ _ _ _ _ _) horigin

theorem rowsOf_store {db : Db} (hs : s.Numbered) (hmoved : NotesMoved s.db db) :
    (s.store db draft).rowsOf d = s.rowsOf d ∨
      draft = some d ∧ exists n, (s.store db draft).rowsOf d = s.rowsOf d ++ [n] := by
  rcases hmoved with ⟨hnotes, hseq⟩ | ⟨n, hid, hnotes, hseq⟩
  · have horigin : (s.store db draft).origin = s.origin := if_pos hseq
    apply Or.inl
    change db.triageNotes.filter (fun n => decide ((s.store db draft).origin n.id = some d)) = _
    rw [horigin, hnotes]
    rfl
  · have horigin : (s.store db draft).origin = Function.update s.origin db.noteSeq draft :=
      if_neg (fun heq => Nat.succ_ne_self s.db.noteSeq (hseq.symm.trans heq))
    have hold : forall m, m ∈ s.db.triageNotes ->
        (s.store db draft).origin m.id = s.origin m.id := by
      intro m hm
      rw [horigin, hseq]
      exact Function.update_of_ne (Nat.ne_of_lt (Nat.lt_succ_of_le (hs.notes m hm))) _ _
    have hnew : (s.store db draft).origin n.id = draft := by
      rw [horigin, hid, hseq]
      exact Function.update_self _ _ _
    have hrows : (s.store db draft).rowsOf d =
        s.rowsOf d ++ [n].filter (fun m => decide ((s.store db draft).origin m.id = some d)) := by
      change db.triageNotes.filter _ = _
      rw [hnotes, List.filter_append]
      congr 1
      apply List.filter_congr
      intro m hm
      rw [hold m hm]
    rw [hrows, List.filter_singleton, hnew]
    cases hd : decide (draft = some d) with
    | false => exact Or.inl (List.append_nil _)
    | true => exact Or.inr ⟨of_decide_eq_true hd, n, rfl⟩

theorem sent_store {db : Db} (hs : s.Numbered) (hmoved : NotesMoved s.db db)
    (h : (s.store db draft).Sent d) : s.Sent d ∨ draft = some d := by
  rcases h with hrows | ⟨i, hi⟩
  · rcases rowsOf_store hs hmoved with hsame | ⟨hdraft, _⟩
    · rw [hsame] at hrows
      exact Or.inl (Or.inl hrows)
    · exact Or.inr hdraft
  · exact Or.inl (sent_of_onItsWay (i := i) hi)

theorem Once.store {db : Db} (hs : s.Once) (hnum : s.Numbered) (hmoved : NotesMoved s.db db)
    (hnew : forall d, draft = some d -> ¬ s.Sent d) : (s.store db draft).Once where
  rows := by
    intro d
    rcases rowsOf_store hnum hmoved with hsame | ⟨hdraft, n, hrow⟩
    · rw [hsame]
      exact hs.rows d
    · rw [hrow, rows_of_not_sent (hnew d hdraft)]
      exact Nat.le_refl 1
  first := by
    intro i d hi
    rcases rowsOf_store hnum hmoved with hsame | ⟨hdraft, n, hrow⟩
    · rw [hsame]
      exact hs.first i d hi
    · exact absurd (sent_of_onItsWay (s := s) hi) (hnew d hdraft)
  single := fun i j d hi hj => hs.single i j d hi hj

theorem Numbered.store {db : Db} (hs : s.Numbered) (hmoved : NotesMoved s.db db)
    (hdraft : forall d, draft = some d -> d < s.composed) : (s.store db draft).Numbered where
  mutations := hs.mutations
  notes := by
    intro n hn
    change n.id <= db.noteSeq
    change n ∈ db.triageNotes at hn
    rcases hmoved with ⟨hnotes, hseq⟩ | ⟨new, hid, hnotes, hseq⟩
    · rw [hnotes] at hn
      rw [hseq]
      exact hs.notes n hn
    · rw [hnotes] at hn
      rw [hseq]
      rcases List.mem_append.mp hn with hold | hlast
      · exact Nat.le_succ_of_le (hs.notes n hold)
      · rw [List.mem_singleton.mp hlast, hid]
  origins := by
    intro n d hd
    change n <= db.noteSeq
    have hle : s.db.noteSeq <= db.noteSeq := by
      rcases hmoved with ⟨_, hseq⟩ | ⟨_, _, _, hseq⟩
      · exact Nat.le_of_eq hseq.symm
      · rw [hseq]
        exact Nat.le_succ _
    change (if db.noteSeq = s.db.noteSeq then s.origin
      else Function.update s.origin db.noteSeq draft) n = some d at hd
    split at hd
    · exact Nat.le_trans (hs.origins n d hd) hle
    · rw [Function.update_apply] at hd
      split at hd
      · rename_i hn
        exact Nat.le_of_eq hn
      · exact Nat.le_trans (hs.origins n d hd) hle
  sent := by
    intro d hd
    rcases sent_store hs hmoved hd with hold | hnew
    · exact hs.sent d hold
    · exact hdraft d hnew

/-!
### Steps
-/

theorem Follows.frame (h : s.Follows b) (hle : s.composed <= s'.composed)
    (hnote : forall i m, b.appendNote = some i -> s.mutations i = some m ->
      s'.mutations i = some m)
    (hsent : s'.Sent b.draft -> s.Sent b.draft) : s'.Follows b where
  draft := Nat.lt_of_lt_of_le h.draft hle
  note := by
    intro i hi
    rcases h.note i hi with ⟨m, hm, hdraft⟩
    exact ⟨m, hnote i m hi hm, hdraft⟩
  sent := by
    intro hd
    rcases h.sent (hsent hd) with ⟨i, m, hi, hm, hreply⟩
    exact ⟨i, m, hi, hnote i m hi hm, hreply⟩
  waiting := h.waiting

theorem sound_start (details : String × String -> DetailQuery) : (start details).Sound where
  once :=
    { rows := fun _ => Nat.zero_le 1
      first := by
        intro i d hi
        rcases hi with ⟨p, hp⟩
        cases hp
      single := by
        intro i j d hi
        rcases hi with ⟨p, hp⟩
        cases hp }
  numbered :=
    { mutations := by
        intro i m hm
        cases hm
      notes := by
        intro n hn
        cases hn
      origins := by
        intro n d hd
        cases hd
      sent := by
        intro d hd
        rcases hd with hrows | ⟨i, p, hp⟩
        · exact absurd rfl hrows
        · cases hp }
  follows := by
    intro b hb
    cases hb

theorem Sound.setForm (honce : s.Once) (hnum : s.Numbered) {form : Option NoteForm}
    (hform : forall b, form = some b -> s.Follows b) (details : String × String -> DetailQuery) :
    ({ s with form := form, details := details } : NoteTab).Sound where
  once := ⟨honce.rows, honce.first, honce.single⟩
  numbered := ⟨hnum.mutations, hnum.notes, hnum.origins, hnum.sent⟩
  follows := by
    intro b hb
    have hsame := hform b hb
    exact ⟨hsame.draft, hsame.note, hsame.sent, hsame.waiting⟩

theorem Sound.withForm (honce : s.Once) (hnum : s.Numbered) (hb : s.Follows b) :
    (s.withForm b).Sound := by
  apply Sound.setForm honce hnum _ s.details
  intro b' hb'
  cases hb'
  exact hb

theorem Sound.compose (honce : s.Once) (hnum : s.Numbered) (hdraft : b.draft = s.composed)
    (hnote : b.appendNote = none) (hwaiting : forall i w, b.upsert ≠ some (i, some w)) :
    ({ s with form := some b, composed := s.composed + 1 } : NoteTab).Sound where
  once := ⟨honce.rows, honce.first, honce.single⟩
  numbered := ⟨hnum.mutations, hnum.notes, hnum.origins,
    fun d hd => Nat.lt_succ_of_lt (hnum.sent d hd)⟩
  follows := by
    intro b' hb'
    cases hb'
    constructor
    · show b.draft < s.composed + 1
      rw [hdraft]
      exact Nat.lt_succ_self _
    · intro i hi
      rw [hnote] at hi
      cases hi
    · intro hsent
      have hlt := hnum.sent b.draft hsent
      rw [hdraft] at hlt
      exact absurd hlt (Nat.lt_irrefl _)
    · intro i note d hi
      exact absurd hi (hwaiting i (note, d))

theorem sound_openEvent (hs : s.Sound) (event : EventWithTriage) : (s.openEvent event).Sound := by
  unfold openEvent
  cases hform : s.form with
  | none =>
      apply Sound.compose hs.once hs.numbered rfl rfl
      intro i w hw
      cases hw
  | some b =>
      have hb := hs.follows b hform
      exact Sound.withForm hs.once hs.numbered ⟨hb.draft, hb.note, hb.sent, hb.waiting⟩

theorem Sound.startUpsert (hs : s.Sound) (hform : s.form = some b)
    {w : Option (NotePayload × Nat)}
    (hw : forall note d, w = some (note, d) -> d = b.draft ∧ b.appendNote = none) :
    ((s.mutate p none).withForm { b with upsert := some (s.started, w) }).Sound := by
  have hsame : (s.mutate p none).Sent b.draft -> s.Sent b.draft := by
    intro hsent
    rcases sent_mutate hsent with hold | hnew
    · exact hold
    · cases hnew
  have hb : (s.mutate p none).Follows b :=
    (hs.follows b hform).frame (Nat.le_refl _) (fun _ _ _ hm => mutations_mutate hs.numbered hm)
      hsame
  have hnone : forall d, (none : Option Nat) = some d -> ¬ s.Sent d := by
    intro d hd
    cases hd
  apply Sound.withForm (hs.once.mutate hnone) (hs.numbered.mutate (fun d hd => by cases hd))
  refine ⟨hb.draft, hb.note, hb.sent, ?_⟩
  intro i note d hi
  cases hi
  exact hw note d rfl

theorem Sound.startNote (hs : s.Sound) (hform : s.form = some b) (hnone : b.appendNote = none)
    {upsert : Option (Nat × Option (NotePayload × Nat))}
    (hupsert : forall i w, upsert ≠ some (i, some w)) :
    ((s.mutate p (some b.draft)).withForm
      { b with upsert := upsert, appendNote := some s.started }).Sound := by
  have hb := hs.follows b hform
  have hnew : forall d, some b.draft = some d -> ¬ s.Sent d := by
    intro d hd
    cases hd
    exact hb.not_sent hnone
  have hdraft : forall d, some b.draft = some d -> d < s.composed := by
    intro d hd
    cases hd
    exact hb.draft
  apply Sound.withForm (hs.once.mutate hnew) (hs.numbered.mutate hdraft)
  constructor
  · exact hb.draft
  · intro i hi
    cases hi
    exact ⟨_, mutations_mutate_started, rfl⟩
  · intro _
    exact ⟨s.started, _, rfl, mutations_mutate_started, fun hreply => by cases hreply⟩
  · intro i note d hi
    exact absurd hi (hupsert i (note, d))

theorem sound_submitNote (hs : s.Sound) (hform : s.form = some b) (hquiet : s.Quiet) :
    (s.submitNote b).Sound := by
  unfold submitNote
  cases hsubmit : onSubmitNote b.event (s.triage b) b.noteDraft with
  | ignored => exact hs
  | append note =>
      rcases onSubmitNote_append hsubmit with ⟨hread, hdata⟩
      rcases hquiet b hform hread with ⟨hnone, hwaiting⟩
      exact hs.startNote hform hnone (fun i w hw => hdata (hwaiting i w hw))
  | createFirst row note =>
      rcases hquiet b hform (onSubmitNote_createFirst_read hsubmit) with ⟨hnone, _⟩
      apply hs.startUpsert hform
      intro note' d hd
      cases hd
      exact ⟨rfl, hnone⟩

theorem handle_cases (s : NoteTab) (i : Nat) (m : Mutation) (now : Int) (subject : String)
    (faults : Nat -> Option SqlErr) :
    s.handle i m now subject faults = s.setMutation i (some { m with reply := some false }) ∨
      exists db, NotesMoved s.db db ∧ s.handle i m now subject faults =
        (s.setMutation i (some { m with reply := some true })).store db m.draft := by
  unfold handle
  cases m.payload.handle now subject with
  | error e => exact Or.inl rfl
  | ok call =>
      have hout := prog_run_cases true call faults s.db
      simp only at hout ⊢
      rcases hout with ⟨⟨e, he⟩, hsame⟩ | ⟨a, ha, heff⟩
      · rw [he, hsame]
        exact Or.inl store_same
      · rw [ha]
        exact Or.inr ⟨_, notesMoved_effect heff, rfl⟩

section

variable {m : Mutation} {ok : Bool}

theorem replied_ne (q : Payload) (e : Nat) :
    some { m with reply := some ok } ≠ some (⟨q, some e, none⟩ : Mutation) := by
  intro h
  have hreply := congrArg (Option.map Mutation.reply) h
  cases hreply

theorem mutations_replied {m' : Mutation} (ok : Bool) (hm : s.mutations i = some m)
    (hm' : s.mutations j = some m') :
    exists n, (s.setMutation i (some { m with reply := some ok })).mutations j = some n ∧
      n.draft = m'.draft ∧ (n.reply = m'.reply ∨ j = i ∧ n.reply = some ok) := by
  cases hji : decide (j = i) with
  | true =>
      have heq := of_decide_eq_true hji
      subst heq
      cases hm.symm.trans hm'
      exact ⟨_, Function.update_self _ _ _, rfl, Or.inr ⟨rfl, rfl⟩⟩
  | false =>
      exact ⟨m', (Function.update_of_ne (of_decide_eq_false hji) _ _).trans hm', rfl,
        Or.inl rfl⟩

theorem Follows.onItsWay (hb : s.Follows b) (hnote : b.appendNote = some i)
    (hm : s.mutations i = some m) (hway : m.reply = none) : s.OnItsWay i b.draft := by
  rcases hb.note i hnote with ⟨m', hm', hdraft⟩
  cases hm.symm.trans hm'
  refine ⟨m.payload, hm.trans ?_⟩
  rw [← hdraft, ← hway]

theorem Follows.failed (hb : s.Follows b) (hs : s.Once) (hm : s.mutations i = some m)
    (hway : m.reply = none) :
    (s.setMutation i (some { m with reply := some false })).Follows b where
  draft := hb.draft
  note := by
    intro j hj
    rcases hb.note j hj with ⟨m', hm', hdraft⟩
    rcases mutations_replied false hm hm' with ⟨n, hn, hsame, _⟩
    exact ⟨n, hn, hsame.trans hdraft⟩
  sent := by
    intro hsent
    rcases hb.sent (sent_setMutation replied_ne hsent) with ⟨j, m', hj, hm', hreply⟩
    rcases mutations_replied false hm hm' with ⟨n, hn, _, hsame | ⟨hji, _⟩⟩
    · exact ⟨j, n, hj, hn, fun h => hreply (hsame.symm.trans h)⟩
    · rw [hji] at hj
      exact absurd hsent (hs.not_sent_setMutation replied_ne (hb.onItsWay hj hm hway))
  waiting := hb.waiting

theorem Follows.succeeded {db : Db} (hb : s.Follows b) (hm : s.mutations i = some m)
    (hsent : ((s.setMutation i (some { m with reply := some true })).store db m.draft).Sent
      b.draft -> s.Sent b.draft) :
    ((s.setMutation i (some { m with reply := some true })).store db m.draft).Follows b where
  draft := hb.draft
  note := by
    intro j hj
    rcases hb.note j hj with ⟨m', hm', hdraft⟩
    rcases mutations_replied true hm hm' with ⟨n, hn, hsame, _⟩
    exact ⟨n, hn, hsame.trans hdraft⟩
  sent := by
    intro h
    rcases hb.sent (hsent h) with ⟨j, m', hj, hm', hreply⟩
    rcases mutations_replied true hm hm' with ⟨n, hn, _, hsame | ⟨_, htrue⟩⟩
    · exact ⟨j, n, hj, hn, fun h => hreply (hsame.symm.trans h)⟩
    · refine ⟨j, n, hj, hn, fun h => ?_⟩
      rw [htrue] at h
      cases h
  waiting := hb.waiting

theorem sound_handle (hs : s.Sound) (hm : s.mutations i = some m) (hway : m.reply = none)
    (now : Int) (subject : String) (faults : Nat -> Option SqlErr) :
    (s.handle i m now subject faults).Sound := by
  have hi := hs.numbered.mutations i m hm
  have hon : forall d, m.draft = some d -> s.OnItsWay i d := by
    intro d hd
    refine ⟨m.payload, hm.trans ?_⟩
    rw [← hd, ← hway]
  rcases handle_cases s i m now subject faults with hfail | ⟨db, hmoved, hgood⟩
  · rw [hfail]
    exact ⟨hs.once.setMutation replied_ne, hs.numbered.setMutation hi replied_ne,
      fun b hb => (hs.follows b hb).failed hs.once hm hway⟩
  · rw [hgood]
    have hnum := hs.numbered.setMutation (x := some { m with reply := some true }) hi replied_ne
    refine ⟨?_, ?_, ?_⟩
    · apply (hs.once.setMutation replied_ne).store hnum hmoved
      exact fun d hd => hs.once.not_sent_setMutation replied_ne (hon d hd)
    · apply hnum.store hmoved
      exact fun d hd => hs.numbered.sent d (sent_of_onItsWay (hon d hd))
    · intro b hb
      apply (hs.follows b hb).succeeded hm
      intro hsent
      rcases sent_store hnum hmoved hsent with hold | hdraft
      · exact sent_setMutation replied_ne hold
      · exact sent_of_onItsWay (hon b.draft hdraft)

theorem sound_other (hs : s.Sound) {db : Db} (hmoved : NotesMoved s.db db) :
    (s.store db none).Sound where
  once := hs.once.store hs.numbered hmoved (fun d hd => by cases hd)
  numbered := hs.numbered.store hmoved (fun d hd => by cases hd)
  follows := by
    intro b hb
    have hle : s.composed <= (s.store db none).composed := Nat.le_refl _
    apply (hs.follows b hb).frame hle (fun _ _ _ hm => hm)
    intro hsent
    rcases sent_store hs.numbered hmoved hsent with hold | hnone
    · exact hold
    · cases hnone

theorem not_onItsWay_none (q : Payload) (e : Nat) :
    (none : Option Mutation) ≠ some ⟨q, some e, none⟩ := by
  intro h
  cases h

theorem Follows.settled (hb : s.Follows b) (hne : b.appendNote ≠ some i) :
    (s.setMutation i none).Follows b := by
  have hle : s.composed <= (s.setMutation i none).composed := Nat.le_refl _
  apply hb.frame hle _ (sent_setMutation not_onItsWay_none)
  intro j m hj hm
  have hji : j ≠ i := fun heq => hne (heq ▸ hj)
  exact (Function.update_of_ne hji _ _).trans hm

theorem sound_noteAnswered (hs : s.Sound) (hform : s.form = some b)
    (hnote : b.appendNote = some i) (hm : s.mutations i = some m) (hreply : m.reply = some ok) :
    ((s.setMutation i none).noteAnswered b ok).Sound := by
  have hb := hs.follows b hform
  have honce := hs.once.setMutation (i := i) not_onItsWay_none
  have hnum := hs.numbered.setMutation (hs.numbered.mutations i m hm) not_onItsWay_none
  unfold noteAnswered
  cases ok with
  | true =>
      apply Sound.compose honce hnum rfl rfl
      intro j w hw
      have hnone := (hb.waiting j w.1 w.2 hw).right
      rw [hnote] at hnone
      cases hnone
  | false =>
      apply Sound.withForm honce hnum
      constructor
      · exact hb.draft
      · intro j hj
        cases hj
      · intro hsent
        rcases hb.sent (sent_setMutation not_onItsWay_none hsent) with ⟨j, m', hj, hm', hgood⟩
        cases hnote.symm.trans hj
        cases hm.symm.trans hm'
        exact absurd hreply hgood
      · intro j note d hw
        exact ⟨(hb.waiting j note d hw).left, rfl⟩

theorem sound_upsertAnswered {waiting : Option (NotePayload × Nat)} (hs : s.Sound)
    (hform : s.form = some b) (hupsert : b.upsert = some (j, waiting)) :
    (s.upsertAnswered b waiting ok).Sound := by
  have hb := hs.follows b hform
  have hdone : (s.withForm { b with upsert := none }).Sound := by
    apply Sound.withForm hs.once hs.numbered
    refine ⟨hb.draft, hb.note, hb.sent, ?_⟩
    intro k note d hw
    cases hw
  cases waiting with
  | none => exact hdone
  | some w =>
      cases ok with
      | false => exact hdone
      | true =>
          rcases hb.waiting j w.1 w.2 hupsert with ⟨hdraft, hnone⟩
          unfold upsertAnswered
          simp only [hdraft]
          apply hs.startNote hform hnone
          intro k w' hw
          cases hw

theorem sound_answer (hs : s.Sound) (hm : s.mutations i = some m) (hreply : m.reply = some ok) :
    ((s.setMutation i none).answer i ok).Sound := by
  have honce := hs.once.setMutation (i := i) not_onItsWay_none
  have hnum := hs.numbered.setMutation (hs.numbered.mutations i m hm) not_onItsWay_none
  have hform : (s.setMutation i none).form = s.form := rfl
  unfold answer
  rw [hform]
  cases hb : s.form with
  | none =>
      refine ⟨honce, hnum, ?_⟩
      intro b hb'
      cases hb.symm.trans hb'
  | some b =>
      simp only
      split
      · rename_i hnote
        exact sound_noteAnswered hs hb hnote hm hreply
      · rename_i hne
        have hsettled : (s.setMutation i none).Sound := by
          refine ⟨honce, hnum, ?_⟩
          intro b' hb'
          cases hb.symm.trans hb'
          exact (hs.follows b hb).settled hne
        split
        · exact hsettled
        · rename_i k waiting hupsert
          split
          · exact sound_upsertAnswered hsettled hb hupsert
          · exact hsettled

end

theorem sound_type (hs : s.Sound) (hform : s.form = some b) (value : String) :
    (s.withForm { b with noteDraft := value }).Sound := by
  have hb := hs.follows b hform
  exact Sound.withForm hs.once hs.numbered ⟨hb.draft, hb.note, hb.sent, hb.waiting⟩

theorem sound_step {l : NoteLabel} (hquiet : l.Submits -> s.Quiet) (hs : s.Sound)
    (h : s.step l = some s') : s'.Sound := by
  cases l with
  | openEvent event =>
      cases h
      exact sound_openEvent hs event
  | close =>
      cases h
      exact Sound.setForm hs.once hs.numbered (fun b hb => by cases hb) s.details
  | detail key q =>
      cases h
      exact Sound.setForm hs.once hs.numbered hs.follows _
  | type value =>
      rcases Option.map_eq_some_iff.mp h with ⟨b, hform, hs'⟩
      rw [← hs']
      exact sound_type hs hform value
  | enter =>
      rcases Option.map_eq_some_iff.mp h with ⟨b, hform, hs'⟩
      rw [← hs']
      exact sound_submitNote hs hform (hquiet trivial)
  | click =>
      simp only [step] at h
      split at h
      · cases h
      · rename_i b hform
        split at h
        · cases h
        · cases h
          exact sound_submitNote hs hform (hquiet trivial)
  | save p =>
      simp only [step] at h
      split at h
      · cases h
      · rename_i b hform
        split at h
        · cases h
        · cases h
          exact hs.startUpsert hform (fun note d hw => by cases hw)
  | handle i now subject faults =>
      simp only [step] at h
      split at h
      · rename_i p draft hm
        cases h
        exact sound_handle hs hm rfl now subject faults
      · cases h
  | answer i =>
      simp only [step] at h
      split at h
      · rename_i p draft ok hm
        cases h
        exact sound_answer hs hm rfl
      · cases h
  | other call =>
      cases h
      apply sound_other hs
      rcases prog_run_cases true call.call call.faults s.db with ⟨_, hsame⟩ | ⟨a, _, heff⟩
      · exact Or.inl ⟨congrArg Db.triageNotes hsame, congrArg Db.noteSeq hsame⟩
      · exact notesMoved_effect heff

end

end NoteTab

/-- As long as no note is submitted that is about to be added, every draft is added to
{lit}`triage_notes` at most once. -/
theorem notes_added_once (details : String × String -> DetailQuery) {labels : List NoteLabel}
    {s : NoteTab} (hrun : runSteps NoteTab.step (NoteTab.start details) labels = some s)
    (hall : EveryStep NoteTab.step (fun t l _ => l.Submits -> t.Quiet) (NoteTab.start details)
      labels) (d : Nat) : (s.rowsOf d).length <= 1 := by
  have hstep : forall (t : NoteTab) (l : NoteLabel) (t' : NoteTab), (l.Submits -> t.Quiet) ->
      t.Sound -> t.step l = some t' -> t'.Sound :=
    fun _ _ _ hquiet ht hafter => NoteTab.sound_step hquiet ht hafter
  have hsound : s.Sound := run_invariant_every hstep hall (NoteTab.sound_start details) hrun
  exact hsound.once.rows d

/-!
## A second press of Enter
-/

def seenRow : Row :=
  { hostID := "h", eventID := "e", status := statusOpen, assignee := none,
    evidenceSnapshot := [123, 125], createdAt := 0, updatedAt := 0 }

def noteComposed : List NoteLabel :=
  [.other ⟨.upsert 0 ⟨"h", "e", noStatus, none, false, [123, 125], "ana"⟩, Prog.noFaults⟩,
    .openEvent seenEvent, .detail ("h", "e") (DetailQuery.loaded seenRow), .type "seen"]

def enterOnce : List NoteLabel :=
  noteComposed ++ [.enter, .handle 0 1 "ana" Prog.noFaults, .answer 0, .enter]

def enterTwice : List NoteLabel :=
  noteComposed ++
    [.enter, .enter, .handle 0 1 "ana" Prog.noFaults, .handle 1 2 "ana" Prog.noFaults]

def clickTwice : List NoteLabel :=
  [.openEvent seenEvent, .type "seen", .click, .handle 0 0 "ana" Prog.noFaults,
    .detail ("h", "e") (DetailQuery.loaded seenRow), .click, .answer 0,
    .handle 1 1 "ana" Prog.noFaults, .handle 2 2 "ana" Prog.noFaults]

def freshTab : NoteTab := NoteTab.start (fun _ => DetailQuery.loading)

theorem notes_added_once_enterOnce :
    exists s, runSteps NoteTab.step freshTab enterOnce = some s ∧
      (s.rowsOf 0).map SqlNote.body = ["seen"] ∧ (s.rowsOf 0).length <= 1 := by
  have hrun : exists s, runSteps NoteTab.step freshTab enterOnce = some s ∧
      (s.rowsOf 0).map SqlNote.body = ["seen"] := by
    refine ⟨_, rfl, ?_⟩
    decide +kernel
  have hquiet : EveryStep NoteTab.step (fun t l _ => l.Submits -> t.Quiet) freshTab
      enterOnce := by
    refine ⟨fun h => h.elim, fun h => h.elim, fun h => h.elim, fun h => h.elim, ?_,
      fun h => h.elim, fun h => h.elim, ?_, trivial⟩
    · intro _ b hb _
      cases hb
      exact ⟨rfl, fun i waiting hw => by cases hw⟩
    · intro _ b hb hread
      cases hb
      exact absurd rfl hread
  rcases hrun with ⟨s, hs, hbody⟩
  exact ⟨s, hs, hbody, notes_added_once _ hs hquiet 0⟩

/-- Both ways to submit can add one draft twice. -/
theorem not_notes_added_once :
    (exists s, runSteps NoteTab.step freshTab enterTwice = some s ∧
        (s.rowsOf 0).map SqlNote.body = ["seen", "seen"]) ∧
      exists s, runSteps NoteTab.step freshTab clickTwice = some s ∧
        (s.rowsOf 0).map SqlNote.body = ["seen", "seen"] := by
  constructor
  · refine ⟨_, rfl, ?_⟩
    decide +kernel
  · refine ⟨_, rfl, ?_⟩
    decide +kernel

end Web
end LodelineManager
