import LodelineManager.Web.Alerts
import Mathlib.Data.List.TakeWhile

/-!
# Drafts of the slide-over

What is typed into the two fields of the slide-over stays in the component while the
event that it shows changes.  Here every character of a draft carries the event that
was open when it was typed, or whose row it was loaded from; the code has the bare
text.
-/

namespace LodelineManager
namespace Web

open Foundation Triage

structure DraftChar where
  char : Char
  source : String × String
  deriving DecidableEq

abbrev Draft := List DraftChar

def Draft.text (d : Draft) : String := String.ofList (d.map DraftChar.char)

def writtenOn (key : String × String) (s : String) : Draft := s.toList.map (fun c => ⟨c, key⟩)

def DraftChar.blank (c : DraftChar) : Bool := isWhiteSpace c.char

def Draft.trim (d : Draft) : Draft :=
  ((d.dropWhile DraftChar.blank).reverse.dropWhile DraftChar.blank).reverse

/-- A change of a field: from a place on, some characters go and others come. -/
structure Edit where
  place : Nat
  removed : Nat
  inserted : String
  deriving DecidableEq

def Draft.edit (key : String × String) (e : Edit) (d : Draft) : Draft :=
  d.take e.place ++ writtenOn key e.inserted ++ d.drop (e.place + e.removed)

/-- All that can be read in the draft comes from the event. -/
def Draft.Of (key : String × String) (d : Draft) : Prop :=
  forall c, c ∈ d -> c.blank = false -> c.source = key

/-!
## Text of drafts
-/

theorem writtenOn_text (key : String × String) (s : String) : (writtenOn key s).text = s := by
  unfold writtenOn Draft.text
  rw [List.map_map]
  show String.ofList (s.toList.map id) = s
  rw [List.map_id, String.ofList_toList]

theorem writtenOn_of (key : String × String) (s : String) : (writtenOn key s).Of key := by
  intro c hc _
  rcases List.mem_map.mp hc with ⟨x, _, hx⟩
  rw [← hx]

theorem trim_sublist (d : Draft) : d.trim.Sublist d := by
  have hback : (d.dropWhile DraftChar.blank).reverse.dropWhile DraftChar.blank |>.Sublist
      (d.dropWhile DraftChar.blank).reverse := List.dropWhile_sublist _
  have hfront : (d.dropWhile DraftChar.blank).Sublist d := List.dropWhile_sublist _
  unfold Draft.trim
  have hrev := hback.reverse
  rw [List.reverse_reverse] at hrev
  exact hrev.trans hfront

theorem trim_text (d : Draft) : d.trim.text = Web.trim d.text := by
  have hblank : (isWhiteSpace ∘ DraftChar.char) = DraftChar.blank := rfl
  unfold Draft.trim Draft.text Web.trim
  rw [String.toList_ofList, List.dropWhile_map, hblank, ← List.map_reverse, List.dropWhile_map,
    hblank, ← List.map_reverse]

theorem Draft.Of.trim {key : String × String} {d : Draft} (h : d.Of key) : d.trim.Of key :=
  fun c hc hread => h c ((trim_sublist d).subset hc) hread

theorem Draft.Of.edit {key : String × String} {d : Draft} (h : d.Of key) (e : Edit) :
    (d.edit key e).Of key := by
  intro c hc hread
  rcases List.mem_append.mp hc with hfront | hback
  · rcases List.mem_append.mp hfront with hold | hnew
    · exact h c (List.mem_of_mem_take hold) hread
    · exact writtenOn_of key e.inserted c hnew hread
  · exact h c (List.mem_of_mem_drop hback) hread

theorem trim_eq_nil_iff (d : Draft) : d.trim = [] <-> Web.trim d.text = "" := by
  rw [← trim_text]
  unfold Draft.text
  constructor
  · intro h
    rw [h]
    rfl
  · intro h
    have hlist := congrArg String.toList h
    rw [String.toList_ofList] at hlist
    exact List.map_eq_nil_iff.mp hlist

theorem blank_of {d : Draft} (h : Web.trim d.text = "") (key : String × String) : d.Of key := by
  have hnil := (trim_eq_nil_iff d).mpr h
  unfold Draft.trim at hnil
  rw [List.reverse_eq_nil_iff, List.dropWhile_eq_nil_iff] at hnil
  have hfront : d.dropWhile DraftChar.blank = [] := by
    cases hdrop : d.dropWhile DraftChar.blank with
    | nil => rfl
    | cons c rest =>
        have hhead := List.head?_dropWhile_not DraftChar.blank d
        rw [hdrop] at hhead hnil
        have hblank := hnil c (List.mem_reverse.mpr List.mem_cons_self)
        simp [hblank] at hhead
  intro c hc hread
  rw [(List.dropWhile_eq_nil_iff.mp hfront) c hc] at hread
  cases hread

theorem not_of_other {d : Draft} {key other : String × String} (h : d.Of key)
    (hread : Web.trim d.text ≠ "") (hne : other ≠ key) : ¬ d.trim.Of other := by
  intro hother
  have hnil : d.trim ≠ [] := fun hnil => hread ((trim_eq_nil_iff d).mp hnil)
  cases hback : (d.dropWhile DraftChar.blank).reverse.dropWhile DraftChar.blank with
  | nil =>
      apply hnil
      unfold Draft.trim
      rw [hback]
      rfl
  | cons c rest =>
      have hhead := List.head?_dropWhile_not DraftChar.blank (d.dropWhile DraftChar.blank).reverse
      rw [hback] at hhead
      have hblank : c.blank = false := by simpa using hhead
      have hmem : c ∈ d.trim := by
        unfold Draft.trim
        rw [hback]
        exact List.mem_reverse.mpr List.mem_cons_self
      exact hne ((hother c hmem hblank).symm.trans (h.trim c hmem hblank))

/-!
## The component
-/

inductive Field where
  | assignee
  | note
  deriving DecidableEq

def Payload.text : Payload -> String
  | .upsert p => p.assignee.getD ""
  | .note p => p.body

def Payload.key : Payload -> String × String
  | .upsert p => (p.hostID, p.eventID)
  | .note p => (p.hostID, p.eventID)

/-- A request and the characters of its text. -/
structure Submission where
  payload : Payload
  text : Draft
  deriving DecidableEq

/-- {lit}`synced` is the value for which the assignee effect ran last, if it ran; a pending
{lit}`upsert` may have a note to send after it. -/
structure SlideOverBody where
  event : EventWithTriage
  assigneeDraft : Draft
  noteDraft : Draft
  synced : Option (Option (Option String))
  focus : Option Field
  upsert : Option (Option Submission)
  appendNote : Bool

/-- {lit}`triage.data?.row.assignee`: nothing for {lit}`undefined`, then nothing for
{lit}`null`. -/
def assigneeOf (triage : DetailOrNull) : Option (Option String) := triage.data.map Row.assignee

namespace SlideOverBody

def mounted (event : EventWithTriage) : SlideOverBody :=
  { event := event, assigneeDraft := [], noteDraft := [], synced := none, focus := none,
    upsert := none, appendNote := false }

def sync (b : SlideOverBody) (assignee : Option (Option String)) : SlideOverBody :=
  if b.synced = some assignee then b
  else
    { b with
      synced := some assignee
      assigneeDraft :=
        if b.focus = some .assignee then b.assigneeDraft
        else writtenOn b.event.key (assignee.join.getD "") }

def recognise (b : SlideOverBody) (assignee : Option (Option String)) : SlideOverBody :=
  if assignee = some (some b.assigneeDraft.text) then
    { b with assigneeDraft := writtenOn b.event.key b.assigneeDraft.text }
  else b

def withEvent (event : EventWithTriage) : Option SlideOverBody -> SlideOverBody
  | none => mounted event
  | some b => { b with event := event }

def render (shown : Option EventWithTriage) (details : String × String -> DetailQuery)
    (body : Option SlideOverBody) : Option SlideOverBody :=
  match shown with
  | none => none
  | some event =>
      let assignee := assigneeOf (useTriageDetailOrNull (details event.key))
      some (((withEvent event body).sync assignee).recognise assignee)

end SlideOverBody

/-- The page with its slide-over, and what the two forms have sent. -/
structure AlertsTab where
  page : AlertsPage
  body : Option SlideOverBody
  sent : List Submission

inductive TabLabel where
  | page (l : Label)
  | focus (f : Option Field)
  | edit (f : Field) (e : Edit)
  | setStatus (status : Status)
  | assign
  | submitNote
  | upsertSettled (ok : Bool)
  | noteSettled (ok : Bool)

def reachesPage (focus : Option Field) : Label -> Bool
  | .press .escape => true
  | .press _ => focus.isNone
  | .act _ => false
  | _ => true

namespace AlertsTab

def start (toLowerCase : String -> String) (page : AlertsPage) : AlertsTab :=
  { page := page, body := SlideOverBody.render (page.shown toLowerCase) page.details none,
    sent := [] }

def withBody (s : AlertsTab) (k : SlideOverBody -> DetailOrNull -> Option AlertsTab) :
    Option AlertsTab :=
  match s.body with
  | none => none
  | some b => k b (useTriageDetailOrNull (s.page.details b.event.key))

def step (toLowerCase : String -> String) (s : AlertsTab) : TabLabel -> Option AlertsTab
  | .page l =>
      if reachesPage (s.body.bind SlideOverBody.focus) l then
        match s.page.step toLowerCase l with
        | none => none
        | some page =>
            some { s with
              page := page
              body := SlideOverBody.render (page.shown toLowerCase) page.details s.body }
      else none
  | .focus f => s.withBody (fun b _ => some { s with body := some { b with focus := f } })
  | .edit f e =>
      s.withBody (fun b _ =>
        if b.focus = some f then
          match f with
          | .assignee =>
              some { s with
                body := some { b with assigneeDraft := b.assigneeDraft.edit b.event.key e } }
          | .note =>
              some { s with body := some { b with noteDraft := b.noteDraft.edit b.event.key e } }
        else none)
  | .setStatus status =>
      s.withBody (fun b triage =>
        if b.upsert.isNone then
          some { s with
            body := some { b with upsert := some none }
            sent := s.sent ++ [⟨.upsert (Web.setStatus b.event triage status), []⟩] }
        else none)
  | .assign =>
      s.withBody (fun b triage =>
        if b.upsert.isNone then
          some { s with
            body := some { b with upsert := some none }
            sent := s.sent ++
              [⟨.upsert (onAssign b.event triage b.assigneeDraft.text), b.assigneeDraft.trim⟩] }
        else none)
  | .submitNote =>
      s.withBody (fun b triage =>
        match onSubmitNote b.event triage b.noteDraft.text with
        | .ignored => some s
        | .append note =>
            some { s with
              body := some { b with appendNote := true }
              sent := s.sent ++ [⟨.note note, b.noteDraft.trim⟩] }
        | .createFirst row note =>
            some { s with
              body := some { b with upsert := some (some ⟨.note note, b.noteDraft.trim⟩) }
              sent := s.sent ++ [⟨.upsert row, []⟩] })
  | .upsertSettled ok =>
      s.withBody (fun b _ =>
        match b.upsert, ok with
        | none, _ => none
        | some (some next), true =>
            some { s with
              body := some { b with upsert := none, appendNote := true }
              sent := s.sent ++ [next] }
        | some _, _ => some { s with body := some { b with upsert := none } })
  | .noteSettled ok =>
      s.withBody (fun b _ =>
        if b.appendNote then
          some { s with
            body := some
              { b with appendNote := false, noteDraft := if ok then [] else b.noteDraft } }
        else none)

end AlertsTab

/-!
## Texts as they are sent
-/

/-- The recorded characters are the text of the request. -/
def Submission.Recorded (x : Submission) : Prop := x.payload.text = x.text.text

/-- The text of the request comes from the event that it names. -/
def Submission.Own (x : Submission) : Prop := x.text.Of x.payload.key

theorem recorded_empty {p : Payload} (h : p.text = "") : Submission.Recorded ⟨p, []⟩ := h

theorem recorded_onAssign (event : EventWithTriage) (triage : DetailOrNull) (d : Draft) :
    Submission.Recorded ⟨.upsert (onAssign event triage d.text), d.trim⟩ := by
  unfold Submission.Recorded Payload.text
  simp only [onAssign]
  rw [trim_text]
  split
  · rename_i hempty
    rw [hempty]
    rfl
  · rfl

theorem onSubmitNote_cases (event : EventWithTriage) (triage : DetailOrNull) (d : Draft) :
    (Web.trim d.text = "" ∧ onSubmitNote event triage d.text = .ignored) ∨
      exists note, Web.trim d.text ≠ "" ∧ Submission.Recorded ⟨.note note, d.trim⟩ ∧
        (Payload.note note).key = event.key ∧
        (onSubmitNote event triage d.text = .append note ∨
          exists row, onSubmitNote event triage d.text = .createFirst row note ∧
            row.assignee = none) := by
  unfold onSubmitNote
  by_cases hempty : Web.trim d.text = ""
  · exact Or.inl ⟨hempty, if_pos hempty⟩
  · refine Or.inr ⟨⟨event.hostID, event.eventID, Web.trim d.text⟩, hempty, (trim_text d).symm,
      rfl, ?_⟩
    rw [if_neg hempty]
    cases triage.data.isNone with
    | true => exact Or.inr ⟨_, rfl, rfl⟩
    | false => exact Or.inl rfl

/-- The submissions that the forms make of the drafts in one step, sent at once or after
an upsert. -/
def AlertsTab.made (s : AlertsTab) (l : TabLabel) : List Submission :=
  match s.body with
  | none => []
  | some b =>
      let triage := useTriageDetailOrNull (s.page.details b.event.key)
      match l with
      | .setStatus status => [⟨.upsert (Web.setStatus b.event triage status), []⟩]
      | .assign =>
          [⟨.upsert (onAssign b.event triage b.assigneeDraft.text), b.assigneeDraft.trim⟩]
      | .submitNote =>
          match onSubmitNote b.event triage b.noteDraft.text with
          | .ignored => []
          | .append note => [⟨.note note, b.noteDraft.trim⟩]
          | .createFirst row note => [⟨.upsert row, []⟩, ⟨.note note, b.noteDraft.trim⟩]
      | _ => []

/-- Holds of all that has been sent and of the note that waits for its row. -/
structure AlertsTab.All (Q : Submission -> Prop) (s : AlertsTab) : Prop where
  sent : forall x, x ∈ s.sent -> Q x
  waiting : forall b x, s.body = some b -> b.upsert = some (some x) -> Q x

section

variable {toLowerCase : String -> String} {s s' : AlertsTab} {l : TabLabel}
  {Q : Submission -> Prop}

theorem withBody_some {k : SlideOverBody -> DetailOrNull -> Option AlertsTab}
    (h : s.withBody k = some s') : exists b, s.body = some b ∧
      k b (useTriageDetailOrNull (s.page.details b.event.key)) = some s' := by
  unfold AlertsTab.withBody at h
  cases hb : s.body with
  | none =>
      rw [hb] at h
      cases h
  | some b =>
      rw [hb] at h
      exact ⟨b, rfl, h⟩

@[simp] theorem sync_upsert (b : SlideOverBody) (assignee : Option (Option String)) :
    (b.sync assignee).upsert = b.upsert := by
  unfold SlideOverBody.sync
  split <;> rfl

@[simp] theorem sync_event (b : SlideOverBody) (assignee : Option (Option String)) :
    (b.sync assignee).event = b.event := by
  unfold SlideOverBody.sync
  split <;> rfl

@[simp] theorem sync_noteDraft (b : SlideOverBody) (assignee : Option (Option String)) :
    (b.sync assignee).noteDraft = b.noteDraft := by
  unfold SlideOverBody.sync
  split <;> rfl

theorem recognise_of_ne {b : SlideOverBody} {assignee : Option (Option String)}
    (h : assignee ≠ some (some b.assigneeDraft.text)) : b.recognise assignee = b := if_neg h

@[simp] theorem recognise_upsert (b : SlideOverBody) (assignee : Option (Option String)) :
    (b.recognise assignee).upsert = b.upsert := by
  unfold SlideOverBody.recognise
  split <;> rfl

@[simp] theorem recognise_event (b : SlideOverBody) (assignee : Option (Option String)) :
    (b.recognise assignee).event = b.event := by
  unfold SlideOverBody.recognise
  split <;> rfl

@[simp] theorem recognise_noteDraft (b : SlideOverBody) (assignee : Option (Option String)) :
    (b.recognise assignee).noteDraft = b.noteDraft := by
  unfold SlideOverBody.recognise
  split <;> rfl

theorem render_some {shown : Option EventWithTriage}
    {details : String × String -> DetailQuery} {body : Option SlideOverBody} {b : SlideOverBody}
    (h : SlideOverBody.render shown details body = some b) :
    exists event, shown = some event ∧ b.event = event ∧
      b = ((SlideOverBody.withEvent event body).sync
        (assigneeOf (useTriageDetailOrNull (details event.key)))).recognise
        (assigneeOf (useTriageDetailOrNull (details event.key))) := by
  unfold SlideOverBody.render at h
  cases shown with
  | none => cases h
  | some event =>
      have hb := Option.some.inj h
      refine ⟨event, rfl, ?_, hb.symm⟩
      rw [← hb, recognise_event, sync_event]
      cases body <;> rfl

theorem render_waiting {shown : Option EventWithTriage}
    {details : String × String -> DetailQuery} {body : Option SlideOverBody} {b : SlideOverBody}
    {x : Submission} (h : SlideOverBody.render shown details body = some b)
    (hx : b.upsert = some (some x)) :
    exists old, body = some old ∧ old.upsert = some (some x) := by
  rcases render_some h with ⟨event, _, _, hb⟩
  rw [hb, recognise_upsert, sync_upsert] at hx
  cases body with
  | none => cases hx
  | some old => exact ⟨old, rfl, hx⟩

/-- What a step can do. -/
inductive AlertsTab.Stepped (toLowerCase : String -> String) (s : AlertsTab) :
    TabLabel -> AlertsTab -> Prop where
  | page {l : Label} {page : AlertsPage} :
      s.page.step toLowerCase l = some page ->
      Stepped toLowerCase s (.page l)
        { s with
          page := page
          body := SlideOverBody.render (page.shown toLowerCase) page.details s.body }
  | focus {f : Option Field} {b : SlideOverBody} : s.body = some b ->
      Stepped toLowerCase s (.focus f) { s with body := some { b with focus := f } }
  | editAssignee {e : Edit} {b : SlideOverBody} : s.body = some b ->
      Stepped toLowerCase s (.edit .assignee e)
        { s with body := some { b with assigneeDraft := b.assigneeDraft.edit b.event.key e } }
  | editNote {e : Edit} {b : SlideOverBody} : s.body = some b ->
      Stepped toLowerCase s (.edit .note e)
        { s with body := some { b with noteDraft := b.noteDraft.edit b.event.key e } }
  | sent {l : TabLabel} {b : SlideOverBody} {x : Submission} : s.body = some b ->
      s.made l = [x] ->
      Stepped toLowerCase s l
        { s with body := some { b with upsert := some none }, sent := s.sent ++ [x] }
  | ignored : Stepped toLowerCase s .submitNote s
  | append {b : SlideOverBody} {x : Submission} : s.body = some b ->
      s.made .submitNote = [x] ->
      Stepped toLowerCase s .submitNote
        { s with body := some { b with appendNote := true }, sent := s.sent ++ [x] }
  | createFirst {b : SlideOverBody} {x y : Submission} : s.body = some b ->
      s.made .submitNote = [x, y] ->
      Stepped toLowerCase s .submitNote
        { s with body := some { b with upsert := some (some y) }, sent := s.sent ++ [x] }
  | upsertDone {ok : Bool} {b : SlideOverBody} : s.body = some b ->
      Stepped toLowerCase s (.upsertSettled ok)
        { s with body := some { b with upsert := none } }
  | noteNext {b : SlideOverBody} {x : Submission} : s.body = some b ->
      b.upsert = some (some x) ->
      Stepped toLowerCase s (.upsertSettled true)
        { s with
          body := some { b with upsert := none, appendNote := true }
          sent := s.sent ++ [x] }
  | noteDone {ok : Bool} {b : SlideOverBody} : s.body = some b ->
      Stepped toLowerCase s (.noteSettled ok)
        { s with
          body := some
            { b with appendNote := false, noteDraft := if ok then [] else b.noteDraft } }

theorem AlertsTab.step_cases (h : s.step toLowerCase l = some s') :
    AlertsTab.Stepped toLowerCase s l s' := by
  cases l with
  | page l =>
      simp only [AlertsTab.step] at h
      split at h
      · cases hpage : s.page.step toLowerCase l with
        | none =>
            rw [hpage] at h
            cases h
        | some page =>
            rw [hpage] at h
            cases h
            exact Stepped.page hpage
      · cases h
  | focus f =>
      unfold AlertsTab.step at h
      rcases withBody_some h with ⟨b, hb, heq⟩
      cases heq
      exact Stepped.focus hb
  | edit f e =>
      unfold AlertsTab.step at h
      rcases withBody_some h with ⟨b, hb, heq⟩
      split at heq
      · cases f with
        | assignee =>
            cases heq
            exact Stepped.editAssignee hb
        | note =>
            cases heq
            exact Stepped.editNote hb
      · cases heq
  | setStatus status =>
      unfold AlertsTab.step at h
      rcases withBody_some h with ⟨b, hb, heq⟩
      split at heq
      · cases heq
        exact Stepped.sent hb (by simp only [AlertsTab.made, hb])
      · cases heq
  | assign =>
      unfold AlertsTab.step at h
      rcases withBody_some h with ⟨b, hb, heq⟩
      split at heq
      · cases heq
        exact Stepped.sent hb (by simp only [AlertsTab.made, hb])
      · cases heq
  | submitNote =>
      unfold AlertsTab.step at h
      rcases withBody_some h with ⟨b, hb, heq⟩
      cases hnote : onSubmitNote b.event (useTriageDetailOrNull (s.page.details b.event.key))
          b.noteDraft.text with
      | ignored =>
          rw [hnote] at heq
          cases heq
          exact Stepped.ignored
      | append note =>
          rw [hnote] at heq
          cases heq
          exact Stepped.append hb (by simp only [AlertsTab.made, hb, hnote])
      | createFirst row note =>
          rw [hnote] at heq
          cases heq
          exact Stepped.createFirst hb (by simp only [AlertsTab.made, hb, hnote])
  | upsertSettled ok =>
      unfold AlertsTab.step at h
      rcases withBody_some h with ⟨b, hb, heq⟩
      cases hup : b.upsert with
      | none =>
          rw [hup] at heq
          cases heq
      | some next =>
          rw [hup] at heq
          cases next with
          | none =>
              cases heq
              exact Stepped.upsertDone hb
          | some x =>
              cases ok with
              | false =>
                  cases heq
                  exact Stepped.upsertDone hb
              | true =>
                  cases heq
                  exact Stepped.noteNext hb hup
  | noteSettled ok =>
      unfold AlertsTab.step at h
      rcases withBody_some h with ⟨b, hb, heq⟩
      split at heq
      · cases heq
        exact Stepped.noteDone hb
      · cases heq

theorem all_step (h : s.All Q) (hmade : forall x, x ∈ s.made l -> Q x)
    (hstep : s.step toLowerCase l = some s') : s'.All Q := by
  have hsame : forall b b' x, s.body = some b -> b'.upsert = b.upsert ->
      (b' : SlideOverBody).upsert = some (some x) -> Q x := by
    intro b b' x hb hup hx
    exact h.waiting b x hb (hup.symm.trans hx)
  have hmore : forall x, x ∈ s.made l -> forall y, y ∈ s.sent ++ [x] -> Q y := by
    intro x hx y hy
    rcases List.mem_append.mp hy with hold | hnew
    · exact h.sent y hold
    · rw [List.mem_singleton.mp hnew]
      exact hmade x hx
  cases AlertsTab.step_cases hstep with
  | page hpage =>
      refine ⟨h.sent, ?_⟩
      intro b x hb hx
      rcases render_waiting hb hx with ⟨old, hold, hwait⟩
      exact h.waiting old x hold hwait
  | focus hb => exact ⟨h.sent, fun b' x hb' hx => hsame _ b' x hb (by cases hb'; rfl) hx⟩
  | editAssignee hb => exact ⟨h.sent, fun b' x hb' hx => hsame _ b' x hb (by cases hb'; rfl) hx⟩
  | editNote hb => exact ⟨h.sent, fun b' x hb' hx => hsame _ b' x hb (by cases hb'; rfl) hx⟩
  | @sent _ b x hb hx =>
      refine ⟨hmore x (hx ▸ List.mem_singleton.mpr rfl), ?_⟩
      intro b' y hb' hy
      cases hb'
      cases hy
  | ignored => exact h
  | @append b x hb hx =>
      refine ⟨hmore x (hx ▸ List.mem_singleton.mpr rfl), ?_⟩
      exact fun b' y hb' hy => hsame b b' y hb (by cases hb'; rfl) hy
  | @createFirst b x y hb hx =>
      refine ⟨hmore x (hx ▸ List.mem_cons_self), ?_⟩
      intro b' z hb' hz
      cases hb'
      cases hz
      exact hmade _ (hx ▸ List.mem_cons_of_mem _ (List.mem_singleton.mpr rfl))
  | upsertDone hb =>
      refine ⟨h.sent, ?_⟩
      intro b' x hb' hx
      cases hb'
      cases hx
  | @noteNext b x hb hup =>
      constructor
      · intro y hy
        rcases List.mem_append.mp hy with hold | hnew
        · exact h.sent y hold
        · rw [List.mem_singleton.mp hnew]
          exact h.waiting b x hb hup
      · intro b' y hb' hy
        cases hb'
        cases hy
  | noteDone hb => exact ⟨h.sent, fun b' x hb' hx => hsame _ b' x hb (by cases hb'; rfl) hx⟩

theorem made_recorded {x : Submission} (hx : x ∈ s.made l) : x.Recorded := by
  unfold AlertsTab.made at hx
  cases hb : s.body with
  | none =>
      rw [hb] at hx
      cases hx
  | some b =>
      rw [hb] at hx
      cases l with
      | setStatus status =>
          rw [List.mem_singleton.mp hx]
          exact recorded_empty rfl
      | assign =>
          rw [List.mem_singleton.mp hx]
          exact recorded_onAssign _ _ _
      | submitNote =>
          simp only at hx
          rcases onSubmitNote_cases b.event
            (useTriageDetailOrNull (s.page.details b.event.key)) b.noteDraft with
            ⟨_, hignored⟩ | ⟨note, _, hrec, _, happend | ⟨row, hcreate, hrow⟩⟩
          · rw [hignored] at hx
            cases hx
          · rw [happend] at hx
            rw [List.mem_singleton.mp hx]
            exact hrec
          · rw [hcreate] at hx
            rcases List.mem_cons.mp hx with hfirst | hsecond
            · rw [hfirst]
              apply recorded_empty
              show row.assignee.getD "" = ""
              rw [hrow]
              rfl
            · rw [List.mem_singleton.mp hsecond]
              exact hrec
      | _ => cases hx

/-!
## Drafts that stay with their event
-/

/-- What is left in the fields belongs with an event that is opened over them: the note
field is blank, and the assignee field is blank, is filled anew by the effect, or reads
as the assignee of the event's own row. -/
def SlideOverBody.Leaves (b : SlideOverBody) (event : EventWithTriage)
    (details : String × String -> DetailQuery) : Prop :=
  Web.trim b.noteDraft.text = "" ∧
    (Web.trim b.assigneeDraft.text = "" ∨
      (b.synced ≠ some (assigneeOf (useTriageDetailOrNull (details event.key))) ∧
        b.focus ≠ some .assignee) ∨
      assigneeOf (useTriageDetailOrNull (details event.key)) = some (some b.assigneeDraft.text))

/-- A step that puts another event under an open slide-over does it over fields that
belong with that event. -/
def AlertsTab.Settled (toLowerCase : String -> String) (s : AlertsTab) : TabLabel -> Prop
  | .page l =>
      forall b page event, s.body = some b -> s.page.step toLowerCase l = some page ->
        page.shown toLowerCase = some event -> event.key ≠ b.event.key ->
        b.Leaves event page.details
  | _ => True

/-- Both drafts come from the open event. -/
structure SlideOverBody.OfEvent (b : SlideOverBody) : Prop where
  assignee : b.assigneeDraft.Of b.event.key
  note : b.noteDraft.Of b.event.key

theorem ofEvent_mounted (event : EventWithTriage) :
    (SlideOverBody.mounted event).OfEvent where
  assignee := by
    intro c hc
    cases hc
  note := by
    intro c hc
    cases hc

theorem SlideOverBody.OfEvent.sync {b : SlideOverBody} (h : b.OfEvent)
    (assignee : Option (Option String)) : (b.sync assignee).OfEvent where
  assignee := by
    unfold SlideOverBody.sync
    split
    · exact h.assignee
    · show Draft.Of b.event.key (if _ then _ else _)
      split
      · exact h.assignee
      · exact writtenOn_of _ _
  note := by
    rw [sync_noteDraft, sync_event]
    exact h.note

theorem SlideOverBody.OfEvent.recognise {b : SlideOverBody} (h : b.OfEvent)
    (assignee : Option (Option String)) : (b.recognise assignee).OfEvent where
  assignee := by
    unfold SlideOverBody.recognise
    split
    · exact writtenOn_of _ _
    · exact h.assignee
  note := by
    rw [recognise_noteDraft, recognise_event]
    exact h.note

theorem SlideOverBody.Leaves.ofEvent {b : SlideOverBody} {event : EventWithTriage}
    {details : String × String -> DetailQuery} (h : b.Leaves event details) :
    ((({ b with event := event } : SlideOverBody).sync
      (assigneeOf (useTriageDetailOrNull (details event.key)))).recognise
      (assigneeOf (useTriageDetailOrNull (details event.key)))).OfEvent := by
  have hnote : b.noteDraft.Of event.key := blank_of h.left event.key
  rcases h.right with hblank | ⟨hsynced, hfocus⟩ | hreads
  · have hkept : ({ b with event := event } : SlideOverBody).OfEvent :=
      ⟨blank_of hblank event.key, hnote⟩
    exact (hkept.sync _).recognise _
  · apply SlideOverBody.OfEvent.recognise
    unfold SlideOverBody.sync
    rw [if_neg hsynced, if_neg hfocus]
    exact ⟨writtenOn_of _ _, hnote⟩
  · -- the text stays, by the effect or without it
    have htext : (({ b with event := event } : SlideOverBody).sync
        (assigneeOf (useTriageDetailOrNull (details event.key)))).assigneeDraft.text =
          b.assigneeDraft.text := by
      unfold SlideOverBody.sync
      split
      · rfl
      · show Draft.text (if _ then _ else _) = _
        split
        · rfl
        · rw [writtenOn_text, hreads]
          rfl
    have hown : assigneeOf (useTriageDetailOrNull (details event.key)) =
        some (some (({ b with event := event } : SlideOverBody).sync
          (assigneeOf (useTriageDetailOrNull (details event.key)))).assigneeDraft.text) := by
      rw [htext]
      exact hreads
    unfold SlideOverBody.recognise
    rw [if_pos hown]
    refine ⟨writtenOn_of _ _, ?_⟩
    show Draft.Of (SlideOverBody.sync _ _).event.key (SlideOverBody.sync _ _).noteDraft
    rw [sync_noteDraft, sync_event]
    exact hnote

/-- The drafts of the open component come from its event. -/
def AlertsTab.DraftsOwn (s : AlertsTab) : Prop :=
  forall b, s.body = some b -> b.OfEvent

theorem draftsOwn_step (h : s.DraftsOwn) (hsettled : s.Settled toLowerCase l)
    (hstep : s.step toLowerCase l = some s') : s'.DraftsOwn := by
  intro b' hb'
  cases AlertsTab.step_cases hstep with
  | @page l page hpage =>
      rcases render_some hb' with ⟨event, hshown, _, hrendered⟩
      rw [hrendered]
      cases hbody : s.body with
      | none => exact ((ofEvent_mounted event).sync _).recognise _
      | some b =>
          by_cases hkey : event.key = b.event.key
          · have hkept : ({ b with event := event } : SlideOverBody).OfEvent := by
              have hb := h b hbody
              constructor
              · show b.assigneeDraft.Of event.key
                rw [hkey]
                exact hb.assignee
              · show b.noteDraft.Of event.key
                rw [hkey]
                exact hb.note
            exact (hkept.sync _).recognise _
          · exact (hsettled b page event hbody hpage hshown hkey).ofEvent
  | focus hb =>
      cases hb'
      exact ⟨(h _ hb).assignee, (h _ hb).note⟩
  | editAssignee hb =>
      cases hb'
      exact ⟨(h _ hb).assignee.edit _, (h _ hb).note⟩
  | editNote hb =>
      cases hb'
      exact ⟨(h _ hb).assignee, (h _ hb).note.edit _⟩
  | sent hb hx =>
      cases hb'
      exact ⟨(h _ hb).assignee, (h _ hb).note⟩
  | ignored => exact h b' hb'
  | append hb hx =>
      cases hb'
      exact ⟨(h _ hb).assignee, (h _ hb).note⟩
  | createFirst hb hx =>
      cases hb'
      exact ⟨(h _ hb).assignee, (h _ hb).note⟩
  | upsertDone hb =>
      cases hb'
      exact ⟨(h _ hb).assignee, (h _ hb).note⟩
  | noteNext hb hup =>
      cases hb'
      exact ⟨(h _ hb).assignee, (h _ hb).note⟩
  | @noteDone ok b hb =>
      cases hb'
      refine ⟨(h _ hb).assignee, ?_⟩
      cases ok with
      | true =>
          intro c hc
          cases hc
      | false => exact (h _ hb).note

theorem own_empty (p : Payload) : Submission.Own ⟨p, []⟩ := by
  intro c hc
  cases hc

theorem made_own (h : s.DraftsOwn) {x : Submission} (hx : x ∈ s.made l) : x.Own := by
  unfold AlertsTab.made at hx
  cases hb : s.body with
  | none =>
      rw [hb] at hx
      cases hx
  | some b =>
      rw [hb] at hx
      cases l with
      | setStatus status =>
          rw [List.mem_singleton.mp hx]
          exact own_empty _
      | assign =>
          rw [List.mem_singleton.mp hx]
          exact (h b hb).assignee.trim
      | submitNote =>
          simp only at hx
          rcases onSubmitNote_cases b.event
            (useTriageDetailOrNull (s.page.details b.event.key)) b.noteDraft with
            ⟨_, hignored⟩ | ⟨note, _, _, hkey, happend | ⟨row, hcreate, _⟩⟩
          · rw [hignored] at hx
            cases hx
          · rw [happend] at hx
            rw [List.mem_singleton.mp hx]
            show b.noteDraft.trim.Of (Payload.note note).key
            rw [hkey]
            exact (h b hb).note.trim
          · rw [hcreate] at hx
            rcases List.mem_cons.mp hx with hfirst | hsecond
            · rw [hfirst]
              exact own_empty _
            · rw [List.mem_singleton.mp hsecond]
              show b.noteDraft.trim.Of (Payload.note note).key
              rw [hkey]
              exact (h b hb).note.trim
      | _ => cases hx

/-!
## What the forms can send next
-/

/-- A draft of the open slide-over can be sent for its event. -/
def CanSend (toLowerCase : String -> String) (s : AlertsTab) (key : String × String)
    (d : Draft) : Prop :=
  exists more t x, runSteps (AlertsTab.step toLowerCase) s more = some t ∧ x ∈ t.sent ∧
    x.payload.key = key ∧ x.text = d.trim

theorem canSend_last {key : String × String} {d : Draft} {more : List TabLabel}
    {t : AlertsTab} {x : Submission} {before : List Submission}
    (hrun : runSteps (AlertsTab.step toLowerCase) s more = some t)
    (hsent : t.sent = before ++ [x]) (hkey : x.payload.key = key) (htext : x.text = d.trim) :
    CanSend toLowerCase s key d := by
  refine ⟨more, t, x, hrun, ?_, hkey, htext⟩
  rw [hsent]
  exact List.mem_append.mpr (Or.inr (List.mem_singleton.mpr rfl))

theorem canSend_note {b : SlideOverBody} (hb : s.body = some b)
    (hread : Web.trim b.noteDraft.text ≠ "") :
    CanSend toLowerCase s b.event.key b.noteDraft := by
  rcases onSubmitNote_cases b.event (useTriageDetailOrNull (s.page.details b.event.key))
    b.noteDraft with ⟨hblank, _⟩ | ⟨note, _, _, hkey, happend | ⟨row, hcreate, _⟩⟩
  · exact absurd hblank hread
  · have hstep : s.step toLowerCase .submitNote = some { s with
        body := some { b with appendNote := true }
        sent := s.sent ++ [⟨.note note, b.noteDraft.trim⟩] } := by
      simp only [AlertsTab.step, AlertsTab.withBody, hb, happend]
    have hrun : runSteps (AlertsTab.step toLowerCase) s [.submitNote] = some _ :=
      runSteps_cons_of_step hstep
    exact canSend_last hrun rfl hkey rfl
  · -- the note goes out when its row has been created
    have hstep : s.step toLowerCase .submitNote = some { s with
        body := some { b with upsert := some (some ⟨.note note, b.noteDraft.trim⟩) }
        sent := s.sent ++ [⟨.upsert row, []⟩] } := by
      simp only [AlertsTab.step, AlertsTab.withBody, hb, hcreate]
    have hrun : runSteps (AlertsTab.step toLowerCase) s [.submitNote, .upsertSettled true] =
        some _ := runSteps_cons_of_step hstep
    exact canSend_last hrun rfl hkey rfl

theorem canSend_assignee_now {b : SlideOverBody} (hb : s.body = some b)
    (hfree : b.upsert = none) : CanSend toLowerCase s b.event.key b.assigneeDraft := by
  let x : Submission :=
    ⟨.upsert (onAssign b.event (useTriageDetailOrNull (s.page.details b.event.key))
      b.assigneeDraft.text), b.assigneeDraft.trim⟩
  have hstep : s.step toLowerCase .assign = some { s with
      body := some { b with upsert := some none }
      sent := s.sent ++ [x] } := by
    simp only [AlertsTab.step, AlertsTab.withBody, hb, hfree]
    rfl
  have hrun : runSteps (AlertsTab.step toLowerCase) s [.assign] = some _ :=
    runSteps_cons_of_step hstep
  exact canSend_last hrun rfl rfl rfl

theorem canSend_assignee {b : SlideOverBody} (hb : s.body = some b) :
    CanSend toLowerCase s b.event.key b.assigneeDraft := by
  cases hup : b.upsert with
  | none => exact canSend_assignee_now hb hup
  | some next =>
      -- the form is disabled until the pending upsert has settled
      have hstep : s.step toLowerCase (.upsertSettled false) =
          some { s with body := some { b with upsert := none } } := by
        simp only [AlertsTab.step, AlertsTab.withBody, hb, hup]
      have hnow : CanSend toLowerCase { s with body := some { b with upsert := none } }
          b.event.key b.assigneeDraft :=
        canSend_assignee_now (b := { b with upsert := none }) rfl rfl
      rcases hnow with ⟨more, t, x, hrun, hx, hkey, htext⟩
      refine ⟨.upsertSettled false :: more, t, x, ?_, hx, hkey, htext⟩
      rw [runSteps_cons_of_step hstep]
      exact hrun

theorem render_note {event : EventWithTriage} {details : String × String -> DetailQuery}
    {b : SlideOverBody} (h : s.body = SlideOverBody.render (some event) details (some b)) :
    exists b2, s.body = some b2 ∧ b2.event = event ∧ b2.noteDraft = b.noteDraft := by
  refine ⟨_, h, ?_, ?_⟩
  · rw [recognise_event, sync_event]
    rfl
  · rw [recognise_noteDraft, sync_noteDraft]
    rfl

theorem render_stays {event : EventWithTriage} {details : String × String -> DetailQuery}
    {b : SlideOverBody} (h : s.body = SlideOverBody.render (some event) details (some b))
    (hsynced : b.synced ≠ some (assigneeOf (useTriageDetailOrNull (details event.key))) ->
      b.focus = some .assignee)
    (hvalue : assigneeOf (useTriageDetailOrNull (details event.key)) ≠
      some (some b.assigneeDraft.text)) :
    exists b2, s.body = some b2 ∧ b2.event = event ∧ b2.assigneeDraft = b.assigneeDraft := by
  have hsync : (({ b with event := event } : SlideOverBody).sync
      (assigneeOf (useTriageDetailOrNull (details event.key)))).assigneeDraft =
        b.assigneeDraft := by
    unfold SlideOverBody.sync
    split
    · rfl
    · rename_i hdep
      exact if_pos (hsynced hdep)
  refine ⟨_, h, ?_, ?_⟩
  · rw [recognise_event, sync_event]
    rfl
  · unfold SlideOverBody.withEvent
    rw [recognise_of_ne (by rw [hsync]; exact hvalue)]
    exact hsync

theorem strays_of_not_settled (h : s.DraftsOwn) (hnot : ¬ s.Settled toLowerCase l)
    (hstep : s.step toLowerCase l = some s') :
    exists more t, runSteps (AlertsTab.step toLowerCase) s' more = some t ∧
      exists x, x ∈ t.sent ∧ ¬ x.Own := by
  have hstray : forall b key d, d.Of (b : SlideOverBody).event.key ->
      Web.trim d.text ≠ "" -> key ≠ b.event.key -> CanSend toLowerCase s' key d ->
      exists more t, runSteps (AlertsTab.step toLowerCase) s' more = some t ∧
        exists x, x ∈ t.sent ∧ ¬ x.Own := by
    intro b key d hd hread hne hsend
    rcases hsend with ⟨more, t, x, hrun, hx, hkey, htext⟩
    refine ⟨more, t, hrun, x, hx, ?_⟩
    unfold Submission.Own
    rw [hkey, htext]
    exact not_of_other hd hread hne
  cases l with
  | page l =>
      unfold AlertsTab.Settled at hnot
      push Not at hnot
      rcases hnot with ⟨b, page, event, hb, hpage, hshown, hne, hleaves⟩
      have hs' : s'.body = SlideOverBody.render (some event) page.details (some b) := by
        cases AlertsTab.step_cases hstep with
        | page hpage' =>
            rw [hpage] at hpage'
            cases hpage'
            rw [hshown, hb]
        | sent _ hmade => simp [AlertsTab.made, hb] at hmade
      have hown := h b hb
      by_cases hnote : Web.trim b.noteDraft.text = ""
      · unfold SlideOverBody.Leaves at hleaves
        push Not at hleaves
        rcases hleaves hnote with ⟨hread, hsynced, hvalue⟩
        rcases render_stays hs' hsynced hvalue with ⟨b2, hb2, hevent, hdraft⟩
        have hsend : CanSend toLowerCase s' b2.event.key b2.assigneeDraft :=
          canSend_assignee hb2
        rw [hevent, hdraft] at hsend
        exact hstray b event.key b.assigneeDraft hown.assignee hread hne hsend
      · rcases render_note hs' with ⟨b2, hb2, hevent, hdraft⟩
        have hread : Web.trim b2.noteDraft.text ≠ "" := by
          rw [hdraft]
          exact hnote
        have hsend : CanSend toLowerCase s' b2.event.key b2.noteDraft := canSend_note hb2 hread
        rw [hevent, hdraft] at hsend
        exact hstray b event.key b.noteDraft hown.note hnote hne hsend
  | _ => exact absurd trivial hnot

/-!
## Runs
-/

theorem all_start (page : AlertsPage) : (AlertsTab.start toLowerCase page).All Q where
  sent := by
    intro x hx
    cases hx
  waiting := by
    intro b x hb hx
    rcases render_waiting hb hx with ⟨old, hold, _⟩
    cases hold

theorem draftsOwn_start (page : AlertsPage) :
    (AlertsTab.start toLowerCase page).DraftsOwn := by
  intro b hb
  rcases render_some hb with ⟨event, _, _, hrendered⟩
  rw [hrendered]
  exact ((ofEvent_mounted event).sync _).recognise _

theorem recorded_run {page : AlertsPage} {labels : List TabLabel}
    (hrun : runSteps (AlertsTab.step toLowerCase) (AlertsTab.start toLowerCase page) labels =
      some s) : s.All Submission.Recorded :=
  run_invariant (fun _ _ _ h hstep => all_step h (fun _ hx => made_recorded hx) hstep)
    (all_start page) hrun

theorem own_run {labels : List TabLabel} (hs : s.DraftsOwn ∧ s.All Submission.Own)
    (hall : EveryStep (AlertsTab.step toLowerCase)
      (fun t l _ => t.Settled toLowerCase l) s labels)
    (hrun : runSteps (AlertsTab.step toLowerCase) s labels = some s') :
    s'.DraftsOwn ∧ s'.All Submission.Own := by
  have hstep : forall (t : AlertsTab) (l : TabLabel) (t' : AlertsTab),
      t.Settled toLowerCase l -> t.DraftsOwn ∧ t.All Submission.Own ->
      t.step toLowerCase l = some t' -> t'.DraftsOwn ∧ t'.All Submission.Own := by
    intro t l t' hsettled ht hafter
    exact ⟨draftsOwn_step ht.left hsettled hafter,
      all_step ht.right (fun _ hx => made_own ht.left hx) hafter⟩
  exact run_invariant_every hstep hall hs hrun

end

/-- In every run, what is sent is the text as it was written.  When no event is opened over
fields that do not belong with it, every text comes from the event that its request
names; and after the first time that one is, the next submission sends a text of the
event before. -/
theorem drafts_stay (toLowerCase : String -> String) (page : AlertsPage)
    (labels : List TabLabel) :
    (forall s, runSteps (AlertsTab.step toLowerCase) (AlertsTab.start toLowerCase page) labels =
        some s -> forall x, x ∈ s.sent -> x.Recorded) ∧
    (EveryStep (AlertsTab.step toLowerCase) (fun s l _ => s.Settled toLowerCase l)
        (AlertsTab.start toLowerCase page) labels ->
      forall s, runSteps (AlertsTab.step toLowerCase) (AlertsTab.start toLowerCase page) labels =
          some s ->
        (forall x, x ∈ s.sent -> x.Own) ∧
        forall l s', s.step toLowerCase l = some s' -> ¬ s.Settled toLowerCase l ->
          exists more t, runSteps (AlertsTab.step toLowerCase) s' more = some t ∧
            exists x, x ∈ t.sent ∧ ¬ x.Own) := by
  constructor
  · intro s hrun
    exact (recorded_run hrun).sent
  · intro hall s hrun
    have hown := own_run ⟨draftsOwn_start page, all_start page⟩ hall hrun
    refine ⟨hown.right.sent, ?_⟩
    intro l s' hstep hnot
    exact strays_of_not_settled hown.left hnot hstep

/-!
## A note begun on another event
-/

def alertRow (eventID : String) : EventWithTriage :=
  { eventID := eventID, ts := "", hostID := "h1", severity := "warn",
    evidence := ⟨none, none, some [123, 125]⟩, triage := none }

def twoAlerts : AlertsPage :=
  { engine := ArraySort.insertion
    pages := [⟨some [alertRow "e1", alertRow "e2"], none⟩]
    filter := ⟨[], ""⟩, sort := .severityDesc, alert := none, byID := fun _ => none
    details := fun _ => DetailQuery.loading, cheatsheetOpen := false }

def noteThenNext : List TabLabel :=
  [.page (.click (alertRow "e1")), .focus (some .note), .edit .note ⟨0, 0, "isolate"⟩,
    .focus none, .page (.press .j), .submitNote, .upsertSettled true]

def noteSentFirst : List TabLabel :=
  [.page (.click (alertRow "e1")), .focus (some .note), .edit .note ⟨0, 0, "isolate"⟩,
    .submitNote, .upsertSettled true, .noteSettled true, .focus none, .page (.press .j)]

theorem drafts_stay_noteSentFirst :
    exists s, runSteps (AlertsTab.step id) (AlertsTab.start id twoAlerts) noteSentFirst =
        some s ∧ s.sent.map Submission.payload =
          [.upsert ⟨"h1", "e1", some statusOpen, none, none, some [123, 125]⟩,
            .note ⟨"h1", "e1", "isolate"⟩] ∧
      forall x, x ∈ s.sent -> x.Own := by
  have hrun : exists s, runSteps (AlertsTab.step id) (AlertsTab.start id twoAlerts)
      noteSentFirst = some s ∧ s.sent.map Submission.payload =
          [.upsert ⟨"h1", "e1", some statusOpen, none, none, some [123, 125]⟩,
            .note ⟨"h1", "e1", "isolate"⟩] := by
    refine ⟨_, rfl, ?_⟩
    decide
  have hsettled : EveryStep (AlertsTab.step id) (fun s l _ => s.Settled id l)
      (AlertsTab.start id twoAlerts) noteSentFirst := by
    refine ⟨?_, trivial, trivial, trivial, trivial, trivial, trivial, ?_, trivial⟩
    · intro b page event hb
      cases hb
    · intro b page event hb _ _ _
      cases hb
      exact ⟨by decide, Or.inl (by decide)⟩
  rcases hrun with ⟨s, hs, hpayloads⟩
  exact ⟨s, hs, hpayloads, ((drafts_stay id twoAlerts noteSentFirst).right hsettled s hs).left⟩

theorem not_drafts_stay_noteThenNext :
    exists s x, runSteps (AlertsTab.step id) (AlertsTab.start id twoAlerts) noteThenNext =
        some s ∧ x ∈ s.sent ∧ x.payload = .note ⟨"h1", "e2", "isolate"⟩ ∧
      x.text = writtenOn ("h1", "e1") "isolate" ∧ ¬ x.Own := by
  have hrun : exists s, runSteps (AlertsTab.step id) (AlertsTab.start id twoAlerts)
      noteThenNext = some s ∧ s.sent.getLast? =
        some ⟨.note ⟨"h1", "e2", "isolate"⟩, writtenOn ("h1", "e1") "isolate"⟩ := by
    refine ⟨_, rfl, ?_⟩
    decide
  rcases hrun with ⟨s, hs, hlast⟩
  refine ⟨s, _, hs, List.mem_of_getLast? hlast, rfl, rfl, ?_⟩
  intro hown
  have hchar := hown ⟨'i', ("h1", "e1")⟩ (by decide) (by decide)
  exact absurd hchar (by decide)

end Web
end LodelineManager
