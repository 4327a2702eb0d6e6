import LodelineManager.Foundation.StableSort
import LodelineManager.Triage.ClockedWrites
import LodelineManager.Triage.CommitOrder
import LodelineManager.Triage.PartialUpdate

/-!
# What the store never takes back

The history of an alert only grows: its row stays with the time and the evidence it was
made with, and what stands in its log and its notes stands there for good.
-/

namespace LodelineManager
namespace Triage

open Foundation SingleConnection Go

/-- The later contents go on with the history of a key. -/
structure Extends (key : String × String) (d d' : Db) : Prop where
  row : forall r, d.triage.find? key = some r -> exists r', d'.triage.find? key = some r' ∧
    r'.createdAt = r.createdAt ∧ r'.evidenceSnapshot = r.evidenceSnapshot
  log : entriesOf d key <+: entriesOf d' key
  notes : notesOf d key <+: notesOf d' key

theorem Extends.refl (key : String × String) (d : Db) : Extends key d d where
  row := fun r hr => ⟨r, hr, rfl, rfl⟩
  log := List.prefix_refl _
  notes := List.prefix_refl _

theorem Extends.trans {key : String × String} {d d' d'' : Db} (h : Extends key d d')
    (h' : Extends key d' d'') : Extends key d d'' where
  row := by
    intro r hr
    rcases h.row r hr with ⟨r', hr', hcreated, hevidence⟩
    rcases h'.row r' hr' with ⟨r'', hr'', hcreated', hevidence'⟩
    exact ⟨r'', hr'', hcreated'.trans hcreated, hevidence'.trans hevidence⟩
  log := h.log.trans h'.log
  notes := h.notes.trans h'.notes

theorem filter_prefix {item : Type} {xs ys : List item} (p : item -> Bool) (h : xs <+: ys) :
    xs.filter p <+: ys.filter p := by
  rcases h with ⟨more, rfl⟩
  rw [List.filter_append]
  exact List.prefix_append _ _

theorem Upserted.extends {now : Int} {inp : UpsertInput} {d d' : Db} {row : Row}
    (h : Upserted now inp d row d') (key : String × String) : Extends key d d' := by
  have hupdated := h.partiallyUpdated.right
  refine ⟨?_, ?_, ?_⟩
  · intro r hr
    by_cases hkey : key = inp.key
    · rw [hkey] at hr ⊢
      rcases hupdated.stored with ⟨r', hr', _, _, hcreated, hevidence⟩
      rw [hr] at hcreated hevidence
      exact ⟨r', hr', hcreated, hevidence⟩
    · exact ⟨r, (hupdated.others key hkey).trans hr, rfl, rfl⟩
  · apply filter_prefix
    rw [hupdated.logged]
    exact List.prefix_append _ _
  · have hsame : notesOf d key = notesOf d' key := by
      unfold notesOf
      rw [hupdated.noted]
    exact ⟨[], (List.append_nil _).trans hsame⟩

theorem WriteCall.Effect.extends {d d' : Db} {w : WriteCall} {a : Reply} (h : w.Effect d a d')
    (key : String × String) : Extends key d d' := by
  cases h with
  | upsert hup => exact hup.extends key
  | appendNote hfind =>
      exact ⟨fun r hr => ⟨r, hr, rfl, rfl⟩, List.prefix_refl _,
        filter_prefix _ (List.prefix_append _ _)⟩

section

variable {ident : Type} {fk : Bool} {calls : ident -> WriteCall} {d d' d'' : Db}
  {order order' : List (ident × Except Err Reply)}

theorem TookEffect.related {R : Db -> Db -> Prop} (hrefl : forall d, R d d)
    (htrans : forall d d' d'', R d d' -> R d' d'' -> R d d'')
    (heffect : forall t a d d', (t, a) ∈ order -> forall b, (calls t).Effect d b d' -> R d d')
    (h : TookEffect fk calls d order d') : R d d' := by
  rcases h with ⟨hserial, hgood⟩
  induction hserial with
  | nil d => exact hrefl d
  | @cons d mid d' t a rest hrun _ ih =>
      rcases hgood t a List.mem_cons_self with ⟨b, hb⟩
      rw [hb] at hrun
      have hhead := heffect t a d mid List.mem_cons_self b (prog_ok hrun).left
      exact htrans d mid d' hhead
        (ih (fun u c d d' hc => heffect u c d d' (List.mem_cons_of_mem _ hc))
          (fun u c hc => hgood u c (List.mem_cons_of_mem _ hc)))

theorem TookEffect.extends (h : TookEffect fk calls d order d') (key : String × String) :
    Extends key d d' :=
  h.related (Extends.refl key) (fun _ _ _ => Extends.trans)
    (fun _ _ _ _ _ _ heff => heff.extends key)

theorem TookEffect.append (h : TookEffect fk calls d order d')
    (h' : TookEffect fk calls d' order' d'') : TookEffect fk calls d (order ++ order') d'' := by
  rcases h with ⟨hserial, hgood⟩
  rcases h' with ⟨hserial', hgood'⟩
  constructor
  · clear hgood hgood'
    induction hserial with
    | nil d => exact hserial'
    | cons hrun _ ih => exact Serial.cons hrun (ih hserial')
  · intro t a ha
    rcases List.mem_append.mp ha with hfront | hback
    · exact hgood t a hfront
    · exact hgood' t a hback

end

/-!
## The calls on their way
-/

section

variable {ident : Type} [DecidableEq ident] {fk : Bool} {calls : ident -> WriteCall}
  {s s' : System Db Stmt Stmt.Res SqlErr (Except Err Reply) ident}

/-- A state of a run of the calls, from whatever contents. -/
def Underway (fk : Bool) (calls : ident -> WriteCall)
    (s : System Db Stmt Stmt.Res SqlErr (Except Err Reply) ident) : Prop :=
  exists start order,
    Serialized Succeeded (engine fk) (fun t => (calls t).prog) start order s

def callsAround (fk : Bool) :
    Surroundings (System Db Stmt Stmt.Res SqlErr (Except Err Reply) ident) (Event SqlErr ident) Db :=
  { step := System.step (engine fk)
    contents := fun s => s.committed
    free := fun s => s.holder.isNone }

theorem underway_start (fk : Bool) (calls : ident -> WriteCall) (start : Db) :
    Underway fk calls (System.start start (fun t => (calls t).prog)) :=
  ⟨start, [], serialized_start start (fun t => callShape_prog fk (calls t))⟩

theorem Underway.step {e : Event SqlErr ident} (h : Underway fk calls s)
    (hstep : System.step (engine fk) s e = some s') :
    Underway fk calls s' ∧ exists order, TookEffect fk calls s.committed order s'.committed := by
  rcases h with ⟨start, order, hs⟩
  have hnothing : TookEffect fk calls s.committed [] s.committed :=
    ⟨Serial.nil _, fun t a ha => by cases ha⟩
  cases e with
  | contextDone t =>
      refine ⟨⟨start, order, serialized_contextDone hs hstep⟩, [], ?_⟩
      simp only [System.step] at hstep
      split at hstep
      · cases hstep
        exact hnothing
      · cases hstep
  | access t fault =>
      rcases serialized_access (stable_writes fk calls) hs hstep with ⟨order', hs'⟩
      refine ⟨⟨start, order', hs'⟩, ?_⟩
      rcases hs.access_effect hstep with hsame | ⟨a, ha, hone⟩
      · rw [hsame]
        exact ⟨[], hnothing⟩
      · refine ⟨[(t, a)], Serial.cons hone (Serial.nil _), ?_⟩
        intro u b hb
        cases List.mem_singleton.mp hb
        exact ha

theorem Underway.run {events : List (Event SqlErr ident)} (h : Underway fk calls s)
    (hrun : runSteps (System.step (engine fk)) s events = some s') :
    Underway fk calls s' ∧ exists order, TookEffect fk calls s.committed order s'.committed := by
  refine run_invariant (P := fun s' => Underway fk calls s' ∧
    exists order, TookEffect fk calls s.committed order s'.committed) ?_
    ⟨h, [], Serial.nil _, fun t a ha => by cases ha⟩ hrun
  rintro mid e s' ⟨hmid, order, heffect⟩ hstep
  rcases hmid.step hstep with ⟨hs', order', heffect'⟩
  exact ⟨hs', order ++ order', heffect.append heffect'⟩

end

end Triage
end LodelineManager
