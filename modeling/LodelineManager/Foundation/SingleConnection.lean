import LodelineManager.Foundation.Runs
import Mathlib.Data.List.Nodup
import Mathlib.Logic.Function.Basic

/-!
# Calls that share one database connection

A call is a tree of database accesses: it opens a transaction, runs statements
in it, commits or rolls back, or runs a statement on its own.  One connection
serves every call, so an open transaction keeps all the others out until it
ends.  Any access may fail; a failed statement leaves the working copy alone and
a failed commit discards it.

The module gives the tree its meaning twice, alone on the connection
({lit}`Prog.run`) and interleaved with others ({lit}`System.step`), and proves that
every interleaving leaves the database as some serial order of the calls that
succeeded would.
-/

namespace LodelineManager
namespace Foundation
namespace SingleConnection

/-- The accesses of one call, and how it goes on with the reply to each. -/
inductive Prog (Op : Type) (Res : Op -> Type) (Fault : Type) (result : Type) where
  | ret (a : result)
  | beginTx (k : Except Fault Unit -> Prog Op Res Fault result)
  | stmt (o : Op) (k : Except Fault (Res o) -> Prog Op Res Fault result)
  | commit (k : Except Fault Unit -> Prog Op Res Fault result)
  | rollback (next : Prog Op Res Fault result)
  | auto (o : Op) (k : Except Fault (Res o) -> Prog Op Res Fault result)

/-- What the database does with a statement, and the error of a statement whose
transaction has already ended. -/
structure Engine (Db Op : Type) (Res : Op -> Type) (Fault : Type) where
  apply : (o : Op) -> Db -> Except Fault (Res o × Db)
  txDone : Fault

/-- The contents as committed, and the working copy of an open transaction. -/
structure Conn (Db : Type) where
  committed : Db
  tx : Option Db

section

variable {Db Op Fault result : Type} {Res : Op -> Type}

def Engine.answer (E : Engine Db Op Res Fault) (o : Op) (fault : Option Fault) (d : Db) :
    Except Fault (Res o × Db) :=
  match fault with
  | some e => .error e
  | none => E.apply o d

namespace Prog

/-- One access by the only user of the connection. -/
def next (E : Engine Db Op Res Fault) (fault : Option Fault) :
    Prog Op Res Fault result -> Conn Db -> Prog Op Res Fault result × Conn Db
  | ret a, c => (ret a, c)
  | beginTx k, c =>
      match fault with
      | some e => (k (.error e), c)
      | none => (k (.ok ()), { c with tx := some c.committed })
  | stmt o k, c =>
      match c.tx with
      | none => (k (.error (fault.getD E.txDone)), c)
      | some w =>
          match E.answer o fault w with
          | .error e => (k (.error e), c)
          | .ok (r, w') => (k (.ok r), { c with tx := some w' })
  | commit k, c =>
      match c.tx, fault with
      | none, _ => (k (.error (fault.getD E.txDone)), c)
      | some _, some e => (k (.error e), { c with tx := none })
      | some w, none => (k (.ok ()), { committed := w, tx := none })
  | rollback p, c => (p, { c with tx := none })
  | auto o k, c =>
      match E.answer o fault c.committed with
      | .error e => (k (.error e), c)
      | .ok (r, d) => (k (.ok r), { c with committed := d })

/-- Run a call alone; the {lit}`n`-th access fails when {lit}`faults n` says so. -/
def run (E : Engine Db Op Res Fault) :
    Prog Op Res Fault result -> (Nat -> Option Fault) -> Conn Db -> result × Conn Db
  | ret a, _, c => (a, c)
  | beginTx k, faults, c =>
      match faults 0 with
      | some e => run E (k (.error e)) (fun n => faults (n + 1)) c
      | none => run E (k (.ok ())) (fun n => faults (n + 1))
          { c with tx := some c.committed }
  | stmt o k, faults, c =>
      match c.tx with
      | none => run E (k (.error ((faults 0).getD E.txDone))) (fun n => faults (n + 1)) c
      | some w =>
          match E.answer o (faults 0) w with
          | .error e => run E (k (.error e)) (fun n => faults (n + 1)) c
          | .ok (r, w') => run E (k (.ok r)) (fun n => faults (n + 1))
              { c with tx := some w' }
  | commit k, faults, c =>
      match c.tx, faults 0 with
      | none, _ => run E (k (.error ((faults 0).getD E.txDone))) (fun n => faults (n + 1)) c
      | some _, some e => run E (k (.error e)) (fun n => faults (n + 1)) { c with tx := none }
      | some w, none => run E (k (.ok ())) (fun n => faults (n + 1))
          { committed := w, tx := none }
  | rollback p, faults, c => run E p (fun n => faults (n + 1)) { c with tx := none }
  | auto o k, faults, c =>
      match E.answer o (faults 0) c.committed with
      | .error e => run E (k (.error e)) (fun n => faults (n + 1)) c
      | .ok (r, d) => run E (k (.ok r)) (fun n => faults (n + 1)) { c with committed := d }

def noFaults : Nat -> Option Fault := fun _ => none

@[simp] theorem noFaults_zero : (noFaults 0 : Option Fault) = none := rfl

theorem noFaults_tail :
    (fun n => noFaults (n + 1)) = (noFaults : Nat -> Option Fault) := rfl

/-- {lit}`defer tx.Rollback()`: roll back whenever the rest returns, after a commit
too. -/
def deferRollback : Prog Op Res Fault result -> Prog Op Res Fault result
  | ret a => rollback (ret a)
  | beginTx k => beginTx (fun r => deferRollback (k r))
  | stmt o k => stmt o (fun r => deferRollback (k r))
  | commit k => commit (fun r => deferRollback (k r))
  | rollback p => rollback (deferRollback p)
  | auto o k => auto o (fun r => deferRollback (k r))

def map {result' : Type} (f : result -> result') :
    Prog Op Res Fault result -> Prog Op Res Fault result'
  | ret a => ret (f a)
  | beginTx k => beginTx (fun r => map f (k r))
  | stmt o k => stmt o (fun r => map f (k r))
  | commit k => commit (fun r => map f (k r))
  | rollback p => rollback (map f p)
  | auto o k => auto o (fun r => map f (k r))

def isRet : Prog Op Res Fault result -> Bool
  | ret _ => true
  | _ => false

def needsFree : Prog Op Res Fault result -> Bool
  | beginTx _ => true
  | auto _ _ => true
  | _ => false

theorem run_map {result' : Type} (E : Engine Db Op Res Fault) (f : result -> result')
    (p : Prog Op Res Fault result) (faults : Nat -> Option Fault) (c : Conn Db) :
    (p.map f).run E faults c = (f (p.run E faults c).1, (p.run E faults c).2) := by
  induction p generalizing faults c with
  | ret a => rfl
  | beginTx k ih =>
      cases hf : faults 0 <;> simp only [map, run, hf, ih]
  | stmt o k ih =>
      cases hc : c.tx with
      | none => simp only [map, run, hc, ih]
      | some w =>
          cases ha : E.answer o (faults 0) w <;> simp only [map, run, hc, ha, ih]
  | commit k ih =>
      cases hc : c.tx <;> cases hf : faults 0 <;> simp only [map, run, hc, hf, ih]
  | rollback p ih => exact ih (fun n => faults (n + 1)) _
  | auto o k ih =>
      cases ha : E.answer o (faults 0) c.committed <;> simp only [map, run, ha, ih]

theorem run_deferRollback_tx (E : Engine Db Op Res Fault) (p : Prog Op Res Fault result)
    (faults : Nat -> Option Fault) (c : Conn Db) :
    (p.deferRollback.run E faults c).2.tx = none := by
  induction p generalizing faults c with
  | ret a => rfl
  | beginTx k ih =>
      cases hf : faults 0 <;> simp only [deferRollback, run, hf, ih]
  | stmt o k ih =>
      cases hc : c.tx with
      | none => simp only [deferRollback, run, hc, ih]
      | some w =>
          cases ha : E.answer o (faults 0) w <;> simp only [deferRollback, run, hc, ha, ih]
  | commit k ih =>
      cases hc : c.tx <;> cases hf : faults 0 <;> simp only [deferRollback, run, hc, hf, ih]
  | rollback p ih => exact ih (fun n => faults (n + 1)) _
  | auto o k ih =>
      cases ha : E.answer o (faults 0) c.committed <;>
        simp only [deferRollback, run, ha, ih]

end Prog

/-!
## Shapes of calls

A call that met an error only rolls back and reports it.  A transactional call
runs statements and commits once; a call without a transaction reads first and
writes with its last access.
-/

variable (good : result -> Prop)

/-- Only rolls back and returns a failure. -/
inductive Doomed : Prog Op Res Fault result -> Prop where
  | ret {a : result} : ¬ good a -> Doomed (Prog.ret a)
  | rollback {p : Prog Op Res Fault result} : Doomed p -> Doomed (Prog.rollback p)

/-- Only rolls back and returns the given result. -/
inductive Finished (a : result) : Prog Op Res Fault result -> Prop where
  | ret : Finished a (Prog.ret a)
  | rollback {p : Prog Op Res Fault result} : Finished a p -> Finished a (Prog.rollback p)

/-- The rest of a call whose transaction is open. -/
inductive InTx : Prog Op Res Fault result -> Prop where
  | doomed {p : Prog Op Res Fault result} : Doomed good p -> InTx p
  | stmt {o : Op} {k : Except Fault (Res o) -> Prog Op Res Fault result} :
      (forall e, Doomed good (k (.error e))) ->
      (forall r, InTx (k (.ok r))) ->
      InTx (Prog.stmt o k)
  | commit {k : Except Fault Unit -> Prog Op Res Fault result} {a : result} :
      (forall e, Doomed good (k (.error e))) ->
      good a -> Finished a (k (.ok ())) ->
      InTx (Prog.commit k)

/-- A statement that never changes the contents. -/
def ReadOnly (E : Engine Db Op Res Fault) (o : Op) : Prop :=
  forall d r d', E.apply o d = .ok (r, d') -> d' = d

/-- Calls as a client may issue them. -/
inductive CallShape (E : Engine Db Op Res Fault) : Prog Op Res Fault result -> Prop where
  | doomed {p : Prog Op Res Fault result} : Doomed good p -> CallShape E p
  | beginTx {k : Except Fault Unit -> Prog Op Res Fault result} :
      (forall e, Doomed good (k (.error e))) ->
      InTx good (k (.ok ())) ->
      CallShape E (Prog.beginTx k)
  | read {o : Op} {k : Except Fault (Res o) -> Prog Op Res Fault result} :
      ReadOnly E o ->
      (forall e, Doomed good (k (.error e))) ->
      (forall r, CallShape E (k (.ok r))) ->
      CallShape E (Prog.auto o k)
  | write {o : Op} {k : Except Fault (Res o) -> Prog Op Res Fault result} :
      (forall e, Doomed good (k (.error e))) ->
      (forall r, exists a, good a ∧ Finished a (k (.ok r))) ->
      CallShape E (Prog.auto o k)

/-- The call stands where its reads were answered. -/
inductive ReadTo (E : Engine Db Op Res Fault) :
    Prog Op Res Fault result -> Prog Op Res Fault result -> Prop where
  | refl (p : Prog Op Res Fault result) : ReadTo E p p
  | read {p : Prog Op Res Fault result} {o : Op}
      {k : Except Fault (Res o) -> Prog Op Res Fault result} (r : Res o) :
      ReadOnly E o -> ReadTo E p (Prog.auto o k) -> ReadTo E p (k (.ok r))

theorem ReadTo.head {E : Engine Db Op Res Fault} {p q : Prog Op Res Fault result}
    (h : ReadTo E p q) :
    q = p ∨ exists o k r, p = Prog.auto o k ∧ ReadOnly E o ∧ ReadTo E (k (.ok r)) q := by
  induction h with
  | refl => exact Or.inl rfl
  | @read o k r hro h ih =>
      apply Or.inr
      rcases ih with hp | ⟨o', k', r', hp, hro', hrest⟩
      · exact ⟨o, k, r, hp.symm, hro, ReadTo.refl _⟩
      · exact ⟨o', k', r', hp, hro', ReadTo.read r hro hrest⟩

variable {good}

theorem Doomed.run_eq {E : Engine Db Op Res Fault} {p : Prog Op Res Fault result}
    (h : Doomed good p) (faults : Nat -> Option Fault) (d : Db) (tx : Option Db) :
    ¬ good (p.run E faults ⟨d, tx⟩).1 ∧ (p.run E faults ⟨d, tx⟩).2.committed = d := by
  induction h generalizing faults tx with
  | ret ha => exact ⟨ha, rfl⟩
  | rollback _ ih => exact ih (fun n => faults (n + 1)) none

theorem Finished.run_eq {E : Engine Db Op Res Fault} {a : result}
    {p : Prog Op Res Fault result} (h : Finished a p)
    (faults : Nat -> Option Fault) (d : Db) :
    p.run E faults ⟨d, none⟩ = (a, ⟨d, none⟩) := by
  induction h generalizing faults with
  | ret => rfl
  | rollback _ ih => exact ih (fun n => faults (n + 1))

section Map

variable {result' : Type} {good' : result' -> Prop} {f : result -> result'}

theorem Doomed.map {p : Prog Op Res Fault result} (hf : forall a, good' (f a) -> good a)
    (h : Doomed good p) : Doomed good' (p.map f) := by
  induction h with
  | ret ha => exact Doomed.ret (fun hfa => ha (hf _ hfa))
  | rollback _ ih => exact Doomed.rollback ih

theorem Finished.map {a : result} {p : Prog Op Res Fault result} (h : Finished a p) :
    Finished (f a) (p.map f) := by
  induction h with
  | ret => exact Finished.ret
  | rollback _ ih => exact Finished.rollback ih

theorem InTx.map {p : Prog Op Res Fault result} (hf : forall a, good' (f a) <-> good a)
    (h : InTx good p) : InTx good' (p.map f) := by
  induction h with
  | doomed hd => exact InTx.doomed (hd.map (fun a => (hf a).mp))
  | stmt herr _ ih => exact InTx.stmt (fun e => (herr e).map (fun a => (hf a).mp)) ih
  | commit herr hgood hfin =>
      exact InTx.commit (fun e => (herr e).map (fun a => (hf a).mp)) ((hf _).mpr hgood)
        hfin.map

theorem CallShape.map {E : Engine Db Op Res Fault} {p : Prog Op Res Fault result}
    (hf : forall a, good' (f a) <-> good a) (h : CallShape good E p) :
    CallShape good' E (p.map f) := by
  induction h with
  | doomed hd => exact CallShape.doomed (hd.map (fun a => (hf a).mp))
  | beginTx herr hok =>
      exact CallShape.beginTx (fun e => (herr e).map (fun a => (hf a).mp)) (hok.map hf)
  | read hro herr _ ih =>
      exact CallShape.read hro (fun e => (herr e).map (fun a => (hf a).mp)) ih
  | write herr hok =>
      refine CallShape.write (fun e => (herr e).map (fun a => (hf a).mp)) ?_
      intro r
      rcases hok r with ⟨a, hgood, hfin⟩
      exact ⟨f a, (hf a).mpr hgood, hfin.map⟩

end Map

/-!
## Calls whose accesses may fail

A call alone on the connection either fails and leaves the committed contents, or
ends as if no access had failed.
-/

/-- A run that failed without an effect, or one that no failure touched. -/
def NoEffectOrFaultless (good : result -> Prop) (E : Engine Db Op Res Fault)
    (p : Prog Op Res Fault result) (faults : Nat -> Option Fault) (c : Conn Db) : Prop :=
  (¬ good (p.run E faults c).1 ∧ (p.run E faults c).2.committed = c.committed) ∨
    (good (p.run E faults c).1 ∧ p.run E faults c = p.run E Prog.noFaults c)

theorem Doomed.noEffect {E : Engine Db Op Res Fault} {p : Prog Op Res Fault result}
    (h : Doomed good p) (faults : Nat -> Option Fault) (d : Db) (tx : Option Db) :
    NoEffectOrFaultless good E p faults ⟨d, tx⟩ :=
  Or.inl (h.run_eq faults d tx)

theorem InTx.run_faults {E : Engine Db Op Res Fault} {p : Prog Op Res Fault result}
    (h : InTx good p) (faults : Nat -> Option Fault) (d w : Db) :
    NoEffectOrFaultless good E p faults ⟨d, some w⟩ := by
  induction h generalizing faults w with
  | doomed hd => exact hd.noEffect faults d (some w)
  | @stmt o k herr _ ih =>
      cases hf : faults 0 with
      | some e =>
          simpa only [NoEffectOrFaultless, Prog.run, Engine.answer, hf] using
            Or.inl ((herr e).run_eq (E := E) (fun n => faults (n + 1)) d (some w))
      | none =>
          cases ha : E.apply o w with
          | error e =>
              simpa only [NoEffectOrFaultless, Prog.run, Engine.answer, hf, ha] using
                Or.inl ((herr e).run_eq (E := E) (fun n => faults (n + 1)) d (some w))
          | ok rw =>
              simpa only [NoEffectOrFaultless, Prog.run, Engine.answer, Prog.noFaults_zero,
                Prog.noFaults_tail, hf, ha]
                using ih rw.1 (fun n => faults (n + 1)) rw.2
  | commit herr hgood hfin =>
      cases hf : faults 0 with
      | some e =>
          simpa only [NoEffectOrFaultless, Prog.run, hf] using
            Or.inl ((herr e).run_eq (E := E) (fun n => faults (n + 1)) d none)
      | none =>
          apply Or.inr
          simp only [Prog.run, hf, Prog.noFaults_zero, Prog.noFaults_tail]
          rw [hfin.run_eq, hfin.run_eq]
          exact ⟨hgood, rfl⟩

theorem CallShape.run_faults {E : Engine Db Op Res Fault} {p : Prog Op Res Fault result}
    (h : CallShape good E p) (faults : Nat -> Option Fault) (d : Db) :
    NoEffectOrFaultless good E p faults ⟨d, none⟩ := by
  induction h generalizing faults d with
  | doomed hd => exact hd.noEffect faults d none
  | beginTx herr hok =>
      cases hf : faults 0 with
      | some e =>
          simpa only [NoEffectOrFaultless, Prog.run, hf] using
            Or.inl ((herr e).run_eq (E := E) (fun n => faults (n + 1)) d none)
      | none =>
          simpa only [NoEffectOrFaultless, Prog.run, Prog.noFaults_zero,
                Prog.noFaults_tail, hf] using
            hok.run_faults (E := E) (fun n => faults (n + 1)) d d
  | @read o k hro herr _ ih =>
      cases hf : faults 0 with
      | some e =>
          simpa only [NoEffectOrFaultless, Prog.run, Engine.answer, hf] using
            Or.inl ((herr e).run_eq (E := E) (fun n => faults (n + 1)) d none)
      | none =>
          cases ha : E.apply o d with
          | error e =>
              simpa only [NoEffectOrFaultless, Prog.run, Engine.answer, hf, ha] using
                Or.inl ((herr e).run_eq (E := E) (fun n => faults (n + 1)) d none)
          | ok rd =>
              have hsame : rd.2 = d := hro d rd.1 rd.2 ha
              simpa only [NoEffectOrFaultless, Prog.run, Engine.answer, Prog.noFaults_zero,
                Prog.noFaults_tail, hf, ha,
                hsame] using ih rd.1 (fun n => faults (n + 1)) d
  | @write o k herr hok =>
      cases hf : faults 0 with
      | some e =>
          simpa only [NoEffectOrFaultless, Prog.run, Engine.answer, hf] using
            Or.inl ((herr e).run_eq (E := E) (fun n => faults (n + 1)) d none)
      | none =>
          cases ha : E.apply o d with
          | error e =>
              simpa only [NoEffectOrFaultless, Prog.run, Engine.answer, hf, ha] using
                Or.inl ((herr e).run_eq (E := E) (fun n => faults (n + 1)) d none)
          | ok rd =>
              rcases hok rd.1 with ⟨a, hgood, hfin⟩
              apply Or.inr
              simp only [Prog.run, Engine.answer, Prog.noFaults_zero,
                Prog.noFaults_tail, hf, ha]
              rw [hfin.run_eq, hfin.run_eq]
              exact ⟨hgood, rfl⟩

theorem Doomed.next {E : Engine Db Op Res Fault} {p : Prog Op Res Fault result}
    (h : Doomed good p) (fault : Option Fault) (c : Conn Db) :
    Doomed good (p.next E fault c).1 ∧ (p.next E fault c).2.committed = c.committed ∧
      (c.tx = none -> (p.next E fault c).2.tx = none) := by
  cases h with
  | ret ha => exact ⟨Doomed.ret ha, rfl, fun h => h⟩
  | rollback hp => exact ⟨hp, rfl, fun _ => rfl⟩

theorem Finished.next {E : Engine Db Op Res Fault} {a : result}
    {p : Prog Op Res Fault result} (h : Finished a p) (fault : Option Fault) (c : Conn Db) :
    Finished a (p.next E fault c).1 ∧ (p.next E fault c).2.committed = c.committed ∧
      (c.tx = none -> (p.next E fault c).2.tx = none) := by
  cases h with
  | ret => exact ⟨Finished.ret, rfl, fun h => h⟩
  | rollback hp => exact ⟨hp, rfl, fun _ => rfl⟩

/-- An access inside an open transaction fails, goes on in the transaction, or
commits.  In the last two cases running the rest gives what running from before
the access gave. -/
theorem InTx.next_open {E : Engine Db Op Res Fault} {p : Prog Op Res Fault result}
    (h : InTx good p) (fault : Option Fault) (d w : Db) :
    (Doomed good (p.next E fault ⟨d, some w⟩).1 ∧
        (p.next E fault ⟨d, some w⟩).2.committed = d) ∨
      (exists w', InTx good (p.next E fault ⟨d, some w⟩).1 ∧
        (p.next E fault ⟨d, some w⟩).2 = ⟨d, some w'⟩ ∧
        (p.next E fault ⟨d, some w⟩).1.run E Prog.noFaults ⟨d, some w'⟩ =
          p.run E Prog.noFaults ⟨d, some w⟩) ∨
      (exists a, good a ∧ Finished a (p.next E fault ⟨d, some w⟩).1 ∧
        (p.next E fault ⟨d, some w⟩).2 = ⟨w, none⟩ ∧
        p.run E Prog.noFaults ⟨d, some w⟩ = (a, ⟨w, none⟩)) := by
  cases h with
  | doomed hp =>
      have hn := hp.next (E := E) fault ⟨d, some w⟩
      exact Or.inl ⟨hn.left, hn.right.left⟩
  | stmt herr hok =>
      rename_i o k
      cases fault with
      | some e => exact Or.inl ⟨herr e, rfl⟩
      | none =>
          cases ha : E.apply o w with
          | error e =>
              apply Or.inl
              simp only [Prog.next, Engine.answer, ha]
              exact ⟨herr e, trivial⟩
          | ok rw =>
              apply Or.inr
              apply Or.inl
              refine ⟨rw.2, ?_⟩
              simp only [Prog.next, Engine.answer, ha, Prog.run, Prog.noFaults]
              exact ⟨hok rw.1, trivial, rfl⟩
  | commit herr hgood hfin =>
      rename_i k a
      cases fault with
      | some e => exact Or.inl ⟨herr e, rfl⟩
      | none => exact Or.inr (Or.inr ⟨a, hgood, hfin, rfl, hfin.run_eq _ _⟩)

theorem InTx.next_lost {E : Engine Db Op Res Fault} {p : Prog Op Res Fault result}
    (h : InTx good p) (fault : Option Fault) (d : Db) :
    Doomed good (p.next E fault ⟨d, none⟩).1 ∧ (p.next E fault ⟨d, none⟩).2 = ⟨d, none⟩ := by
  cases h with
  | doomed hp =>
      cases hp with
      | ret ha => exact ⟨Doomed.ret ha, rfl⟩
      | rollback hp => exact ⟨hp, rfl⟩
  | stmt herr _ => exact ⟨herr _, rfl⟩
  | commit herr _ _ => exact ⟨herr _, rfl⟩

theorem Doomed.not_finished {p : Prog Op Res Fault result} {a : result} (h : Doomed good p)
    (hgood : good a) : ¬ Finished a p := by
  intro hfin
  induction h with
  | ret ha =>
      cases hfin
      exact ha hgood
  | rollback _ ih =>
      cases hfin with
      | rollback hp => exact ih hp

theorem InTx.not_finished {p : Prog Op Res Fault result} {a : result} (h : InTx good p)
    (hgood : good a) : ¬ Finished a p := by
  intro hfin
  cases h with
  | doomed hd => exact hd.not_finished hgood hfin
  | stmt herr hok => cases hfin
  | commit herr ha hdone => cases hfin

theorem InTx.next_stmt {E : Engine Db Op Res Fault} {o : Op}
    {k : Except Fault (Res o) -> Prog Op Res Fault result} (h : InTx good (Prog.stmt o k))
    (fault : Option Fault) (d w : Db) :
    InTx good ((Prog.stmt o k).next E fault ⟨d, some w⟩).1 := by
  cases h with
  | doomed hd => cases hd
  | stmt herr hok =>
      simp only [Prog.next]
      cases E.answer o fault w with
      | error e => exact InTx.doomed (herr e)
      | ok rw => exact hok rw.1

/-!
## Interleaved calls

A scheduler picks a call and lets it make its next access.  Opening a
transaction, or a statement on its own, waits while another transaction is open.
The context of a call may also end at any time, which rolls its transaction back
behind its back.
-/

/-- The calls of a system, the committed contents, and the open transaction with
the call it belongs to. -/
structure System (Db Op : Type) (Res : Op -> Type) (Fault result ident : Type) where
  progs : ident -> Prog Op Res Fault result
  committed : Db
  holder : Option (ident × Db)

/-- What the scheduler may do next. -/
inductive Event (Fault ident : Type) where
  | access (t : ident) (fault : Option Fault)
  | contextDone (t : ident)

section

variable {ident : Type} [DecidableEq ident]

namespace System

def view (s : System Db Op Res Fault result ident) (t : ident) : Option Db :=
  match s.holder with
  | none => none
  | some (u, w) => if u = t then some w else none

/-- The holder after call {lit}`t` left its own transaction as {lit}`tx`. -/
def holderAfter (s : System Db Op Res Fault result ident) (t : ident) (tx : Option Db) :
    Option (ident × Db) :=
  match s.holder with
  | none => tx.map (fun w => (t, w))
  | some (u, w) => if u = t then tx.map (fun w => (t, w)) else some (u, w)

/-- May call {lit}`t` make its next access now?  A failing access never waits. -/
def enabled (s : System Db Op Res Fault result ident) (t : ident) (fault : Option Fault) :
    Bool :=
  !(s.progs t).isRet &&
    (fault.isSome || !(s.progs t).needsFree || s.holder.isNone)

def step (E : Engine Db Op Res Fault) (s : System Db Op Res Fault result ident) :
    Event Fault ident -> Option (System Db Op Res Fault result ident)
  | .access t fault =>
      if s.enabled t fault then
        let out := (s.progs t).next E fault ⟨s.committed, s.view t⟩
        some { progs := Function.update s.progs t out.1
               committed := out.2.committed
               holder := s.holderAfter t out.2.tx }
      else none
  | .contextDone t =>
      if (s.view t).isSome then some { s with holder := none } else none

def start (d : Db) (progs : ident -> Prog Op Res Fault result) :
    System Db Op Res Fault result ident :=
  { progs := progs, committed := d, holder := none }

end System

/-- The given calls, each alone on the connection and without failures, one after
the other with the given results. -/
inductive Serial (E : Engine Db Op Res Fault) (progs : ident -> Prog Op Res Fault result) :
    Db -> List (ident × result) -> Db -> Prop where
  | nil (d : Db) : Serial E progs d [] d
  | cons {d d' d'' : Db} {t : ident} {a : result} {rest : List (ident × result)} :
      (progs t).run E Prog.noFaults ⟨d, none⟩ = (a, ⟨d', none⟩) ->
      Serial E progs d' rest d'' ->
      Serial E progs d ((t, a) :: rest) d''

omit [DecidableEq ident] in
theorem Serial.snoc {E : Engine Db Op Res Fault} {progs : ident -> Prog Op Res Fault result}
    {d d' d'' : Db} {t : ident} {a : result} {order : List (ident × result)}
    (h : Serial E progs d order d')
    (hrun : (progs t).run E Prog.noFaults ⟨d', none⟩ = (a, ⟨d'', none⟩)) :
    Serial E progs d (order ++ [(t, a)]) d'' := by
  induction h with
  | nil d => exact Serial.cons hrun (Serial.nil _)
  | cons hhead _ ih => exact Serial.cons hhead (ih hrun)

variable (good)

/-- Where a call stands, given the calls that have taken effect so far. -/
inductive Stage (E : Engine Db Op Res Fault) (start now : Prog Op Res Fault result)
    (committed : Db) (view : Option Db) (done : result -> Prop) : Prop where
  | reading : (forall a, ¬ done a) -> view = none -> ReadTo E start now ->
      now.run E Prog.noFaults ⟨committed, none⟩ = start.run E Prog.noFaults ⟨committed, none⟩ ->
      CallShape good E now -> Stage E start now committed view done
  | inTx : (forall a, ¬ done a) -> InTx good now ->
      (forall w, view = some w ->
        now.run E Prog.noFaults ⟨committed, some w⟩ =
          start.run E Prog.noFaults ⟨committed, none⟩) ->
      Stage E start now committed view done
  | doomed : (forall a, ¬ done a) -> Doomed good now -> Stage E start now committed view done
  | finished {a : result} : done a -> good a -> Finished a now ->
      Stage E start now committed view done

/-- What a call has read and goes on with stays true while other calls take
effect. -/
def Stable (E : Engine Db Op Res Fault) (progs : ident -> Prog Op Res Fault result) : Prop :=
  forall t u p d a d', ReadTo E (progs t) p -> ¬ Doomed good p ->
    p.run E Prog.noFaults ⟨d, none⟩ = (progs t).run E Prog.noFaults ⟨d, none⟩ ->
    (progs u).run E Prog.noFaults ⟨d, none⟩ = (a, ⟨d', none⟩) -> good a ->
    p.run E Prog.noFaults ⟨d', none⟩ = (progs t).run E Prog.noFaults ⟨d', none⟩

/-- The committed contents are those of a serial order of the calls that have
taken effect, and every call stands where that order lets it stand. -/
structure Serialized (E : Engine Db Op Res Fault) (progs : ident -> Prog Op Res Fault result)
    (d0 : Db) (order : List (ident × result))
    (s : System Db Op Res Fault result ident) : Prop where
  nodup : (order.map Prod.fst).Nodup
  serial : Serial E progs d0 order s.committed
  stage : forall t, Stage good E (progs t) (s.progs t) s.committed (s.view t)
    (fun a => (t, a) ∈ order)

variable {good}

omit [DecidableEq ident] in
theorem Prog.next_tx_none {E : Engine Db Op Res Fault} {p : Prog Op Res Fault result}
    {fault : Option Fault} {d : Db}
    (h : p.needsFree = false ∨ fault.isSome = true) :
    (p.next E fault ⟨d, none⟩).2.tx = none := by
  cases p with
  | beginTx k =>
      cases fault with
      | some e => rfl
      | none => cases h <;> contradiction
  | auto o k =>
      cases fault with
      | some e => rfl
      | none => cases h <;> contradiction
  | _ => rfl

theorem Stage.opens {E : Engine Db Op Res Fault} {start now : Prog Op Res Fault result}
    {d w : Db} {done : result -> Prop} {fault : Option Fault}
    (h : Stage good E start now d none done)
    (hopen : (now.next E fault ⟨d, none⟩).2.tx = some w) :
    exists k, now = Prog.beginTx k ∧ fault = none ∧ ReadTo E start (Prog.beginTx k) := by
  cases now with
  | beginTx k =>
      cases fault with
      | some e => cases hopen
      | none =>
          cases h with
          | reading _ _ hread _ _ => exact ⟨k, rfl, rfl, hread⟩
          | inTx _ hin _ =>
              cases hin with
              | doomed hd => cases hd
          | doomed _ hd => cases hd
          | finished _ _ hfin => cases hfin
  | auto o k =>
      simp only [Prog.next] at hopen
      cases ha : E.answer o fault d with
      | error e =>
          rw [ha] at hopen
          cases hopen
      | ok rd =>
          rw [ha] at hopen
          cases hopen
  | ret a => cases hopen
  | stmt o k => cases hopen
  | commit k => cases hopen
  | rollback p => cases hopen

variable (good)

/-- What one access does to the stage of the call that makes it: the contents
stay and the call moves on, or the call takes effect as it would alone. -/
def Acts (E : Engine Db Op Res Fault) (start now : Prog Op Res Fault result) (d : Db)
    (view : Option Db) (done : result -> Prop) (fault : Option Fault) : Prop :=
  ((now.next E fault ⟨d, view⟩).2.committed = d ∧
      Stage good E start (now.next E fault ⟨d, view⟩).1 d
        (now.next E fault ⟨d, view⟩).2.tx done) ∨
    exists a, (forall b, ¬ done b) ∧ good a ∧
      Finished a (now.next E fault ⟨d, view⟩).1 ∧
      (now.next E fault ⟨d, view⟩).2.tx = none ∧
      start.run E Prog.noFaults ⟨d, none⟩ =
        (a, ⟨(now.next E fault ⟨d, view⟩).2.committed, none⟩) ∧
      (view.isSome = true ∨ now.needsFree = true ∧ fault = none)

variable {good}

theorem CallShape.acts {E : Engine Db Op Res Fault} {start now : Prog Op Res Fault result}
    {d : Db} {done : result -> Prop} (h : CallShape good E now) (hnot : forall a, ¬ done a)
    (hread : ReadTo E start now)
    (hrun : now.run E Prog.noFaults ⟨d, none⟩ = start.run E Prog.noFaults ⟨d, none⟩)
    (fault : Option Fault) : Acts good E start now d none done fault := by
  cases h with
  | doomed hd =>
      have hn := hd.next (E := E) fault ⟨d, none⟩
      exact Or.inl ⟨hn.right.left, Stage.doomed hnot hn.left⟩
  | beginTx herr hok =>
      cases fault with
      | some e => exact Or.inl ⟨rfl, Stage.doomed hnot (herr e)⟩
      | none =>
          refine Or.inl ⟨rfl, Stage.inTx hnot hok ?_⟩
          intro w hw
          cases hw
          rw [← hrun]
          rfl
  | @read o k hro herr hok =>
      cases fault with
      | some e => exact Or.inl ⟨rfl, Stage.doomed hnot (herr e)⟩
      | none =>
          apply Or.inl
          cases ha : E.apply o d with
          | error e =>
              simp only [Prog.next, Engine.answer, ha]
              exact ⟨trivial, Stage.doomed hnot (herr e)⟩
          | ok rd =>
              have hsame : rd.2 = d := hro d rd.1 rd.2 ha
              simp only [Prog.next, Engine.answer, ha]
              refine ⟨hsame, Stage.reading hnot rfl (ReadTo.read rd.1 hro hread) ?_ (hok rd.1)⟩
              rw [← hrun]
              simp only [Prog.run, Engine.answer, Prog.noFaults, ha, hsame]
              rfl
  | @write o k herr hok =>
      cases fault with
      | some e => exact Or.inl ⟨rfl, Stage.doomed hnot (herr e)⟩
      | none =>
          cases ha : E.apply o d with
          | error e =>
              apply Or.inl
              simp only [Prog.next, Engine.answer, ha]
              exact ⟨trivial, Stage.doomed hnot (herr e)⟩
          | ok rd =>
              rcases hok rd.1 with ⟨a, hgood, hfin⟩
              refine Or.inr ⟨a, hnot, hgood, ?_, ?_, ?_, Or.inr ⟨rfl, rfl⟩⟩
              · simp only [Prog.next, Engine.answer, ha]
                exact hfin
              · simp only [Prog.next, Engine.answer, ha]
              · rw [← hrun]
                simp only [Prog.run, Prog.next, Engine.answer, Prog.noFaults, ha]
                exact hfin.run_eq _ _

theorem InTx.acts {E : Engine Db Op Res Fault} {start now : Prog Op Res Fault result}
    {d : Db} {view : Option Db} {done : result -> Prop} (h : InTx good now)
    (hnot : forall a, ¬ done a)
    (hrun : forall w, view = some w ->
      now.run E Prog.noFaults ⟨d, some w⟩ = start.run E Prog.noFaults ⟨d, none⟩)
    (fault : Option Fault) : Acts good E start now d view done fault := by
  cases view with
  | none =>
      have hn := h.next_lost (E := E) fault d
      refine Or.inl ⟨?_, Stage.doomed hnot hn.left⟩
      rw [hn.right]
  | some w =>
      rcases h.next_open (E := E) fault d w with hdoom | hgo | hdone
      · exact Or.inl ⟨hdoom.right, Stage.doomed hnot hdoom.left⟩
      · rcases hgo with ⟨w', hin, hconn, hsame⟩
        unfold Acts
        rw [hconn]
        refine Or.inl ⟨rfl, Stage.inTx hnot hin ?_⟩
        intro x hx
        cases hx
        rw [hsame]
        exact hrun w rfl
      · rcases hdone with ⟨a, hgood, hfin, hconn, hres⟩
        refine Or.inr ⟨a, hnot, hgood, hfin, ?_, ?_, Or.inl rfl⟩
        · rw [hconn]
        · rw [hconn, ← hrun w rfl]
          exact hres

theorem Stage.acts {E : Engine Db Op Res Fault} {start now : Prog Op Res Fault result}
    {d : Db} {view : Option Db} {done : result -> Prop}
    (h : Stage good E start now d view done) (fault : Option Fault) :
    Acts good E start now d view done fault := by
  cases h with
  | reading hnot hview hread hrun hshape =>
      subst hview
      exact hshape.acts hnot hread hrun fault
  | inTx hnot hin hrun => exact hin.acts hnot hrun fault
  | doomed hnot hd =>
      have hn := hd.next (E := E) fault ⟨d, view⟩
      exact Or.inl ⟨hn.right.left, Stage.doomed hnot hn.left⟩
  | finished hdone hgood hfin =>
      have hn := hfin.next (E := E) fault ⟨d, view⟩
      exact Or.inl ⟨hn.right.left, Stage.finished hdone hgood hn.left⟩

omit [DecidableEq ident] in
theorem Stage.other {E : Engine Db Op Res Fault} {progs : ident -> Prog Op Res Fault result}
    {t u : ident} {now : Prog Op Res Fault result} {d d' : Db} {a : result}
    {done done' : result -> Prop}
    (hstable : Stable good E progs)
    (h : Stage good E (progs t) now d none done)
    (hrun : (progs u).run E Prog.noFaults ⟨d, none⟩ = (a, ⟨d', none⟩)) (hgood : good a)
    (hdone : forall b, done' b <-> done b) :
    Stage good E (progs t) now d' none done' := by
  cases h with
  | reading hnot hview hread heq hshape =>
      by_cases hd : Doomed good now
      · exact Stage.doomed (fun b hb => hnot b ((hdone b).mp hb)) hd
      · exact Stage.reading (fun b hb => hnot b ((hdone b).mp hb)) rfl hread
          (hstable t u now d a d' hread hd heq hrun hgood) hshape
  | inTx hnot hin _ =>
      refine Stage.inTx (fun b hb => hnot b ((hdone b).mp hb)) hin ?_
      intro w hw
      cases hw
  | doomed hnot hd => exact Stage.doomed (fun b hb => hnot b ((hdone b).mp hb)) hd
  | finished hb hg hfin => exact Stage.finished ((hdone _).mpr hb) hg hfin

namespace System

theorem view_holderAfter_self (s : System Db Op Res Fault result ident) (t : ident)
    (tx : Option Db) (progs : ident -> Prog Op Res Fault result) (d : Db)
    (h : s.view t = none -> tx ≠ none -> s.holder = none) :
    ({ progs := progs, committed := d, holder := s.holderAfter t tx } :
      System Db Op Res Fault result ident).view t = tx := by
  unfold view holderAfter
  unfold view at h
  cases hh : s.holder with
  | none => cases tx <;> simp
  | some uw =>
      rcases uw with ⟨u, w⟩
      by_cases hut : u = t
      · cases tx <;> simp [hut]
      · cases tx with
        | none => simp [hut]
        | some x =>
            rw [hh] at h
            simp [hut] at h

theorem view_holderAfter_other (s : System Db Op Res Fault result ident) {t u : ident}
    (hne : u ≠ t) (tx : Option Db) (progs : ident -> Prog Op Res Fault result) (d : Db) :
    ({ progs := progs, committed := d, holder := s.holderAfter t tx } :
      System Db Op Res Fault result ident).view u = s.view u := by
  unfold view holderAfter
  cases hh : s.holder with
  | none => cases tx <;> simp [hne.symm]
  | some vw =>
      rcases vw with ⟨v, w⟩
      by_cases hvt : v = t
      · subst hvt
        cases tx <;> simp [hne.symm]
      · simp [hvt]

theorem view_none_of_other {s : System Db Op Res Fault result ident} {t u : ident}
    (hne : u ≠ t) (h : (s.view t).isSome = true ∨ s.holder = none) : s.view u = none := by
  unfold view at h ⊢
  cases hh : s.holder with
  | none => rfl
  | some vw =>
      rcases vw with ⟨v, w⟩
      rw [hh] at h
      by_cases hvt : v = t
      · subst hvt
        simp [hne.symm]
      · simp [hvt] at h

/-- What one access leaves behind: the call moves on, the contents and its view are those
of the connection, and the other calls and views stay. -/
structure Accessed (E : Engine Db Op Res Fault) (s s' : System Db Op Res Fault result ident)
    (t : ident) (fault : Option Fault) : Prop where
  self : s'.progs t = ((s.progs t).next E fault ⟨s.committed, s.view t⟩).1
  other : forall u, u ≠ t -> s'.progs u = s.progs u
  committed : s'.committed = ((s.progs t).next E fault ⟨s.committed, s.view t⟩).2.committed
  view : s'.view t = ((s.progs t).next E fault ⟨s.committed, s.view t⟩).2.tx
  views : forall u, u ≠ t -> s'.view u = s.view u
  free : (s.progs t).needsFree = true -> fault = none -> s.holder = none

theorem step_access {E : Engine Db Op Res Fault}
    {s s' : System Db Op Res Fault result ident} {t : ident} {fault : Option Fault}
    (hstep : step E s (.access t fault) = some s') : Accessed E s s' t fault := by
  simp only [step] at hstep
  split at hstep
  · rename_i hen
    cases hstep
    have hfree : (s.progs t).needsFree = true -> fault = none -> s.holder = none := by
      intro hneeds hfault
      unfold enabled at hen
      rw [hneeds, hfault] at hen
      simpa using ((Bool.and_eq_true _ _).mp hen).right
    refine ⟨Function.update_self _ _ _, fun u hu => Function.update_of_ne hu _ _, rfl, ?_,
      fun u hu => view_holderAfter_other s hu _ _ _, hfree⟩
    apply view_holderAfter_self
    intro hview htx
    -- a transaction that was not open before can only be a new one
    by_cases hneeds : (s.progs t).needsFree = true ∧ fault = none
    · exact hfree hneeds.left hneeds.right
    · apply absurd _ htx
      rw [hview]
      apply Prog.next_tx_none
      cases hn : (s.progs t).needsFree with
      | false => exact Or.inl rfl
      | true =>
          apply Or.inr
          cases fault with
          | some e => rfl
          | none => exact absurd ⟨hn, rfl⟩ hneeds
  · cases hstep

end System

/-!
## Every interleaving is serial

The order of the serial run is the order in which the calls take effect: a
transaction when it commits, a call without one when it writes.
-/

theorem serialized_start {E : Engine Db Op Res Fault}
    {progs : ident -> Prog Op Res Fault result} (d0 : Db)
    (hshape : forall t, CallShape good E (progs t)) :
    Serialized good E progs d0 [] (System.start d0 progs) where
  nodup := List.nodup_nil
  serial := Serial.nil d0
  stage := fun t =>
    Stage.reading (fun _ h => by cases h) rfl (ReadTo.refl _) rfl (hshape t)

theorem Serialized.moved {E : Engine Db Op Res Fault}
    {progs : ident -> Prog Op Res Fault result} {d0 : Db}
    {order : List (ident × result)} {s s' : System Db Op Res Fault result ident}
    (h : Serialized good E progs d0 order s) {t : ident} {fault : Option Fault}
    (hacc : System.Accessed E s s' t fault) (hsame : s'.committed = s.committed)
    (hstage : Stage good E (progs t) (s'.progs t) s.committed (s'.view t)
      (fun a => (t, a) ∈ order)) : Serialized good E progs d0 order s' where
  nodup := h.nodup
  serial := by
    rw [hsame]
    exact h.serial
  stage := by
    intro u
    rw [hsame]
    by_cases hut : u = t
    · rw [hut]
      exact hstage
    · rw [hacc.other u hut, hacc.views u hut]
      exact h.stage u

/-- An access by which its call takes effect. -/
theorem Serialized.took_effect {E : Engine Db Op Res Fault}
    {progs : ident -> Prog Op Res Fault result} {d0 : Db}
    {order : List (ident × result)} {s s' : System Db Op Res Fault result ident}
    (hstable : Stable good E progs) (h : Serialized good E progs d0 order s) {t : ident}
    {fault : Option Fault} {a : result} (hacc : System.Accessed E s s' t fault)
    (hnot : forall b, (t, b) ∉ order) (hgood : good a) (hfin : Finished a (s'.progs t))
    (hrun : (progs t).run E Prog.noFaults ⟨s.committed, none⟩ = (a, ⟨s'.committed, none⟩))
    (hheld : (s.view t).isSome = true ∨ s.holder = none) :
    Serialized good E progs d0 (order ++ [(t, a)]) s' where
  nodup := by
    rw [List.map_append]
    refine List.Nodup.append h.nodup (List.nodup_singleton t) ?_
    intro u hu hut
    rw [List.map_cons, List.map_nil, List.mem_singleton] at hut
    subst hut
    rcases List.mem_map.mp hu with ⟨⟨v, b⟩, hb, hv⟩
    cases hv
    exact hnot b hb
  serial := h.serial.snoc hrun
  stage := by
    intro u
    by_cases hut : u = t
    · rw [hut]
      exact Stage.finished (List.mem_append.mpr (Or.inr (List.mem_singleton.mpr rfl))) hgood hfin
    · rw [hacc.other u hut, hacc.views u hut, System.view_none_of_other hut hheld]
      have hstage := h.stage u
      rw [System.view_none_of_other hut hheld] at hstage
      refine hstage.other hstable hrun hgood ?_
      intro b
      rw [List.mem_append, List.mem_singleton]
      constructor
      · intro hb
        rcases hb with hb | hb
        · exact hb
        · cases hb
          exact absurd rfl hut
      · exact Or.inl

theorem serialized_access {E : Engine Db Op Res Fault}
    {progs : ident -> Prog Op Res Fault result} {d0 : Db}
    {order : List (ident × result)} {s s' : System Db Op Res Fault result ident}
    (hstable : Stable good E progs)
    (h : Serialized good E progs d0 order s) {t : ident} {fault : Option Fault}
    (hstep : System.step E s (.access t fault) = some s') :
    exists order', Serialized good E progs d0 order' s' := by
  have hacc := System.step_access hstep
  rcases (h.stage t).acts fault with ⟨hsame, hstage⟩ | heffect
  · rw [← hacc.committed] at hsame
    rw [← hacc.self, ← hacc.view] at hstage
    exact ⟨order, h.moved hacc hsame hstage⟩
  · rcases heffect with ⟨a, hnot, hgood, hfin, _, hrun, hheld⟩
    rw [← hacc.self] at hfin
    rw [← hacc.committed] at hrun
    refine ⟨order ++ [(t, a)], h.took_effect hstable hacc hnot hgood hfin hrun ?_⟩
    rcases hheld with hview | ⟨hneeds, hfault⟩
    · exact Or.inl hview
    · exact Or.inr (hacc.free hneeds hfault)

theorem serialized_contextDone {E : Engine Db Op Res Fault}
    {progs : ident -> Prog Op Res Fault result} {d0 : Db}
    {order : List (ident × result)} {s s' : System Db Op Res Fault result ident}
    (h : Serialized good E progs d0 order s) {t : ident}
    (hstep : System.step E s (.contextDone t) = some s') :
    Serialized good E progs d0 order s' := by
  unfold System.step at hstep
  by_cases hview : (s.view t).isSome = true
  · simp only [hview, if_true] at hstep
    cases hstep
    refine ⟨h.nodup, h.serial, ?_⟩
    intro u
    cases h.stage u with
    | reading hnot _ hread heq hshape => exact Stage.reading hnot rfl hread heq hshape
    | inTx hnot hin _ => exact Stage.inTx hnot hin (fun w hw => by cases hw)
    | doomed hnot hd => exact Stage.doomed hnot hd
    | finished hdone hgood hfin => exact Stage.finished hdone hgood hfin
  · simp only [hview] at hstep
    cases hstep

theorem serialized_run {E : Engine Db Op Res Fault}
    {progs : ident -> Prog Op Res Fault result} {d0 : Db}
    {events : List (Event Fault ident)} {s : System Db Op Res Fault result ident}
    (hstable : Stable good E progs)
    (hshape : forall t, CallShape good E (progs t))
    (hrun : runSteps (System.step E) (System.start d0 progs) events = some s) :
    exists order, Serialized good E progs d0 order s := by
  refine run_invariant (P := fun s => exists order, Serialized good E progs d0 order s)
    ?_ ⟨[], serialized_start d0 hshape⟩ hrun
  intro s e s' hs hstep
  rcases hs with ⟨order, hs⟩
  cases e with
  | access t fault => exact serialized_access hstable hs hstep
  | contextDone t => exact ⟨order, serialized_contextDone hs hstep⟩

/-!
## What one access writes

The contents change with a commit or with a statement on its own, and then by the
whole of the call.
-/

def System.commitsNow (s : System Db Op Res Fault result ident) (t : ident)
    (fault : Option Fault) : Bool :=
  match s.progs t with
  | .commit _ => (s.view t).isSome && fault.isNone
  | _ => false

def System.autoNow (s : System Db Op Res Fault result ident) (t : ident) : Bool :=
  match s.progs t with
  | .auto _ _ => true
  | _ => false

theorem System.committed_same {E : Engine Db Op Res Fault}
    {s s' : System Db Op Res Fault result ident} {t : ident} {fault : Option Fault}
    (hcommit : s.commitsNow t fault = false) (hauto : s.autoNow t = false)
    (hstep : System.step E s (.access t fault) = some s') : s'.committed = s.committed := by
  rw [(System.step_access hstep).committed]
  unfold System.commitsNow at hcommit
  unfold System.autoNow at hauto
  cases hp : s.progs t with
  | ret a => rfl
  | beginTx k =>
      unfold Prog.next
      cases fault <;> rfl
  | stmt o k =>
      unfold Prog.next
      cases s.view t with
      | none => rfl
      | some w =>
          simp only
          cases E.answer o fault w <;> rfl
  | commit k =>
      simp only [hp] at hcommit
      unfold Prog.next
      cases hv : s.view t with
      | none => rfl
      | some w =>
          cases fault with
          | some e => rfl
          | none =>
              rw [hv] at hcommit
              cases hcommit
  | rollback p => rfl
  | auto o k =>
      rw [hp] at hauto
      cases hauto

theorem Serialized.access_effect {E : Engine Db Op Res Fault}
    {progs : ident -> Prog Op Res Fault result} {d0 : Db}
    {order : List (ident × result)} {s s' : System Db Op Res Fault result ident}
    (h : Serialized good E progs d0 order s) {t : ident} {fault : Option Fault}
    (hstep : System.step E s (.access t fault) = some s') :
    s'.committed = s.committed ∨
      exists a, good a ∧
        (progs t).run E Prog.noFaults ⟨s.committed, none⟩ = (a, ⟨s'.committed, none⟩) := by
  rw [(System.step_access hstep).committed]
  rcases (h.stage t).acts fault with hmove | ⟨a, _, hgood, _, _, hrun, _⟩
  · exact Or.inl hmove.left
  · exact Or.inr ⟨a, hgood, hrun⟩

theorem Serialized.commit_effect {E : Engine Db Op Res Fault}
    {progs : ident -> Prog Op Res Fault result} {d0 : Db}
    {order : List (ident × result)} {s s' : System Db Op Res Fault result ident}
    (h : Serialized good E progs d0 order s) {t : ident} {fault : Option Fault}
    (hcommit : s.commitsNow t fault = true)
    (hstep : System.step E s (.access t fault) = some s') :
    exists a, good a ∧
      (progs t).run E Prog.noFaults ⟨s.committed, none⟩ = (a, ⟨s'.committed, none⟩) := by
  rw [(System.step_access hstep).committed]
  unfold System.commitsNow at hcommit
  have hstage := h.stage t
  cases hp : s.progs t with
  | commit k =>
      simp only [hp] at hcommit
      cases hv : s.view t with
      | none =>
          rw [hv] at hcommit
          cases hcommit
      | some w =>
          cases fault with
          | some e =>
              rw [hv] at hcommit
              cases hcommit
          | none =>
              rw [hp, hv] at hstage
              cases hstage with
              | reading _ hview _ _ _ => cases hview
              | inTx _ hin hrun =>
                  cases hin with
                  | doomed hd => cases hd
                  | @commit _ a herr hgood hfin =>
                      refine ⟨a, hgood, ?_⟩
                      rw [← hrun w rfl]
                      exact hfin.run_eq (fun n => Prog.noFaults (n + 1)) w
              | doomed _ hd => cases hd
              | finished _ _ hfin => cases hfin
  | _ =>
      simp only [hp] at hcommit
      cases hcommit

theorem Serialized.good_of_mem {E : Engine Db Op Res Fault}
    {progs : ident -> Prog Op Res Fault result} {d0 : Db}
    {order : List (ident × result)} {s : System Db Op Res Fault result ident}
    (h : Serialized good E progs d0 order s) {t : ident} {a : result} (ha : (t, a) ∈ order) :
    good a := by
  cases h.stage t with
  | reading hnot _ _ _ _ => exact absurd ha (hnot a)
  | inTx hnot _ _ => exact absurd ha (hnot a)
  | doomed hnot _ => exact absurd ha (hnot a)
  | finished hdone hgood _ =>
      have heq : (t, a) = (t, _) := List.inj_on_of_nodup_map h.nodup ha hdone rfl
      cases heq
      exact hgood

theorem Serialized.mem_iff {E : Engine Db Op Res Fault}
    {progs : ident -> Prog Op Res Fault result} {d0 : Db}
    {order : List (ident × result)} {s : System Db Op Res Fault result ident}
    (h : Serialized good E progs d0 order s) {t : ident} {a : result}
    (hret : s.progs t = Prog.ret a) (b : result) :
    (t, b) ∈ order <-> b = a ∧ good a := by
  have hstage := h.stage t
  rw [hret] at hstage
  have hfail : Doomed good (Prog.ret a : Prog Op Res Fault result) -> ¬ good a := by
    intro hd
    cases hd with
    | ret ha => exact ha
  cases hstage with
  | reading hnot _ _ _ hshape =>
      cases hshape with
      | doomed hd => exact ⟨fun hb => absurd hb (hnot b), fun hb => absurd hb.right (hfail hd)⟩
  | inTx hnot hin _ =>
      cases hin with
      | doomed hd => exact ⟨fun hb => absurd hb (hnot b), fun hb => absurd hb.right (hfail hd)⟩
  | doomed hnot hd =>
      exact ⟨fun hb => absurd hb (hnot b), fun hb => absurd hb.right (hfail hd)⟩
  | finished hdone hgood hfin =>
      cases hfin
      constructor
      · intro hb
        have heq : (t, b) = (t, a) :=
          List.inj_on_of_nodup_map h.nodup hb hdone rfl
        cases heq
        exact ⟨rfl, hgood⟩
      · intro hb
        rw [hb.left]
        exact hdone

end

end

end SingleConnection
end Foundation
end LodelineManager
