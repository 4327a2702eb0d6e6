import LodelineManager.Foundation.SingleConnection

/-!
# A reading call beside the rest of a system

A call that only reads and opens no transaction makes one access after the other,
each at a moment when the connection is free; between two of them the rest of the
system runs on.  What such a call returns is made of the contents at those moments,
in their order.
-/

namespace LodelineManager
namespace Foundation
namespace SingleConnection

/-- The rest of a system, as a reader meets it. -/
structure Surroundings (state label Db : Type) where
  step : state -> label -> Option state
  contents : state -> Db
  free : state -> Bool

section

variable {state label Db Op Fault result : Type} {Res : Op -> Type}

def Prog.bind {result' : Type} (k : result -> Prog Op Res Fault result') :
    Prog Op Res Fault result -> Prog Op Res Fault result'
  | ret a => k a
  | beginTx next => beginTx (fun r => bind k (next r))
  | stmt o next => stmt o (fun r => bind k (next r))
  | commit next => commit (fun r => bind k (next r))
  | rollback p => rollback (bind k p)
  | auto o next => auto o (fun r => bind k (next r))

theorem Prog.map_map {result' result'' : Type} (f : result' -> result'') (g : result -> result')
    (p : Prog Op Res Fault result) : (p.map g).map f = p.map (fun a => f (g a)) := by
  induction p with
  | ret a => rfl
  | beginTx k ih => exact congrArg Prog.beginTx (funext ih)
  | stmt o k ih => exact congrArg (Prog.stmt o) (funext ih)
  | commit k ih => exact congrArg Prog.commit (funext ih)
  | rollback p ih => exact congrArg Prog.rollback ih
  | auto o k ih => exact congrArg (Prog.auto o) (funext ih)

theorem Prog.map_bind {result' result'' : Type} (f : result' -> result'')
    (k : result -> Prog Op Res Fault result') (p : Prog Op Res Fault result) :
    (p.bind k).map f = p.bind (fun a => (k a).map f) := by
  induction p with
  | ret a => rfl
  | beginTx k' ih => exact congrArg Prog.beginTx (funext ih)
  | stmt o k' ih => exact congrArg (Prog.stmt o) (funext ih)
  | commit k' ih => exact congrArg Prog.commit (funext ih)
  | rollback p ih => exact congrArg Prog.rollback ih
  | auto o k' ih => exact congrArg (Prog.auto o) (funext ih)

/-- Statements on their own that change nothing, and no transaction. -/
inductive OnlyReads (E : Engine Db Op Res Fault) : Prog Op Res Fault result -> Prop where
  | ret (a : result) : OnlyReads E (Prog.ret a)
  | auto {o : Op} {k : Except Fault (Res o) -> Prog Op Res Fault result} :
      ReadOnly E o -> (forall r, OnlyReads E (k r)) -> OnlyReads E (Prog.auto o k)

theorem OnlyReads.bind {result' : Type} {E : Engine Db Op Res Fault}
    {p : Prog Op Res Fault result} {k : result -> Prog Op Res Fault result'}
    (hp : OnlyReads E p) (hk : forall a, OnlyReads E (k a)) : OnlyReads E (p.bind k) := by
  induction hp with
  | ret a => exact hk a
  | auto hro _ ih => exact OnlyReads.auto hro ih

structure WithReader (state Op : Type) (Res : Op -> Type) (Fault result : Type) where
  rest : state
  reader : Prog Op Res Fault result

inductive ReaderEvent (label Fault : Type) where
  | rest (l : label)
  | read (fault : Option Fault)

def ReaderEvent.label? : ReaderEvent label Fault -> Option label
  | rest l => some l
  | read _ => none

def WithReader.step (E : Engine Db Op Res Fault) (R : Surroundings state label Db)
    (s : WithReader state Op Res Fault result) :
    ReaderEvent label Fault -> Option (WithReader state Op Res Fault result)
  | .rest l =>
      match R.step s.rest l with
      | none => none
      | some r => some { s with rest := r }
  | .read fault =>
      if !s.reader.isRet && (fault.isSome || R.free s.rest) then
        some { s with reader := (s.reader.next E fault ⟨R.contents s.rest, none⟩).1 }
      else none

/-- The call gets its answers from states that a run of the rest goes through, in
the order of the run. -/
inductive ReadsAlong (E : Engine Db Op Res Fault) (R : Surroundings state label Db) :
    Prog Op Res Fault result -> state -> List label -> result -> state -> Prop where
  | ret {a : result} {s s' : state} {labels : List label} :
      runSteps R.step s labels = some s' -> ReadsAlong E R (Prog.ret a) s labels a s'
  | auto {o : Op} {k : Except Fault (Res o) -> Prog Op Res Fault result} {s mid s' : state}
      {before after : List label} {a : result} (fault : Option Fault) :
      runSteps R.step s before = some mid ->
      ReadsAlong E R ((Prog.auto o k).next E fault ⟨R.contents mid, none⟩).1 mid after a s' ->
      ReadsAlong E R (Prog.auto o k) s (before ++ after) a s'

variable {E : Engine Db Op Res Fault} {R : Surroundings state label Db}

theorem ReadsAlong.cons {p : Prog Op Res Fault result} {s mid s' : state} {l : label}
    {labels : List label} {a : result} (hstep : R.step s l = some mid)
    (h : ReadsAlong E R p mid labels a s') : ReadsAlong E R p s (l :: labels) a s' := by
  cases h with
  | ret hrun =>
      apply ReadsAlong.ret
      rw [runSteps_cons_of_step hstep]
      exact hrun
  | @auto o k _ mid' _ before after _ fault hrun hrest =>
      have hbefore : runSteps R.step s (l :: before) = some mid' := by
        rw [runSteps_cons_of_step hstep]
        exact hrun
      exact ReadsAlong.auto fault hbefore hrest

theorem WithReader.readsAlong {s s' : WithReader state Op Res Fault result}
    {events : List (ReaderEvent label Fault)} {a : result} (hreads : OnlyReads E s.reader)
    (hrun : runSteps (WithReader.step E R) s events = some s') (hret : s'.reader = Prog.ret a) :
    ReadsAlong E R s.reader s.rest (events.filterMap ReaderEvent.label?) a s'.rest := by
  induction events generalizing s with
  | nil =>
      cases hrun
      rw [hret]
      exact ReadsAlong.ret rfl
  | cons e rest ih =>
      rcases runSteps_cons hrun with ⟨mid, hstep, hrest⟩
      cases e with
      | rest l =>
          simp only [WithReader.step] at hstep
          cases hl : R.step s.rest l with
          | none =>
              rw [hl] at hstep
              cases hstep
          | some r =>
              rw [hl] at hstep
              cases hstep
              have hread : OnlyReads E ({ s with rest := r } : WithReader _ _ _ _ _).reader := hreads
              exact (ih hread hrest).cons hl
      | read fault =>
          simp only [WithReader.step] at hstep
          split at hstep
          · rename_i hlive
            cases hstep
            rcases s with ⟨rest, reader⟩
            cases hreads with
            | ret b => cases hlive
            | @auto o k hro hk =>
                have hnext : OnlyReads E
                    ((Prog.auto o k).next E fault ⟨R.contents rest, none⟩).1 := by
                  simp only [Prog.next]
                  split
                  · exact hk _
                  · exact hk _
                have hhere : runSteps R.step rest [] = some rest := rfl
                exact ReadsAlong.auto fault hhere (ih hnext hrest)
          · cases hstep

theorem ReadsAlong.auto_cases {o : Op} {k : Except Fault (Res o) -> Prog Op Res Fault result}
    {s s' : state} {labels : List label} {a : result}
    (h : ReadsAlong E R (Prog.auto o k) s labels a s') :
    exists before after mid answer, labels = before ++ after ∧
      runSteps R.step s before = some mid ∧ ReadsAlong E R (k answer) mid after a s' ∧
      forall v, answer = .ok v -> exists d, E.apply o (R.contents mid) = .ok (v, d) := by
  cases h with
  | @auto _ _ _ mid _ before after _ fault hrun hrest =>
      simp only [Prog.next] at hrest
      split at hrest
      · exact ⟨before, after, mid, _, rfl, hrun, hrest, fun v hv => by cases hv⟩
      · rename_i v d hanswer
        refine ⟨before, after, mid, .ok v, rfl, hrun, hrest, ?_⟩
        intro v' hv
        cases hv
        unfold Engine.answer at hanswer
        cases fault with
        | some e => cases hanswer
        | none => exact ⟨d, hanswer⟩

theorem ReadsAlong.runs {p : Prog Op Res Fault result} {s s' : state} {labels : List label}
    {a : result} (h : ReadsAlong E R p s labels a s') : runSteps R.step s labels = some s' := by
  induction h with
  | ret hrun => exact hrun
  | auto fault hrun _ ih =>
      rw [runSteps_append, hrun]
      exact ih

/-!
## The moments of the reads
-/

def ReaderEvent.fault? : ReaderEvent label Fault -> Option (Option Fault)
  | rest _ => none
  | read fault => some fault

/-- {lit}`ReadsAlong` with the events themselves: the rest runs up to a read, and on after the
last one. -/
inductive ReadsBy (E : Engine Db Op Res Fault) (R : Surroundings state label Db) :
    Prog Op Res Fault result -> state -> List (ReaderEvent label Fault) -> result -> state ->
      Prop where
  | ret {a : result} {s s' : state} {labels : List label} :
      runSteps R.step s labels = some s' ->
      ReadsBy E R (Prog.ret a) s (labels.map ReaderEvent.rest) a s'
  | auto {o : Op} {k : Except Fault (Res o) -> Prog Op Res Fault result} {s mid s' : state}
      {before : List label} {after : List (ReaderEvent label Fault)} {a : result}
      {fault : Option Fault} : runSteps R.step s before = some mid ->
      ReadsBy E R ((Prog.auto o k).next E fault ⟨R.contents mid, none⟩).1 mid after a s' ->
      ReadsBy E R (Prog.auto o k) s (before.map ReaderEvent.rest ++ .read fault :: after) a s'

theorem ReadsBy.cons {p : Prog Op Res Fault result} {s mid s' : state} {l : label}
    {events : List (ReaderEvent label Fault)} {a : result} (hstep : R.step s l = some mid)
    (h : ReadsBy E R p mid events a s') : ReadsBy E R p s (.rest l :: events) a s' := by
  cases h with
  | @ret _ _ _ labels hrun =>
      have hlonger : runSteps R.step s (l :: labels) = some s' :=
        (runSteps_cons_of_step hstep).trans hrun
      exact ReadsBy.ret hlonger
  | @auto o k _ mid' _ before after _ fault hrun hrest =>
      have hlonger : runSteps R.step s (l :: before) = some mid' :=
        (runSteps_cons_of_step hstep).trans hrun
      exact ReadsBy.auto hlonger hrest

theorem WithReader.readsBy {s s' : WithReader state Op Res Fault result}
    {events : List (ReaderEvent label Fault)} {a : result} (hreads : OnlyReads E s.reader)
    (hrun : runSteps (WithReader.step E R) s events = some s') (hret : s'.reader = Prog.ret a) :
    ReadsBy E R s.reader s.rest events a s'.rest := by
  induction events generalizing s with
  | nil =>
      cases hrun
      rw [hret]
      have hhere : runSteps R.step s'.rest [] = some s'.rest := rfl
      exact ReadsBy.ret hhere
  | cons e rest ih =>
      rcases runSteps_cons hrun with ⟨mid, hstep, hrest⟩
      cases e with
      | rest l =>
          simp only [WithReader.step] at hstep
          cases hl : R.step s.rest l with
          | none =>
              rw [hl] at hstep
              cases hstep
          | some r =>
              rw [hl] at hstep
              cases hstep
              have hread : OnlyReads E ({ s with rest := r } : WithReader _ _ _ _ _).reader := hreads
              exact (ih hread hrest).cons hl
      | read fault =>
          simp only [WithReader.step] at hstep
          split at hstep
          · rename_i hlive
            cases hstep
            rcases s with ⟨rest, reader⟩
            cases hreads with
            | ret b => cases hlive
            | @auto o k hro hk =>
                have hnext : OnlyReads E
                    ((Prog.auto o k).next E fault ⟨R.contents rest, none⟩).1 := by
                  simp only [Prog.next]
                  split
                  · exact hk _
                  · exact hk _
                have hhere : runSteps R.step rest [] = some rest := rfl
                exact ReadsBy.auto hhere (ih hnext hrest)
          · cases hstep

end

end SingleConnection
end Foundation
end LodelineManager
