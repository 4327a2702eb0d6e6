import LodelineManager.Fleet.CacheReads

/-!
# The answers behind the results of calls

What a call returns was answered to a fetch of its own key, however many calls share the
fetch.  A call that has waited returns the answer that it waited for, and in place of an
error that may pass what it had found in the cache.
-/

namespace LodelineManager
namespace Fleet

open Foundation

variable {value : Type}

def FetchPhase.answer : FetchPhase value -> Option (Except GoErr value)
  | .running => none
  | .answered r => some r
  | .stored v => some (.ok v)
  | .done r => some r

abbrev Answering (value : Type) := Nat -> String -> Except GoErr value -> Prop

/-- All that the fetches have got is answered so. -/
def AnsweredAs (answering : Answering value) (s : Sys value) : Prop :=
  forall f c r, s.fetches f = some c -> c.phase.answer = some r -> answering f c.key r

def Answers (answering : Answering value) (s : Sys value) (l : Label value) (_ : Sys value) :
    Prop :=
  forall f c r, l = .answer f r -> s.fetches f = some c -> answering f c.key r

section

variable {answering : Answering value}

theorem answeredAs_init (clock : Int) : AnsweredAs answering (Sys.init value clock) := by
  intro f c r hc
  cases hc

theorem AnsweredAs.of_fetches_eq {s s' : Sys value} (h : AnsweredAs answering s)
    (heq : s'.fetches = s.fetches) : AnsweredAs answering s' := by
  intro f c r hc
  rw [heq] at hc
  exact h f c r hc

theorem AnsweredAs.update {s s' : Sys value} (h : AnsweredAs answering s) {g : Nat}
    {c' : Fetch value} (heq : s'.fetches = Function.update s.fetches g (some c'))
    (hnew : forall r, c'.phase.answer = some r -> answering g c'.key r) :
    AnsweredAs answering s' := by
  intro f c r hc hanswer
  rw [heq] at hc
  by_cases hf : f = g
  · rw [hf, Function.update_self] at hc
    cases hc
    rw [hf]
    exact hnew r hanswer
  · rw [Function.update_of_ne hf] at hc
    exact h f c r hc hanswer

theorem AnsweredAs.joined {s s' : Sys value} {key : String} {g : Nat}
    (h : AnsweredAs answering s) (hjoin : Joined s key s' g) : AnsweredAs answering s' := by
  cases hjoin with
  | join _ => exact h
  | start _ => exact h.update (Sys.startFetch_fetches s key) (fun r hr => by cases hr)

theorem Step.answeredAs {cfg : CacheConfig} {s s' : Sys value} {l : Label value}
    (hstep : Step cfg s l s') (hanswers : Answers answering s l s')
    (h : AnsweredAs answering s) : AnsweredAs answering s' := by
  cases hstep with
  | stale _ _ hguard => exact h.of_fetches_eq hguard.frame.left
  | block _ _ hjoin => exact (h.joined hjoin).of_fetches_eq rfl
  | refreshDo _ hjoin => exact (h.joined hjoin).of_fetches_eq rfl
  | @answer g key r hg =>
      refine h.update (Sys.setFetch_fetches s g _) ?_
      intro r' hr'
      cases hr'
      exact hanswers g ⟨key, .running⟩ r rfl hg
  | @storeFetched g key v hg =>
      refine h.update (Sys.storeFetch_fetches s _ g key v) ?_
      intro r hr
      cases hr
      exact h g ⟨key, .answered (.ok v)⟩ (.ok v) hg rfl
  | @forgetStored g key v hg =>
      refine h.update (Sys.forgetFetch_fetches s g key _) ?_
      intro r hr
      cases hr
      exact h g ⟨key, .stored v⟩ (.ok v) hg rfl
  | @forgetFailed g key e hg =>
      refine h.update (Sys.forgetFetch_fetches s g key _) ?_
      intro r hr
      cases hr
      exact h g ⟨key, .answered (.error e)⟩ (.error e) hg rfl
  | _ => exact h.of_fetches_eq rfl

theorem everyStep_answers {cfg : CacheConfig} {labels : List (Label value)}
    (h : forall f r, Label.answer f r ∈ labels -> forall key, answering f key r)
    (s : Sys value) : EveryStep (step cfg) (Answers answering) s labels := by
  induction labels generalizing s with
  | nil => trivial
  | cons l rest ih =>
      cases hstep : step cfg s l with
      | none => simp only [EveryStep, hstep]
      | some mid =>
          refine (everyStep_cons hstep).mpr
            ⟨?_, ih (fun f r hmem => h f r (List.mem_cons_of_mem l hmem)) mid⟩
          intro f c r hl _
          exact h f r (List.mem_cons.mpr (Or.inl hl.symm)) c.key

end

/-- The result of a call that has found something or nothing in the cache and waited for
the answer to a fetch. -/
def resultOf (entry : Option (Copied value)) (f : Nat) :
    Except GoErr value -> Except GoErr (Fetched value)
  | .ok v => .ok ⟨f, v⟩
  | .error err =>
      match entry with
      | none => .error err
      | some e => if isRetryable err = true then .ok e.ptr else .error err

theorem resultOf_kept {e : Copied value} {f : Nat} {err : GoErr} (h : isRetryable err = true) :
    resultOf (some e) f (.error err) = .ok e.ptr := if_pos h

theorem resultOf_error {entry : Option (Copied value)} {f : Nat} {err : GoErr}
    (h : isRetryable err = true -> entry = none) :
    resultOf entry f (.error err) = .error err := by
  cases entry with
  | none => rfl
  | some e =>
      refine if_neg ?_
      intro hretry
      cases h hretry

/-- A call returns what it has found without waiting, or goes by the answer to the fetch
that it has waited for. -/
theorem answer_returned {answering : Answering value} {cfg : CacheConfig} {clock : Int}
    {labels : List (Label value)} {s : Sys value}
    (hrun : runSteps (step cfg) (Sys.init value clock) labels = some s)
    (hanswers : EveryStep (step cfg) (Answers answering) (Sys.init value clock) labels)
    {i : Nat} {endpoint suffix : String} {r : Return value}
    (hthread : s.threads i = some (.call endpoint suffix (.returned r))) :
    (r.waitedOn = none ∧ exists p, r.result = .ok p) ∨
      exists f a, r.waitedOn = some f ∧ answering f (cacheKey endpoint suffix) a ∧
        r.result = resultOf r.entry f a := by
  have hall : AnsweredAs answering s :=
    run_invariant_every (fun _ _ _ hQ hP hstep => (step_cases hstep).answeredAs hQ hP) hanswers
      (answeredAs_init clock) hrun
  have hexplained : Explained cfg s endpoint (cacheKey endpoint suffix) r :=
    (accounted_run hrun).threads i _ hthread
  have hgot : forall {f a}, Ended s (cacheKey endpoint suffix) f a ->
      answering f (cacheKey endpoint suffix) a :=
    fun hended => hall _ _ _ hended rfl
  cases hexplained with
  | served _ _ => exact Or.inl ⟨rfl, _, rfl⟩
  | fetched _ hended => exact Or.inr ⟨_, _, rfl, hgot hended, rfl⟩
  | degraded _ _ hended hretry =>
      exact Or.inr ⟨_, _, rfl, hgot hended, (resultOf_kept hretry).symm⟩
  | failed _ hended hsurfaces =>
      refine Or.inr ⟨_, _, rfl, hgot hended, (resultOf_error ?_).symm⟩
      intro hretry
      rcases hsurfaces with hnone | hterminal
      · exact hnone
      · rw [hretry] at hterminal
        cases hterminal

end Fleet
end LodelineManager
