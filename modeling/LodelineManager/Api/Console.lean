import LodelineManager.Api.Sessions
import LodelineManager.Api.UpsertBody
import LodelineManager.Auth.LoginRuns
import LodelineManager.Triage.ClockedWrites

/-!
# The console from the login to the store

Any number of OIDC logins, password logins, requests with whatever cookie and writes of
the requests that were let through, in any order.  An upsert holds the connection from
its look-up to its end, so it is one step; a note looks its row up, reads the clock and
inserts, and anything may run in between.  The state keeps the history that the server
forgets: the tokens it gave out, the requests it let through and the writes it
acknowledged.
-/

namespace LodelineManager
namespace Api

open Foundation SingleConnection Triage Go JSON Auth

/-!
## Writes of a request
-/

def noteRequestFields : List (Field Text NoteRequest) :=
  [field "host_id" NoteRequest.hostID (fun r x => { r with hostID := x }) decodeString,
    field "event_id" NoteRequest.eventID (fun r x => { r with eventID := x }) decodeString,
    field "body" NoteRequest.body (fun r x => { r with body := x }) decodeString]

def noteRequest (body : Option Document) : Option NoteRequest :=
  body.bind (fun v => decodeStruct noteRequestFields v { hostID := "", eventID := "", body := "" })

def upsertCall (now : Int) (subject : String) (body : Option Body) :
    Except ErrorResponse WriteCall :=
  handleTriageUpsert now subject (body.bind Body.upsertRequest)

/-- A note whose look-up has found its row, before and after it has read the clock. -/
structure OpenNote where
  request : NoteRequest
  author : String
  now : Option Int

def OpenNote.call (o : OpenNote) (now : Int) : WriteCall :=
  .appendNote now o.request.hostID o.request.eventID o.author o.request.body

/-- {lit}`handleTriageNote` up to the look-up of {lit}`AppendNote`. -/
def openNote (fk : Bool) (d : Db) (subject : String) (body : Option Document)
    (fault : Option SqlErr) : Option OpenNote :=
  match noteRequest body with
  | none => none
  | some req =>
      match handleTriageNote 0 subject (some req) with
      | .error _ => none
      | .ok _ =>
          if req.hostID = "" || req.eventID = "" || subject = "" || req.body = "" then none
          else
            match ((getByEventKey req.hostID req.eventID).run (engine fk) (fun _ => fault)
              ⟨d, none⟩).1 with
            | .error _ => none
            | .ok _ => some { request := req, author := subject, now := none }

/-- The rest of {lit}`AppendNote`, once it has read the clock. -/
def OpenNote.insert (o : OpenNote) (now : Int) : Call Reply :=
  noteInsert now o.request.hostID o.request.eventID o.author o.request.body

theorem openNote_prog (fk : Bool) (d : Db) (now : Int) (subject : String)
    (body : Option Document) (faults : Nat -> Option SqlErr) {call : WriteCall}
    (hcall : handleTriageNote now subject (noteRequest body) = .ok call) :
    match openNote fk d subject body (faults 0) with
    | none => exists e, call.prog.run (engine fk) faults ⟨d, none⟩ = (.error e, ⟨d, none⟩)
    | some o => call = o.call now ∧ call.prog.run (engine fk) faults ⟨d, none⟩ =
        (o.insert now).run (engine fk) (fun n => faults (n + 1)) ⟨d, none⟩ := by
  unfold openNote
  cases hreq : noteRequest body with
  | none =>
      rw [hreq] at hcall
      cases hcall
  | some req =>
      rw [hreq] at hcall
      cases handleTriageNote_ok hcall
      have hchecked : handleTriageNote 0 subject (some req) =
          .ok (.appendNote 0 req.hostID req.eventID subject req.body) := by
        unfold handleTriageNote at hcall ⊢
        simp only at hcall ⊢
        split at hcall
        · cases hcall
        · rename_i hfields
          exact if_neg hfields
      simp only [hchecked, WriteCall.prog]
      by_cases hfields : (req.hostID = "" || req.eventID = "" || subject = "" || req.body = "") = true
      · rw [if_pos hfields]
        unfold appendNote
        rw [if_pos hfields]
        exact ⟨_, rfl⟩
      · rw [if_neg hfields]
        unfold appendNote OpenNote.insert noteInsert
        rw [if_neg hfields]
        simp only [getByEventKey, getRow, Prog.map, Prog.run]
        cases hanswer : (engine fk).answer (.selectRow req.hostID req.eventID) (faults 0) d with
        | error e => exact ⟨_, rfl⟩
        | ok out =>
            have hsame : out.2 = d := by
              simp only [Engine.answer, engine, execStmt] at hanswer
              split at hanswer
              · cases hanswer
              · cases hanswer
                rfl
            rcases out with ⟨found, d'⟩
            cases hsame
            cases found with
            | none => exact ⟨_, rfl⟩
            | some r =>
                refine ⟨rfl, ?_⟩
                simp only [scanned, Prog.map, Prog.run]

/-!
## The state
-/

/-- Where a session comes from: a login request or an OIDC callback. -/
inductive Origin where
  | password (body : Option Document)
  | callback (call : Nat)

structure Issued where
  origin : Origin
  token : String
  subject : String
  signed : Int
  expires : Int

/-- A request that {lit}`RequireAuth` has let through. -/
structure Admitted where
  token : String
  subject : String
  time : Int

/-- A write that was answered with success, and when. -/
structure Acknowledged where
  request : Nat
  time : Int
  call : WriteCall

structure Console where
  logins : Auth.Sys
  answered : List Nat
  issued : List Issued
  requests : List Admitted
  handled : List Nat
  notes : Nat -> Option OpenNote
  acknowledged : List Acknowledged
  store : Db

def Console.init (clock : Int) (store : Db) : Console :=
  { logins := Auth.Sys.init clock, answered := [], issued := [], requests := [], handled := []
    notes := fun _ => none, acknowledged := [], store := store }

def Console.clock (s : Console) : Int := s.logins.clock

inductive ConsoleLabel where
  | oidc (l : Auth.Label)
  /-- The callback of a {lit}`Complete` call that has returned signs and answers. -/
  | answer (i : Nat)
  | login (body : Option Document)
  | request (cookie : Option String)
  | upsert (i : Nat) (body : Option Body) (faults : Nat -> Option SqlErr)
  | note (i : Nat) (body : Option Document) (fault : Option SqlErr)
  | readNow (i : Nat)
  | insertNote (i : Nat) (fault : Option SqlErr)

section

variable (jwt : Jwt) (srv : AuthServer) (cfg : OIDCConfig) (env : OIDCEnv) (gen : Nat -> String)
  (fk : Bool)

def Console.issue (s : Console) (origin : Origin) (subject token : String) (exp : Int) :
    Console :=
  { s with
    issued := { origin := origin, token := token, subject := subject, signed := s.clock
                expires := exp } :: s.issued }

def Console.answer (s : Console) (i : Nat) (out : Except String (String × Int)) : Console :=
  let s' := { s with answered := i :: s.answered }
  match out with
  | .error _ => s'
  | .ok (subject, deadline) =>
      match signUntil jwt srv.signer s.clock subject deadline with
      | .error _ => s'
      | .ok (token, exp) => s'.issue (.callback i) subject token exp

def Console.login (s : Console) (body : Option Document) : Console :=
  let r := handleLogin jwt srv s.clock body
  match r.token, r.body with
  | some token, .ok a => s.issue (.password body) a.username token a.expiresAt
  | _, _ => s

def Console.request (s : Console) (cookie : Option String) : Console :=
  match cookie, requireAuth jwt srv.signer s.clock cookie with
  | some token, .ok subject =>
      { s with
        requests := s.requests ++ [{ token := token, subject := subject, time := s.clock }] }
  | _, _ => s

def Console.upsert (s : Console) (i : Nat) (a : Admitted) (body : Option Body)
    (faults : Nat -> Option SqlErr) : Console :=
  let s' := { s with handled := i :: s.handled }
  match upsertCall s.clock a.subject body with
  | .error _ => s'
  | .ok call =>
      let out := call.prog.run (engine fk) faults ⟨s.store, none⟩
      { s' with
        store := out.2.committed
        acknowledged :=
          match out.1 with
          | .error _ => s.acknowledged
          | .ok _ => s.acknowledged ++ [{ request := i, time := s.clock, call := call }] }

def Console.setNote (s : Console) (i : Nat) (o : Option OpenNote) : Console :=
  { s with notes := Function.update s.notes i o }

def Console.note (s : Console) (i : Nat) (a : Admitted) (body : Option Document)
    (fault : Option SqlErr) : Console :=
  let s' := { s with handled := i :: s.handled }
  match openNote fk s.store a.subject body fault with
  | none => s'
  | some o => s'.setNote i (some o)

def Console.insertNote (s : Console) (i : Nat) (o : OpenNote) (now : Int)
    (fault : Option SqlErr) : Console :=
  let s' := s.setNote i none
  let out := (o.insert now).run (engine fk) (fun _ => fault) ⟨s.store, none⟩
  { s' with
    store := out.2.committed
    acknowledged :=
      match out.1 with
      | .error _ => s.acknowledged
      | .ok _ => s.acknowledged ++ [{ request := i, time := now, call := o.call now }] }

def Console.step (s : Console) : ConsoleLabel -> Option Console
  | .oidc l => (Auth.step cfg env gen s.logins l).map (fun logins => { s with logins := logins })
  | .answer i =>
      match s.logins.calls i with
      | some ⟨_, _, _, .finished _ _ out⟩ =>
          if i ∈ s.answered then none else some (s.answer jwt srv i out)
      | _ => none
  | .login body => some (s.login jwt srv body)
  | .request cookie => some (s.request jwt srv cookie)
  | .upsert i body faults =>
      match s.requests[i]? with
      | none => none
      | some a => if i ∈ s.handled then none else some (s.upsert fk i a body faults)
  | .note i body fault =>
      match s.requests[i]? with
      | none => none
      | some a => if i ∈ s.handled then none else some (s.note fk i a body fault)
  | .readNow i =>
      match s.notes i with
      | some ⟨req, author, none⟩ => some (s.setNote i (some ⟨req, author, some s.clock⟩))
      | _ => none
  | .insertNote i fault =>
      match s.notes i with
      | some ⟨req, author, some now⟩ => some (s.insertNote fk i ⟨req, author, some now⟩ now fault)
      | _ => none

end

/-!
## What the logins keep
-/

/-- The history of the logins grows along a step. -/
structure LoginsGrow (s s' : Auth.Sys) : Prop where
  clock : s.clock <= s'.clock
  begun : forall b, b ∈ s.begun -> b ∈ s'.begun
  consumed : forall c, c ∈ s.consumed -> c ∈ s'.consumed
  dated : forall c, c ∈ s'.consumed -> c ∈ s.consumed ∨ c.time <= s'.clock

theorem consumed_grow {s s' : Auth.Sys} {call : Option Nat} {state binding : String}
    {r : Except String LoginAttempt} (h : Consumed s call state binding s' r) :
    LoginsGrow s s' := by
  cases h with
  | refused _ => exact ⟨Int.le_refl _, fun _ hb => hb, fun _ hc => hc, fun _ hc => Or.inl hc⟩
  | expired _ _ => exact ⟨Int.le_refl _, fun _ hb => hb, fun _ hc => hc, fun _ hc => Or.inl hc⟩
  | taken _ _ _ =>
      refine ⟨Int.le_refl _, fun _ hb => hb, fun _ hc => List.mem_cons_of_mem _ hc, ?_⟩
      intro c hc
      rcases List.mem_cons.mp hc with hnew | hold
      · rw [hnew]
        exact Or.inr (Int.le_refl _)
      · exact Or.inl hold

theorem loginsGrow_step {cfg : OIDCConfig} {env : OIDCEnv} {gen : Nat -> String} {s s' : Auth.Sys}
    {l : Auth.Label} (h : Auth.step cfg env gen s l = some s') : LoginsGrow s s' := by
  cases l with
  | tick clock =>
      simp only [Auth.step] at h
      split at h
      · rename_i hle
        cases h
        exact ⟨hle, fun _ hb => hb, fun _ hc => hc, fun _ hc => Or.inl hc⟩
      · cases h
  | begin =>
      cases h
      by_cases hfull : maxLoginAttempts <= (sweep s.clock s.attempts).entries.length
      · rw [(begin_full env gen hfull).right]
        exact ⟨Int.le_refl _, fun _ hb => hb, fun _ hc => hc, fun _ hc => Or.inl hc⟩
      · rw [(begin_room env gen hfull).right]
        exact ⟨Int.le_refl _, fun _ hb => List.mem_cons_of_mem _ hb, fun _ hc => hc,
          fun _ hc => Or.inl hc⟩
  | consume state binding =>
      cases h
      exact consumed_grow (consumed_consume s none state binding)
  | complete state binding code =>
      cases h
      have hgrow := consumed_grow (consumed_consume s (some s.nextCall) state binding)
      exact ⟨hgrow.clock, hgrow.begun, hgrow.consumed, hgrow.dated⟩
  | finish i p =>
      simp only [Auth.step] at h
      split at h
      · cases h
        exact ⟨Int.le_refl _, fun _ hb => hb, fun _ hc => hc, fun _ hc => Or.inl hc⟩
      · cases h

/-- The calls have the numbers below the next one. -/
def CallsNumbered (s : Auth.Sys) : Prop :=
  forall i call, s.calls i = some call -> i < s.nextCall

theorem callsNumbered_step {cfg : OIDCConfig} {env : OIDCEnv} {gen : Nat -> String}
    {s s' : Auth.Sys} {l : Auth.Label} (h : CallsNumbered s)
    (hstep : Auth.step cfg env gen s l = some s') : CallsNumbered s' := by
  cases l with
  | tick clock =>
      simp only [Auth.step] at hstep
      split at hstep
      · cases hstep
        exact h
      · cases hstep
  | begin =>
      cases hstep
      exact h
  | consume state binding =>
      cases hstep
      exact h
  | complete state binding code =>
      cases hstep
      intro i call hi
      show i < s.nextCall + 1
      by_cases hnew : i = s.nextCall
      · rw [hnew]
        exact Nat.lt_succ_self _
      · exact Nat.lt_succ_of_lt (h i call ((setCall_calls_other hnew).symm.trans hi))
  | finish i p =>
      simp only [Auth.step] at hstep
      split at hstep
      · rename_i hcall
        cases hstep
        intro j call hj
        by_cases hown : j = i
        · rw [hown]
          exact h i _ hcall
        · exact h j call ((setCall_calls_other hown).symm.trans hj)
      · cases hstep

theorem finished_kept {cfg : OIDCConfig} {env : OIDCEnv} {gen : Nat -> String}
    {s s' : Auth.Sys} {l : Auth.Label} (h : CallsNumbered s)
    (hstep : Auth.step cfg env gen s l = some s') {i : Nat} {state binding code : String}
    {r : Except String LoginAttempt} {p : Provider} {out : Except String (String × Int)}
    (hcall : s.calls i = some ⟨state, binding, code, .finished r p out⟩) :
    s'.calls i = some ⟨state, binding, code, .finished r p out⟩ := by
  cases l with
  | tick clock =>
      simp only [Auth.step] at hstep
      split at hstep
      · cases hstep
        exact hcall
      · cases hstep
  | begin =>
      cases hstep
      exact hcall
  | consume state' binding' =>
      cases hstep
      exact hcall
  | complete state' binding' code' =>
      cases hstep
      exact (setCall_calls_other (Nat.ne_of_lt (h i _ hcall))).trans hcall
  | finish j p' =>
      simp only [Auth.step] at hstep
      split at hstep
      · rename_i hconsumed
        cases hstep
        have hother : i ≠ j := by
          intro heq
          rw [heq, hconsumed] at hcall
          cases hcall
        exact (setCall_calls_other hother).trans hcall
      · cases hstep

/-!
## What a step does
-/

section

variable {jwt : Jwt} {srv : AuthServer} {cfg : OIDCConfig} {env : OIDCEnv} {gen : Nat -> String}
  {fk : Bool}

/-- The cases of a step. -/
inductive Stepped (jwt : Jwt) (srv : AuthServer) (cfg : OIDCConfig) (env : OIDCEnv)
    (gen : Nat -> String) (s : Console) : ConsoleLabel -> Console -> Prop where
  | oidc {l : Auth.Label} {logins : Auth.Sys} :
      Auth.step cfg env gen s.logins l = some logins ->
      Stepped jwt srv cfg env gen s (.oidc l) { s with logins := logins }
  | unanswered {i : Nat} : i ∉ s.answered ->
      Stepped jwt srv cfg env gen s (.answer i) { s with answered := i :: s.answered }
  | answered {i : Nat} {state binding code : String} {r : Except String LoginAttempt}
      {p : Provider} {subject token : String} {deadline exp : Int} : i ∉ s.answered ->
      s.logins.calls i = some ⟨state, binding, code, .finished r p (.ok (subject, deadline))⟩ ->
      signUntil jwt srv.signer s.clock subject deadline = .ok (token, exp) ->
      Stepped jwt srv cfg env gen s (.answer i)
        (Console.issue { s with answered := i :: s.answered } (.callback i) subject token exp)
  | loginRefused {body : Option Document} : Stepped jwt srv cfg env gen s (.login body) s
  | loggedIn {body : Option Document} {req : Credentials} {token : String} {exp : Int} :
      loginRequest body = some req -> srv.knows req = true ->
      signUntil jwt srv.signer s.clock srv.adminUsername zeroTime = .ok (token, exp) ->
      Stepped jwt srv cfg env gen s (.login body)
        (s.issue (.password body) srv.adminUsername token exp)
  | turnedAway {cookie : Option String} : Stepped jwt srv cfg env gen s (.request cookie) s
  | admitted {token subject : String} :
      requireAuth jwt srv.signer s.clock (some token) = .ok subject ->
      Stepped jwt srv cfg env gen s (.request (some token))
        { s with requests := s.requests ++
            [{ token := token, subject := subject, time := s.clock }] }
  | upsertFailed {i : Nat} {body : Option Body} {faults : Nat -> Option SqlErr} :
      i ∉ s.handled ->
      Stepped jwt srv cfg env gen s (.upsert i body faults) { s with handled := i :: s.handled }
  | upserted {i : Nat} {body : Option Body} {faults : Nat -> Option SqlErr} {a : Admitted}
      {call : WriteCall} {reply : Reply} {d : Db} : i ∉ s.handled ->
      s.requests[i]? = some a -> upsertCall s.clock a.subject body = .ok call ->
      call.Effect s.store reply d ->
      Stepped jwt srv cfg env gen s (.upsert i body faults)
        { s with
          handled := i :: s.handled
          store := d
          acknowledged := s.acknowledged ++
            [{ request := i, time := s.clock, call := call }] }
  | noteFailed {i : Nat} {body : Option Document} {fault : Option SqlErr} : i ∉ s.handled ->
      Stepped jwt srv cfg env gen s (.note i body fault) { s with handled := i :: s.handled }
  | noteOpened {i : Nat} {body : Option Document} {fault : Option SqlErr} {a : Admitted}
      {req : NoteRequest} {r : SqlRow} : i ∉ s.handled -> s.requests[i]? = some a ->
      noteRequest body = some req ->
      s.store.triage.find? (req.hostID, req.eventID) = some r ->
      Stepped jwt srv cfg env gen s (.note i body fault)
        (Console.setNote { s with handled := i :: s.handled } i (some ⟨req, a.subject, none⟩))
  | noteTimed {i : Nat} {req : NoteRequest} {author : String} :
      s.notes i = some ⟨req, author, none⟩ ->
      Stepped jwt srv cfg env gen s (.readNow i)
        (s.setNote i (some ⟨req, author, some s.clock⟩))
  | noteLost {i : Nat} {fault : Option SqlErr} {req : NoteRequest} {author : String} {now : Int} :
      s.notes i = some ⟨req, author, some now⟩ ->
      Stepped jwt srv cfg env gen s (.insertNote i fault) (s.setNote i none)
  | noted {i : Nat} {fault : Option SqlErr} {o : OpenNote} {now : Int} :
      s.notes i = some o -> o.now = some now ->
      Stepped jwt srv cfg env gen s (.insertNote i fault)
        { s.setNote i none with
          store := s.store.insertNote o.request.hostID o.request.eventID o.author o.request.body
            (formatTS now)
          acknowledged := s.acknowledged ++
            [{ request := i, time := now, call := o.call now }] }

theorem stepped_answer (s : Console) {i : Nat} {state binding code : String}
    {r : Except String LoginAttempt} {p : Provider} {out : Except String (String × Int)}
    (hcall : s.logins.calls i = some ⟨state, binding, code, .finished r p out⟩)
    (hnew : i ∉ s.answered) :
    Stepped jwt srv cfg env gen s (.answer i) (s.answer jwt srv i out) := by
  unfold Console.answer
  cases out with
  | error e => exact Stepped.unanswered hnew
  | ok session =>
      dsimp only
      split
      · exact Stepped.unanswered hnew
      · rename_i token exp hsign
        exact Stepped.answered hnew hcall hsign

theorem stepped_login (s : Console) (body : Option Document) :
    Stepped jwt srv cfg env gen s (.login body) (s.login jwt srv body) := by
  unfold Console.login
  dsimp only
  split
  · rename_i token a htoken hbody
    rcases handleLogin_token htoken with ⟨req, exp, hreq, hknows, hsign⟩
    have hanswer : (handleLogin jwt srv s.clock body).body =
        .ok { username := srv.adminUsername, expiresAt := exp } := by
      unfold handleLogin
      simp only [hreq, hknows, hsign, Bool.true_eq_false, if_false]
    rw [hanswer] at hbody
    cases hbody
    exact Stepped.loggedIn hreq hknows hsign
  · exact Stepped.loginRefused

theorem stepped_request (s : Console) (cookie : Option String) :
    Stepped jwt srv cfg env gen s (.request cookie) (s.request jwt srv cookie) := by
  unfold Console.request
  split
  · rename_i token subject hauth
    exact Stepped.admitted hauth
  · exact Stepped.turnedAway

theorem stepped_upsert (s : Console) {i : Nat} {a : Admitted} (ha : s.requests[i]? = some a)
    (hnew : i ∉ s.handled) (body : Option Body) (faults : Nat -> Option SqlErr) :
    Stepped jwt srv cfg env gen s (.upsert i body faults) (s.upsert fk i a body faults) := by
  unfold Console.upsert
  cases hcall : upsertCall s.clock a.subject body with
  | error e => exact Stepped.upsertFailed hnew
  | ok call =>
      dsimp only
      rcases prog_run_cases fk call faults s.store with ⟨⟨e, he⟩, hsame⟩ | ⟨reply, hok, heffect⟩
      · rw [he, hsame]
        exact Stepped.upsertFailed hnew
      · rw [hok]
        exact Stepped.upserted hnew ha hcall heffect

theorem openNote_some {d : Db} {subject : String} {body : Option Document}
    {fault : Option SqlErr} {o : OpenNote} (h : openNote fk d subject body fault = some o) :
    exists req r, noteRequest body = some req ∧ o = ⟨req, subject, none⟩ ∧
      d.triage.find? (req.hostID, req.eventID) = some r := by
  unfold openNote at h
  split at h
  · cases h
  · rename_i req hreq
    split at h
    · cases h
    · split at h
      · cases h
      · split at h
        · cases h
        · rename_i row hrow
          cases h
          cases hfind : d.triage.find? (req.hostID, req.eventID) with
          | none =>
              cases fault with
              | none =>
                  simp only [getByEventKey, getRow, Prog.run, Engine.answer, engine, execStmt,
                    hfind, scanned] at hrow
                  cases hrow
              | some e => cases hrow
          | some r => exact ⟨req, r, hreq, rfl, hfind⟩

theorem stepped_note (s : Console) {i : Nat} {a : Admitted} (ha : s.requests[i]? = some a)
    (hnew : i ∉ s.handled) (body : Option Document) (fault : Option SqlErr) :
    Stepped jwt srv cfg env gen s (.note i body fault) (s.note fk i a body fault) := by
  unfold Console.note
  cases hopen : openNote fk s.store a.subject body fault with
  | none => exact Stepped.noteFailed hnew
  | some o =>
      rcases openNote_some hopen with ⟨req, r, hreq, rfl, hfind⟩
      exact Stepped.noteOpened hnew ha hreq hfind

theorem stepped_insertNote (s : Console) {i : Nat} {req : NoteRequest} {author : String}
    {now : Int} (hopen : s.notes i = some ⟨req, author, some now⟩) (fault : Option SqlErr) :
    Stepped jwt srv cfg env gen s (.insertNote i fault)
      (s.insertNote fk i ⟨req, author, some now⟩ now fault) := by
  unfold Console.insertNote OpenNote.insert noteInsert
  simp only [Prog.run]
  cases hanswer : (engine fk).answer (.insertNote req.hostID req.eventID author req.body
    (formatTS now)) fault s.store with
  | error e => exact Stepped.noteLost hopen
  | ok out =>
      have hinserted : out.2 =
          s.store.insertNote req.hostID req.eventID author req.body (formatTS now) := by
        simp only [Engine.answer, engine, execStmt] at hanswer
        cases fault with
        | some e => cases hanswer
        | none =>
            dsimp only at hanswer
            split at hanswer
            · cases hanswer
            · cases hanswer
              rfl
      dsimp only [Prog.map, Prog.run]
      rw [hinserted]
      exact Stepped.noted hopen rfl

theorem step_stepped {s s' : Console} {l : ConsoleLabel}
    (h : s.step jwt srv cfg env gen fk l = some s') : Stepped jwt srv cfg env gen s l s' := by
  cases l with
  | oidc l =>
      rcases Option.map_eq_some_iff.mp h with ⟨logins, hlogins, rfl⟩
      exact Stepped.oidc hlogins
  | answer i =>
      simp only [Console.step] at h
      split at h
      · rename_i hcall
        split at h
        · cases h
        · rename_i hnew
          cases h
          exact stepped_answer s hcall hnew
      · cases h
  | login body =>
      cases h
      exact stepped_login s body
  | request cookie =>
      cases h
      exact stepped_request s cookie
  | upsert i body faults =>
      simp only [Console.step] at h
      split at h
      · cases h
      · rename_i ha
        split at h
        · cases h
        · rename_i hnew
          cases h
          exact stepped_upsert s ha hnew body faults
  | note i body fault =>
      simp only [Console.step] at h
      split at h
      · cases h
      · rename_i ha
        split at h
        · cases h
        · rename_i hnew
          cases h
          exact stepped_note s ha hnew body fault
  | readNow i =>
      simp only [Console.step] at h
      split at h
      · rename_i hopen
        cases h
        exact Stepped.noteTimed hopen
      · cases h
  | insertNote i fault =>
      simp only [Console.step] at h
      split at h
      · rename_i hopen
        cases h
        exact stepped_insertNote s hopen fault
      · cases h

end

/-- A console whose administrator logs in with {lit}`pw`. -/
def sampleServer : AuthServer where
  oidc := none
  signer := halfDaySigner
  cookieSecure := true
  seconds := fun d => d / second
  adminUsername := "admin"
  adminPasswordBcrypt := "hash"
  compareHashAndPassword := fun hash password => decide (hash = "hash" ∧ password = "pw")

def sampleLogin : Document :=
  .object [(quote "username".toList, encodeString "admin"),
    (quote "password".toList, encodeString "pw")]

end Api
end LodelineManager
