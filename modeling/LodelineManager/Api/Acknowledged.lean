import LodelineManager.Api.Console
import LodelineManager.Triage.Story

/-!
# What the store holds

The store against the writes that the console acknowledged: nothing that was acknowledged
is lost or written twice, nothing else is in it, and every line of it carries the subject
that its request was let through as.
-/

namespace LodelineManager
namespace Api

open Foundation Triage Go JSON Auth

/-!
## Writes
-/

def callActor : WriteCall -> String
  | .upsert _ inp => inp.actor
  | .appendNote _ _ _ author _ => author

def callTime : WriteCall -> Int
  | .upsert now _ => now
  | .appendNote now _ _ _ _ => now

def IsUpsert (call : WriteCall) : Prop := exists now inp, call = .upsert now inp

theorem upsertCall_ok {now : Int} {subject : String} {body : Option Body} {call : WriteCall}
    (hcall : upsertCall now subject body = .ok call) :
    callActor call = subject ∧ callTime call = now := by
  unfold upsertCall at hcall
  cases hreq : body.bind Body.upsertRequest with
  | none =>
      rw [hreq] at hcall
      cases hcall
  | some req =>
      rw [hreq] at hcall
      rcases handleTriageUpsert_ok hcall with ⟨inp, rfl, _, _, hactor⟩
      exact ⟨hactor, rfl⟩

/-!
## The store of a run
-/

/-- The store against what was in it at the start. -/
structure StoreTells (start : Db) (s : Console) : Prop where
  /-- The acknowledged writes took effect one after the other, and nothing else did. -/
  written : Written start (s.acknowledged.map Acknowledged.call) s.store
  /-- The rows, the log and the notes are those that the writes are for. -/
  story : s.store.story = (s.acknowledged.map Acknowledged.call).foldl Story.after start.story
  /-- A request writes at most once. -/
  once : (s.acknowledged.map Acknowledged.request).Nodup
  /-- An upsert reads the clock after every write that took effect before it. -/
  ordered : s.acknowledged.Pairwise (fun w w' => IsUpsert w'.call -> w.time <= w'.time)
  /-- A write is that of a request that was let through, as its subject. -/
  owned : forall w, w ∈ s.acknowledged -> exists a, s.requests[w.request]? = some a ∧
    callActor w.call = a.subject ∧ callTime w.call = w.time ∧ a.time <= w.time

/-- A note that is still to be inserted: its request has not written yet, and its row is
there for good. -/
structure OpenNote.Waits (s : Console) (i : Nat) (o : OpenNote) : Prop where
  handled : i ∈ s.handled
  unwritten : i ∉ s.acknowledged.map Acknowledged.request
  owned : exists a, s.requests[i]? = some a ∧ o.author = a.subject ∧
    forall now, o.now = some now -> a.time <= now ∧ now <= s.clock
  found : exists r, s.store.triage.find? (o.request.hostID, o.request.eventID) = some r

/-- What the steps keep. -/
structure StoreOk (start : Db) (s : Console) : Prop where
  written : Written start (s.acknowledged.map Acknowledged.call) s.store
  once : (s.acknowledged.map Acknowledged.request).Nodup
  ordered : s.acknowledged.Pairwise (fun w w' => IsUpsert w'.call -> w.time <= w'.time)
  owned : forall w, w ∈ s.acknowledged -> exists a, s.requests[w.request]? = some a ∧
    callActor w.call = a.subject ∧ callTime w.call = w.time ∧ a.time <= w.time
  handled : forall w, w ∈ s.acknowledged -> w.request ∈ s.handled
  past : forall w, w ∈ s.acknowledged -> w.time <= s.clock
  before : forall a, a ∈ s.requests -> a.time <= s.clock
  notes : forall i o, s.notes i = some o -> o.Waits s i

theorem storeOk_init (clock : Int) (start : Db) : StoreOk start (Console.init clock start) where
  written := Written.nil start
  once := List.nodup_nil
  ordered := List.Pairwise.nil
  owned := fun w hw => by cases hw
  handled := fun w hw => by cases hw
  past := fun w hw => by cases hw
  before := fun a ha => by cases ha
  notes := fun i o ho => by cases ho

theorem OpenNote.Waits.grow {s s' : Console} {i : Nat} {o : OpenNote} (h : o.Waits s i)
    (hhandled : i ∈ s.handled -> i ∈ s'.handled)
    (hunwritten : i ∉ s'.acknowledged.map Acknowledged.request)
    (hrequests : s.requests <+: s'.requests) (hclock : s.clock <= s'.clock)
    (hfound : forall key, (exists r, s.store.triage.find? key = some r) ->
      exists r, s'.store.triage.find? key = some r) : o.Waits s' i where
  handled := hhandled h.handled
  unwritten := hunwritten
  owned := by
    rcases h.owned with ⟨a, ha, hauthor, hnow⟩
    rcases hrequests with ⟨more, hmore⟩
    rcases List.getElem?_eq_some_iff.mp ha with ⟨hlt, _⟩
    rw [← hmore]
    refine ⟨a, (List.getElem?_append_left hlt).trans ha, hauthor, ?_⟩
    intro now hread
    exact ⟨(hnow now hread).left, Int.le_trans (hnow now hread).right hclock⟩
  found := hfound _ h.found

theorem StoreOk.frame {start : Db} {s s' : Console} (h : StoreOk start s)
    (hstore : s'.store = s.store) (hacknowledged : s'.acknowledged = s.acknowledged)
    (hnotes : s'.notes = s.notes) (hrequests : s'.requests = s.requests)
    (hhandled : forall i, i ∈ s.handled -> i ∈ s'.handled) (hclock : s.clock <= s'.clock) :
    StoreOk start s' where
  written := by
    rw [hstore, hacknowledged]
    exact h.written
  once := by
    rw [hacknowledged]
    exact h.once
  ordered := by
    rw [hacknowledged]
    exact h.ordered
  owned := by
    rw [hacknowledged, hrequests]
    exact h.owned
  handled := by
    rw [hacknowledged]
    exact fun w hw => hhandled _ (h.handled w hw)
  past := by
    rw [hacknowledged]
    exact fun w hw => Int.le_trans (h.past w hw) hclock
  before := by
    rw [hrequests]
    exact fun a ha => Int.le_trans (h.before a ha) hclock
  notes := by
    intro i o ho
    rw [hnotes] at ho
    have hwaits := h.notes i o ho
    refine hwaits.grow (hhandled i) ?_ ?_ hclock ?_
    · rw [hacknowledged]
      exact hwaits.unwritten
    · rw [hrequests]
    · intro key hex
      rw [hstore]
      exact hex

theorem StoreOk.admit {start : Db} {s : Console} (h : StoreOk start s) (token subject : String) :
    StoreOk start { s with requests := s.requests ++
      [{ token := token, subject := subject, time := s.clock }] } where
  written := h.written
  once := h.once
  ordered := h.ordered
  owned := by
    intro w hw
    rcases h.owned w hw with ⟨a, ha, hrest⟩
    rcases List.getElem?_eq_some_iff.mp ha with ⟨hlt, _⟩
    exact ⟨a, (List.getElem?_append_left hlt).trans ha, hrest⟩
  handled := h.handled
  past := h.past
  before := by
    intro a ha
    rcases List.mem_append.mp ha with hold | hnew
    · exact h.before a hold
    · cases List.mem_singleton.mp hnew
      exact Int.le_refl _
  notes := by
    intro i o ho
    exact (h.notes i o ho).grow id (h.notes i o ho).unwritten (List.prefix_append _ _)
      (Int.le_refl _) (fun _ hex => hex)

/-- A write that takes effect, by a request that has not written before. -/
theorem StoreOk.write {start : Db} {s s' : Console} (h : StoreOk start s) {w : Acknowledged}
    {reply : Reply} (heffect : w.call.Effect s.store reply s'.store)
    (hacknowledged : s'.acknowledged = s.acknowledged ++ [w])
    (hlogins : s'.logins = s.logins) (hrequests : s'.requests = s.requests)
    (hhandled : forall i, i ∈ s.handled -> i ∈ s'.handled) (hown : w.request ∈ s'.handled)
    (hfirst : w.request ∉ s.acknowledged.map Acknowledged.request)
    (hnotes : forall i o, s'.notes i = some o -> s.notes i = some o ∧ i ≠ w.request)
    (howned : exists a, s.requests[w.request]? = some a ∧ callActor w.call = a.subject ∧
      callTime w.call = w.time ∧ a.time <= w.time)
    (hpast : w.time <= s.clock) (hupsert : IsUpsert w.call -> w.time = s.clock) :
    StoreOk start s' where
  written := by
    rw [hacknowledged, List.map_append]
    exact Written.concat h.written heffect
  once := by
    rw [hacknowledged, List.map_append, List.nodup_append]
    refine ⟨h.once, List.nodup_singleton _, ?_⟩
    intro j hj k hk heq
    rw [List.mem_singleton.mp hk] at heq
    rw [heq] at hj
    exact hfirst hj
  ordered := by
    rw [hacknowledged]
    refine List.pairwise_append.mpr ⟨h.ordered, List.pairwise_singleton _ _, ?_⟩
    intro v hv w' hw' hkind
    rw [List.mem_singleton.mp hw'] at hkind ⊢
    rw [hupsert hkind]
    exact h.past v hv
  owned := by
    rw [hacknowledged, hrequests]
    intro v hv
    rcases List.mem_append.mp hv with hold | hlast
    · exact h.owned v hold
    · rw [List.mem_singleton.mp hlast]
      exact howned
  handled := by
    rw [hacknowledged]
    intro v hv
    rcases List.mem_append.mp hv with hold | hlast
    · exact hhandled _ (h.handled v hold)
    · rw [List.mem_singleton.mp hlast]
      exact hown
  past := by
    unfold Console.clock
    rw [hacknowledged, hlogins]
    intro v hv
    rcases List.mem_append.mp hv with hold | hlast
    · exact h.past v hold
    · rw [List.mem_singleton.mp hlast]
      exact hpast
  before := by
    unfold Console.clock
    rw [hrequests, hlogins]
    exact h.before
  notes := by
    intro i o ho
    rcases hnotes i o ho with ⟨hopen, hne⟩
    have hwaits := h.notes i o hopen
    refine hwaits.grow (hhandled i) ?_ ?_ ?_ ?_
    · rw [hacknowledged, List.map_append, List.mem_append, not_or]
      exact ⟨hwaits.unwritten, fun hlast => hne (List.mem_singleton.mp hlast)⟩
    · rw [hrequests]
    · unfold Console.clock
      rw [hlogins]
    · exact fun _ hex => heffect.present hex

theorem StoreOk.upserted {start : Db} {s : Console} (h : StoreOk start s) {i : Nat}
    {body : Option Body} {a : Admitted} {call : WriteCall} {reply : Reply} {d : Db}
    (hnew : i ∉ s.handled) (ha : s.requests[i]? = some a)
    (hcall : upsertCall s.clock a.subject body = .ok call)
    (heffect : call.Effect s.store reply d) :
    StoreOk start
      { s with
        handled := i :: s.handled
        store := d
        acknowledged := s.acknowledged ++
          [{ request := i, time := s.clock, call := call }] } := by
  rcases upsertCall_ok hcall with ⟨hactor, htime⟩
  refine h.write (w := { request := i, time := s.clock, call := call }) heffect rfl rfl rfl
    (fun j hj => List.mem_cons_of_mem _ hj) List.mem_cons_self ?_ ?_
    ⟨a, ha, hactor, htime, h.before a (List.mem_of_getElem? ha)⟩ (Int.le_refl _) (fun _ => rfl)
  · intro hmem
    rcases List.mem_map.mp hmem with ⟨w, hw, hrequest⟩
    have hdone := h.handled w hw
    rw [hrequest] at hdone
    exact hnew hdone
  · intro j o ho
    refine ⟨ho, ?_⟩
    intro heq
    have hdone := (h.notes j o ho).handled
    rw [heq] at hdone
    exact hnew hdone

theorem setNote_notes {s : Console} {i j : Nat} {o : Option OpenNote} {o' : OpenNote}
    (h : (s.setNote i o).notes j = some o') :
    j = i ∧ o = some o' ∨ j ≠ i ∧ s.notes j = some o' := by
  change Function.update s.notes i o j = some o' at h
  by_cases hown : j = i
  · rw [hown, Function.update_self] at h
    exact Or.inl ⟨hown, h⟩
  · rw [Function.update_of_ne hown] at h
    exact Or.inr ⟨hown, h⟩

theorem StoreOk.setNote {start : Db} {s : Console} (h : StoreOk start s) {i : Nat}
    {o : Option OpenNote} (hwaits : forall o', o = some o' -> o'.Waits s i) :
    StoreOk start (s.setNote i o) where
  written := h.written
  once := h.once
  ordered := h.ordered
  owned := h.owned
  handled := h.handled
  past := h.past
  before := h.before
  notes := by
    intro j o' ho
    have hkept : o'.Waits s j := by
      rcases setNote_notes ho with ⟨hown, hset⟩ | ⟨_, hold⟩
      · rw [hown]
        exact hwaits o' hset
      · exact h.notes j o' hold
    exact ⟨hkept.handled, hkept.unwritten, hkept.owned, hkept.found⟩

theorem StoreOk.noteOpened {start : Db} {s : Console} (h : StoreOk start s) {i : Nat}
    {a : Admitted} {req : NoteRequest} {r : SqlRow} (hnew : i ∉ s.handled)
    (ha : s.requests[i]? = some a) (hfind : s.store.triage.find? (req.hostID, req.eventID) = some r) :
    StoreOk start (Console.setNote { s with handled := i :: s.handled } i
      (some ⟨req, a.subject, none⟩)) := by
  have hframe : StoreOk start { s with handled := i :: s.handled } :=
    h.frame rfl rfl rfl rfl (fun _ hj => List.mem_cons_of_mem _ hj) (Int.le_refl _)
  refine hframe.setNote ?_
  intro o' ho
  cases ho
  refine ⟨List.mem_cons_self, ?_, ⟨a, ha, rfl, fun now hnow => by cases hnow⟩, r, hfind⟩
  intro hmem
  rcases List.mem_map.mp hmem with ⟨w, hw, hrequest⟩
  have hdone := h.handled w hw
  rw [hrequest] at hdone
  exact hnew hdone

theorem StoreOk.noteTimed {start : Db} {s : Console} (h : StoreOk start s) {i : Nat}
    {req : NoteRequest} {author : String} (hopen : s.notes i = some ⟨req, author, none⟩) :
    StoreOk start (s.setNote i (some ⟨req, author, some s.clock⟩)) := by
  have hwaits := h.notes i _ hopen
  refine h.setNote ?_
  intro o' ho
  cases ho
  rcases hwaits.owned with ⟨a, ha, hauthor, _⟩
  refine ⟨hwaits.handled, hwaits.unwritten, ⟨a, ha, hauthor, ?_⟩, hwaits.found⟩
  intro now hnow
  cases hnow
  exact ⟨h.before a (List.mem_of_getElem? ha), Int.le_refl _⟩

theorem StoreOk.noted {start : Db} {s : Console} (h : StoreOk start s) {i : Nat} {o : OpenNote}
    {now : Int} (hopen : s.notes i = some o) (hnow : o.now = some now) :
    StoreOk start
      { s.setNote i none with
        store := s.store.insertNote o.request.hostID o.request.eventID o.author o.request.body
          (formatTS now)
        acknowledged := s.acknowledged ++
          [{ request := i, time := now, call := o.call now }] } := by
  have hwaits := h.notes i o hopen
  rcases hwaits.owned with ⟨a, ha, hauthor, hread⟩
  rcases hwaits.found with ⟨r, hr⟩
  let note : Note :=
    { id := s.store.noteSeq + 1, hostID := o.request.hostID, eventID := o.request.eventID
      author := o.author, body := o.request.body, createdAt := now }
  have heffect : (o.call now).Effect s.store (.note note) _ := WriteCall.Effect.appendNote hr
  refine h.write (w := { request := i, time := now, call := o.call now }) heffect rfl rfl rfl
    (fun _ hj => hj) hwaits.handled hwaits.unwritten ?_
    ⟨a, ha, hauthor, rfl, (hread now hnow).left⟩ (hread now hnow).right ?_
  · intro j o' ho
    rcases setNote_notes ho with ⟨_, hset⟩ | ⟨hne, hold⟩
    · cases hset
    · exact ⟨hold, hne⟩
  · rintro ⟨now', inp, hcall⟩
    cases hcall

section

variable {jwt : Jwt} {srv : AuthServer} {cfg : OIDCConfig} {env : OIDCEnv} {gen : Nat -> String}
  {fk : Bool}

theorem StoreOk.step {start : Db} {s s' : Console} {l : ConsoleLabel} (h : StoreOk start s)
    (hstep : s.step jwt srv cfg env gen fk l = some s') : StoreOk start s' := by
  have hsame : forall {i}, i ∈ s.handled -> i ∈ s.handled := fun hi => hi
  cases step_stepped hstep with
  | oidc hlogins => exact h.frame rfl rfl rfl rfl (fun _ => hsame) (loginsGrow_step hlogins).clock
  | unanswered _ => exact h.frame rfl rfl rfl rfl (fun _ => hsame) (Int.le_refl _)
  | answered _ _ _ => exact h.frame rfl rfl rfl rfl (fun _ => hsame) (Int.le_refl _)
  | loginRefused => exact h
  | loggedIn _ _ _ => exact h.frame rfl rfl rfl rfl (fun _ => hsame) (Int.le_refl _)
  | turnedAway => exact h
  | admitted _ => exact h.admit _ _
  | upsertFailed _ =>
      exact h.frame rfl rfl rfl rfl (fun _ hi => List.mem_cons_of_mem _ hi) (Int.le_refl _)
  | upserted hnew ha hcall heffect => exact h.upserted hnew ha hcall heffect
  | noteFailed _ =>
      exact h.frame rfl rfl rfl rfl (fun _ hi => List.mem_cons_of_mem _ hi) (Int.le_refl _)
  | noteOpened hnew ha _ hfind => exact h.noteOpened hnew ha hfind
  | noteTimed hopen => exact h.noteTimed hopen
  | noteLost _ => exact h.setNote (fun _ ho => by cases ho)
  | noted hopen hnow => exact h.noted hopen hnow

/-- In every run the store holds what was acknowledged and nothing else. -/
theorem store_tells {clock : Int} {start : Db} {labels : List ConsoleLabel} {s : Console}
    (hrun : runSteps (Console.step jwt srv cfg env gen fk) (Console.init clock start) labels =
      some s) :
    StoreTells start s := by
  have h : StoreOk start s :=
    run_invariant (fun _ _ _ h hstep => StoreOk.step h hstep) (storeOk_init clock start) hrun
  exact ⟨h.written, h.written.story, h.once, h.ordered, h.owned⟩

end

/-- A note on the alert {lit}`e` of the host {lit}`h`. -/
def sampleNote : Document :=
  .object [(quote "host_id".toList, encodeString "h"), (quote "event_id".toList, encodeString "e"),
    (quote "body".toList, encodeString "seen")]

def sampleWrites : List ConsoleLabel :=
  [.login (some sampleLogin), .request (some "long"), .request (some "long"),
    .upsert 0 (some (alertBody (.object []) [0x7B, 0x7D]
      (@Spells.emptyObject [] (fun _ hb => by cases hb)) (fun _ h => by cases h))) (fun _ => none),
    .note 1 (some sampleNote) none, .readNow 1, .oidc (.tick minute), .insertNote 1 none]

/-- The administrator opens an alert and adds a note to it, which is a minute on its way,
and that is what the store holds. -/
theorem store_tells_opened :
    exists s, runSteps
        (Console.step halfDayJwt sampleServer sampleConfig sampleEnv sampleGen true)
        (Console.init 0 Db.empty) sampleWrites = some s ∧
      s.acknowledged.map Acknowledged.request = [0, 1] ∧
      s.store.story.log = [{ key := ("h", "e"), actor := "admin", fromStatus := none
                             toStatus := some statusOpen, at_ := formatTS 0 }] ∧
      s.store.story.notes = [{ key := ("h", "e"), author := "admin", body := "seen"
                               createdAt := formatTS 0 }] := by
  have hrun : exists s, runSteps
        (Console.step halfDayJwt sampleServer sampleConfig sampleEnv sampleGen true)
        (Console.init 0 Db.empty) sampleWrites = some s ∧
      s.acknowledged.map Acknowledged.request = [0, 1] ∧
      ((s.acknowledged.map Acknowledged.call).foldl Story.after Db.empty.story).log =
        [{ key := ("h", "e"), actor := "admin", fromStatus := none
           toStatus := some statusOpen, at_ := formatTS 0 }] ∧
      ((s.acknowledged.map Acknowledged.call).foldl Story.after Db.empty.story).notes =
        [{ key := ("h", "e"), author := "admin", body := "seen", createdAt := formatTS 0 }] :=
    ⟨_, rfl, rfl, rfl, rfl⟩
  rcases hrun with ⟨s, hrun, hacknowledged, hlog, hnotes⟩
  have hstory := (store_tells hrun).story
  exact ⟨s, hrun, hacknowledged, (congrArg Story.log hstory).trans hlog,
    (congrArg Story.notes hstory).trans hnotes⟩

end Api
end LodelineManager
