import LodelineManager.Foundation.ConnectionReader
import LodelineManager.Triage.AuditTrail
import LodelineManager.Triage.Paging
import LodelineManager.Triage.SerialOrder

/-!
# Writers and their clock

An upsert reads the clock inside its transaction, once its lookup has returned.  The
transaction keeps the connection until it ends, so with a clock that does not go back
the log is written in the order of its {lit}`at` column, and listing it by {lit}`at`
gives the order in which the entries were made.
-/

namespace LodelineManager
namespace Triage

open Foundation SingleConnection Go

/-!
## The tables of a key
-/

def WriteCall.key : WriteCall -> String × String
  | upsert _ inp => inp.key
  | appendNote _ hostID eventID _ _ => (hostID, eventID)

def notesOf (db : Db) (key : String × String) : List SqlNote :=
  db.triageNotes.filter (fun n => decide (n.key = key))

/-!
## List calls
-/

section

variable {result : Type} {hostID eventID context : String} {o : Stmt} {scan : o.Res -> result}

def listing {result : Type} (hostID eventID : String) (o : Stmt) (context : String)
    (scan : o.Res -> result) : Call result :=
  getRow hostID eventID (fun existing =>
    match existing with
    | .error e => .ret (.error e)
    | .ok _ =>
        .auto o (fun got =>
          match got with
          | .error e => .ret (.error (.database context e))
          | .ok rows => .ret (.ok (scan rows))))

theorem getRow_eq_listing {k : Except Err Row -> Call result}
    {next : Except SqlErr o.Res -> Call result}
    (herror : forall e, k (.error e) = .ret (.error e)) (hrow : forall row, k (.ok row) = .auto o next)
    (hfail : forall e, next (.error e) = .ret (.error (.database context e)))
    (hrows : forall rows, next (.ok rows) = .ret (.ok (scan rows))) :
    getRow hostID eventID k = listing hostID eventID o context scan := by
  unfold listing
  congr 1
  funext existing
  cases existing with
  | error e => exact herror e
  | ok row =>
      rw [hrow]
      show Prog.auto _ _ = Prog.auto _ _
      congr 1
      funext got
      cases got with
      | error e => exact hfail e
      | ok rows => exact hrows rows

theorem listNotes_eq (hostID eventID : String) :
    listNotes hostID eventID = listing hostID eventID (.selectNotes hostID eventID)
      "triage: list notes" (fun rows => rows.map scanNote) :=
  getRow_eq_listing (fun _ => rfl) (fun _ => rfl) (fun _ => rfl) (fun _ => rfl)

theorem listLog_eq (hostID eventID : String) :
    listLog hostID eventID = listing hostID eventID (.selectLog hostID eventID)
      "triage: list log" (fun rows => rows.map scanLog) :=
  getRow_eq_listing (fun _ => rfl) (fun _ => rfl) (fun _ => rfl) (fun _ => rfl)

theorem listing_run {fk : Bool} {d : Db} {key : String × String} {r : SqlRow}
    (o : Stmt) {rows : o.Res} (context : String) (scan : o.Res -> result)
    (h : d.triage.find? key = some r) (hrows : execStmt fk o d = .ok (rows, d)) :
    (listing key.1 key.2 o context scan).run (engine fk) Prog.noFaults ⟨d, none⟩ =
      (.ok (scan rows), ⟨d, none⟩) := by
  have hlookup : execStmt fk (.selectRow key.1 key.2) d = .ok (some r, d) :=
    congrArg (fun found => Except.ok (found, d)) h
  unfold listing getRow
  simp only [Prog.run, Prog.noFaults_zero, Engine.answer, engine, hlookup, hrows, scanned]
  rfl

end

/-!
## Effects on the tables of a key
-/

theorem WriteCall.Effect.log {d d' : Db} {w : WriteCall} {a : Reply} (h : w.Effect d a d') :
    d'.triageLog = d.triageLog ∨
      exists now inp fromStatus toStatus, w = .upsert now inp ∧
        d'.triageLog = d.triageLog ++ [newEntry d inp.hostID inp.eventID inp.actor fromStatus
          toStatus (formatTS now)] := by
  cases h with
  | @upsert now inp row _ hup =>
      cases hup with
      | inserted hvalid hfind hrows => exact Or.inr ⟨now, inp, _, _, rfl, rfl⟩
      | kept hvalid hfind hchange => exact Or.inl rfl
      | moved hvalid hfind hchange => exact Or.inr ⟨now, inp, _, _, rfl, rfl⟩
  | appendNote hfind => exact Or.inl rfl

/-- The two contents hold the same row, log and notes of the key. -/
structure SameAt (key : String × String) (d d' : Db) : Prop where
  row : d'.triage.find? key = d.triage.find? key
  log : entriesOf d' key = entriesOf d key
  notes : notesOf d' key = notesOf d key

theorem SameAt.refl (key : String × String) (d : Db) : SameAt key d d := ⟨rfl, rfl, rfl⟩

theorem SameAt.trans {key : String × String} {d d' d'' : Db} (h : SameAt key d d')
    (h' : SameAt key d' d'') : SameAt key d d'' where
  row := h'.row.trans h.row
  log := h'.log.trans h.log
  notes := h'.notes.trans h.notes

theorem WriteCall.Effect.sameAt {d d' : Db} {w : WriteCall} {a : Reply}
    {key : String × String} (h : w.Effect d a d') (hkey : w.key ≠ key) : SameAt key d d' := by
  cases h with
  | @upsert now inp row _ hup =>
      have hne : ¬ (inp.hostID, inp.eventID) = key := hkey
      refine ⟨hup.find?_other (fun heq => hkey heq.symm), ?_, ?_⟩
      · cases hup with
        | inserted hvalid hfind hrows => rw [entriesOf_insertLog, if_neg hne]; rfl
        | kept hvalid hfind hchange => rfl
        | moved hvalid hfind hchange => rw [entriesOf_insertLog, if_neg hne]; rfl
      · cases hup with
        | inserted hvalid hfind hrows => rfl
        | kept hvalid hfind hchange => rfl
        | moved hvalid hfind hchange => rfl
  | @appendNote now hostID eventID author body r note hfind =>
      refine ⟨rfl, rfl, ?_⟩
      unfold notesOf Db.insertNote
      rw [List.filter_append]
      have hne : ¬ (hostID, eventID) = key := hkey
      simp [SqlNote.key, hne]

/-- Calls that succeeded, one after the other, between two contents. -/
def TookEffect {ident : Type} (fk : Bool) (calls : ident -> WriteCall) (d : Db)
    (order : List (ident × Except Err Reply)) (d' : Db) : Prop :=
  Serial (engine fk) (fun t => (calls t).prog) d order d' ∧
    forall t a, (t, a) ∈ order -> Succeeded a

theorem TookEffect.sameAt {ident : Type} {fk : Bool} {calls : ident -> WriteCall} {d d' : Db}
    {order : List (ident × Except Err Reply)} {key : String × String}
    (h : TookEffect fk calls d order d')
    (hother : forall t a, (t, a) ∈ order -> (calls t).key ≠ key) : SameAt key d d' := by
  rcases h with ⟨hserial, hgood⟩
  induction hserial with
  | nil d => exact SameAt.refl key d
  | @cons d mid d' t a rest hrun _ ih =>
      rcases hgood t a List.mem_cons_self with ⟨b, hb⟩
      rw [hb] at hrun
      have hhead := (prog_ok hrun).left.sameAt (hother t a List.mem_cons_self)
      exact hhead.trans (ih (fun u c hc => hother u c (List.mem_cons_of_mem _ hc))
        (fun u c hc => hgood u c (List.mem_cons_of_mem _ hc)))

theorem TookEffect.log_prefix {ident : Type} {fk : Bool} {calls : ident -> WriteCall} {d d' : Db}
    {order : List (ident × Except Err Reply)} (h : TookEffect fk calls d order d')
    (key : String × String) : entriesOf d key <+: entriesOf d' key := by
  rcases h with ⟨hserial, hgood⟩
  induction hserial with
  | nil d => exact List.prefix_refl _
  | @cons d mid d' t a rest hrun _ ih =>
      rcases hgood t a List.mem_cons_self with ⟨b, hb⟩
      rw [hb] at hrun
      have hhead : entriesOf d key <+: entriesOf mid key := by
        rcases (prog_ok hrun).left.log with hsame | ⟨_, _, _, _, _, hlog⟩
        · have heq : entriesOf mid key = entriesOf d key := by
            unfold entriesOf
            rw [hsame]
          exact ⟨[], (List.append_nil _).trans heq.symm⟩
        · unfold entriesOf
          rw [hlog, List.filter_append]
          exact List.prefix_append _ _
      exact hhead.trans (ih (fun u c hc => hgood u c (List.mem_cons_of_mem _ hc)))

/-!
## The writers
-/

structure Writers (ident : Type) where
  store : System Db Stmt Stmt.Res SqlErr (Except Err Reply) ident
  clock : Int

inductive WriterEvent (ident : Type) where
  | access (e : Event SqlErr ident)
  | tick (n : Nat)

def looksUp : Call Reply -> Bool
  | .stmt (.selectRow _ _) _ => true
  | _ => false

/-- An upsert whose lookup returns here takes the clock as its {lit}`now`. -/
def readsNow {ident : Type} (calls : ident -> WriteCall) (s : Writers ident) :
    Event SqlErr ident -> Bool
  | .access t none =>
      match calls t with
      | .upsert now _ => !looksUp (s.store.progs t) || decide (now = s.clock)
      | .appendNote _ _ _ _ _ => true
  | _ => true

section

variable {ident : Type} [DecidableEq ident]

def Writers.step (fk : Bool) (calls : ident -> WriteCall) (s : Writers ident) :
    WriterEvent ident -> Option (Writers ident)
  | .access e =>
      if readsNow calls s e then
        match System.step (engine fk) s.store e with
        | none => none
        | some store => some { s with store := store }
      else none
  | .tick n =>
      if Time.InRange (s.clock + n) then some { s with clock := s.clock + n } else none

/-- What a step can do. -/
inductive Writers.Stepped (fk : Bool) (calls : ident -> WriteCall) (s : Writers ident) :
    WriterEvent ident -> Writers ident -> Prop where
  | tick {n : Nat} : Time.InRange (s.clock + n) ->
      Stepped fk calls s (.tick n) { s with clock := s.clock + n }
  | access {t : ident} {fault : Option SqlErr}
      {store : System Db Stmt Stmt.Res SqlErr (Except Err Reply) ident} :
      readsNow calls s (.access t fault) = true ->
      System.step (engine fk) s.store (.access t fault) = some store ->
      Stepped fk calls s (.access (.access t fault)) { s with store := store }
  | contextDone {t : ident}
      {store : System Db Stmt Stmt.Res SqlErr (Except Err Reply) ident} :
      System.step (engine fk) s.store (.contextDone t) = some store ->
      store.committed = s.store.committed -> store.holder = none ->
      Stepped fk calls s (.access (.contextDone t)) { s with store := store }

theorem Writers.step_cases {fk : Bool} {calls : ident -> WriteCall} {s s' : Writers ident}
    {l : WriterEvent ident} (h : Writers.step fk calls s l = some s') :
    Writers.Stepped fk calls s l s' := by
  cases l with
  | tick n =>
      simp only [Writers.step] at h
      split at h
      · rename_i hrange
        cases h
        exact Stepped.tick hrange
      · cases h
  | access e =>
      simp only [Writers.step] at h
      split at h
      · rename_i hnow
        cases hsys : System.step (engine fk) s.store e with
        | none =>
            rw [hsys] at h
            cases h
        | some store =>
            rw [hsys] at h
            cases h
            cases e with
            | access t fault => exact Stepped.access hnow hsys
            | contextDone t =>
                have hended := hsys
                simp only [System.step] at hended
                split at hended
                · cases hended
                  exact Stepped.contextDone hsys rfl rfl
                · cases hended
      · cases h

def Writers.start (calls : ident -> WriteCall) (clock : Int) : Writers ident :=
  { store := System.start Db.empty (fun t => (calls t).prog), clock := clock }

def writersAround (fk : Bool) (calls : ident -> WriteCall) :
    Surroundings (Writers ident) (WriterEvent ident) Db :=
  { step := Writers.step fk calls
    contents := fun s => s.store.committed
    free := fun s => s.store.holder.isNone }

/-!
## The log is in the order of its time column
-/

/-- The entry was logged at a reading up to the bound. -/
def LoggedBy (bound : Int) (e : SqlLog) : Prop :=
  exists t, Time.InRange t ∧ t <= bound ∧ e.at_ = formatTS t

theorem LoggedBy.mono {b b' : Int} {e : SqlLog} (h : LoggedBy b e) (hle : b <= b') :
    LoggedBy b' e := by
  rcases h with ⟨t, hrange, ht, hat⟩
  exact ⟨t, hrange, Int.le_trans ht hle, hat⟩

theorem LoggedBy.logOrder {now : Int} {e e' : SqlLog} (h : LoggedBy now e)
    (hnow : Time.InRange now) (hat : e'.at_ = formatTS now) (hid : e.id <= e'.id) :
    logOrder e e' := by
  rcases h with ⟨t, hrange, hle, htext⟩
  unfold Triage.logOrder
  rw [htext, hat]
  rcases Int.lt_or_eq_of_le hle with hlt | heq
  · exact Or.inl (formatTS_lt hrange hnow hlt)
  · rw [heq]
    exact Or.inr ⟨rfl, hid⟩

/-- The log of the table is in the order of {lit}`ListLog`, and its entries were
logged up to the bound. -/
structure Chronological (bound : Int) (db : Db) : Prop where
  stamped : forall e, e ∈ db.triageLog -> LoggedBy bound e
  ordered : db.triageLog.Pairwise logOrder

theorem chronological_empty (bound : Int) : Chronological bound Db.empty where
  stamped := by
    intro e he
    cases he
  ordered := List.Pairwise.nil

theorem Chronological.mono {b b' : Int} {db : Db} (h : Chronological b db) (hle : b <= b') :
    Chronological b' db where
  stamped := fun e he => (h.stamped e he).mono hle
  ordered := h.ordered

theorem Chronological.logInTimeOrder {bound : Int} {db : Db} (h : Chronological bound db)
    (key : String × String) : (entriesOf db key).insertionSort logOrder = entriesOf db key :=
  List.Pairwise.insertionSort_eq (h.ordered.sublist List.filter_sublist)

theorem Chronological.effect {now : Int} {d d' : Db} {w : WriteCall} {a : Reply}
    (h : Chronological now d) (hd : Audited d) (hnow : Time.InRange now)
    (heff : w.Effect d a d') (hw : forall n inp, w = .upsert n inp -> n = now) :
    Chronological now d' := by
  rcases heff.log with hsame | ⟨n, inp, fromStatus, toStatus, hup, hlog⟩
  · constructor
    · rw [hsame]
      exact h.stamped
    · rw [hsame]
      exact h.ordered
  · rw [hw n inp hup] at hlog
    constructor
    · rw [hlog]
      intro e he
      rcases List.mem_append.mp he with hold | hnew
      · exact h.stamped e hold
      · rw [List.mem_singleton.mp hnew]
        exact ⟨now, hnow, Int.le_refl _, rfl⟩
    · rw [hlog]
      refine List.pairwise_append.mpr ⟨h.ordered, List.pairwise_singleton _ _, ?_⟩
      intro e he e' he'
      rw [List.mem_singleton.mp he']
      exact (h.stamped e he).logOrder hnow rfl (Nat.le_succ_of_le (hd.bound e he))

/-!
## What an open upsert knows
-/

def upsertOpened (now : Int) (inp : UpsertInput) : Call Reply :=
  (upsertTx now inp).deferRollback.map (Except.map Reply.row)

/-- An upsert with an open transaction has not looked up its row, has read a clock that
no entry is ahead of, or has failed. -/
inductive Opened (clock : Int) (db : Db) (now : Int) (inp : UpsertInput) :
    Call Reply -> Prop where
  | begun : Opened clock db now inp (upsertOpened now inp)
  | timed {p : Call Reply} : Time.InRange now -> now <= clock -> Chronological now db ->
      Opened clock db now inp p
  | failed {p : Call Reply} : Doomed Succeeded p -> Opened clock db now inp p

theorem Opened.mono {b b' now : Int} {db : Db} {inp : UpsertInput} {p : Call Reply}
    (h : Opened b db now inp p) (hle : b <= b') : Opened b' db now inp p := by
  cases h with
  | begun => exact Opened.begun
  | timed hrange hn hchron => exact Opened.timed hrange (Int.le_trans hn hle) hchron
  | failed hd => exact Opened.failed hd

structure Timely (fk : Bool) (calls : ident -> WriteCall) (s : Writers ident) : Prop where
  serialized : exists order,
    Serialized Succeeded (engine fk) (fun t => (calls t).prog) Db.empty order s.store
  audited : Audited s.store.committed
  inRange : Time.InRange s.clock
  chronological : Chronological s.clock s.store.committed
  opened : forall t now inp w, calls t = .upsert now inp -> s.store.view t = some w ->
    Opened s.clock s.store.committed now inp (s.store.progs t)

theorem timely_start (fk : Bool) (calls : ident -> WriteCall) {clock : Int}
    (hclock : Time.InRange clock) : Timely fk calls (Writers.start calls clock) where
  serialized := ⟨[], serialized_start Db.empty (fun t => callShape_prog fk (calls t))⟩
  audited := audited_empty
  inRange := hclock
  chronological := chronological_empty clock
  opened := by
    intro t now inp w hcall hview
    cases hview

/-!
## Every step is timely
-/

theorem inTx_upsertOpened (now : Int) (inp : UpsertInput) :
    InTx Succeeded (upsertOpened now inp) :=
  (inTx_upsertTx now inp).map (succeeded_map Reply.row)

theorem upsertOpened_of_readTo {fk : Bool} {now : Int} {inp : UpsertInput}
    {k : Except SqlErr Unit -> Call Reply}
    (h : ReadTo (engine fk) (WriteCall.upsert now inp).prog (Prog.beginTx k)) :
    k (.ok ()) = upsertOpened now inp := by
  have hstart := readTo_upsert h
  rw [WriteCall.prog, upsert] at hstart
  cases hcheck : upsertCheck inp with
  | some e =>
      rw [hcheck] at hstart
      cases hstart
  | none =>
      rw [hcheck] at hstart
      cases hstart
      rfl

theorem Opened.access {fk : Bool} {clock now : Int} {d : Db} {inp : UpsertInput}
    {p : Call Reply} {fault : Option SqlErr} (h : Opened clock d now inp p)
    (hclock : Time.InRange clock) (hd : Chronological clock d)
    (hreads : fault = none -> looksUp p = true -> now = clock) (w : Db) :
    Opened clock d now inp (p.next (engine fk) fault ⟨d, some w⟩).1 := by
  cases h with
  | begun =>
      cases fault with
      | none =>
          rw [hreads rfl rfl]
          exact Opened.timed hclock (Int.le_refl _) hd
      | some e => exact Opened.failed (Doomed.rollback (doomed_error _))
  | timed hrange hle hchron => exact Opened.timed hrange hle hchron
  | failed hdoom => exact Opened.failed (hdoom.next fault _).left

theorem Opened.timed_of_finished {fk : Bool} {clock now : Int} {d w : Db} {inp : UpsertInput}
    {p : Call Reply} {fault : Option SqlErr} {a : Except Err Reply}
    (h : Opened clock d now inp p) (ha : Succeeded a)
    (hfin : Finished a (p.next (engine fk) fault ⟨d, some w⟩).1) :
    Time.InRange now ∧ now <= clock ∧ Chronological now d := by
  cases h with
  | begun => exact absurd hfin (((inTx_upsertOpened now inp).next_stmt fault d w).not_finished ha)
  | timed hrange hle hchron => exact ⟨hrange, hle, hchron⟩
  | failed hdoom => exact absurd hfin ((hdoom.next fault _).left.not_finished ha)

theorem Stage.upsert_needsFree {fk : Bool} {now : Int} {inp : UpsertInput} {p : Call Reply}
    {d : Db} {done : Except Err Reply -> Prop}
    (h : Stage Succeeded (engine fk) (WriteCall.upsert now inp).prog p d none done)
    (hneeds : p.needsFree = true) : InTx Succeeded (p.next (engine fk) none ⟨d, none⟩).1 := by
  cases h with
  | reading _ _ hread _ _ =>
      have hstart := readTo_upsert hread
      rw [hstart, WriteCall.prog, upsert] at hneeds ⊢
      cases hcheck : upsertCheck inp with
      | some e =>
          rw [hcheck] at hneeds
          cases hneeds
      | none => exact inTx_upsertOpened now inp
  | inTx _ hin _ =>
      cases hin with
      | doomed hd =>
          cases hd with
          | ret _ => cases hneeds
          | rollback _ => cases hneeds
      | stmt _ _ => cases hneeds
      | commit _ _ _ => cases hneeds
  | doomed _ hd =>
      cases hd with
      | ret _ => cases hneeds
      | rollback _ => cases hneeds
  | finished _ _ hfin =>
      cases hfin with
      | ret => cases hneeds
      | rollback _ => cases hneeds

section

variable {fk : Bool} {calls : ident -> WriteCall} {s : Writers ident}
  {store : System Db Stmt Stmt.Res SqlErr (Except Err Reply) ident} {t : ident}
  {fault : Option SqlErr}

omit [DecidableEq ident] in
theorem clock_of_readsNow {now : Int} {inp : UpsertInput} (hcall : calls t = .upsert now inp)
    (hnow : readsNow calls s (.access t fault) = true) (hfault : fault = none)
    (hlook : looksUp (s.store.progs t) = true) : now = s.clock := by
  rw [hfault] at hnow
  simp only [readsNow, hcall, hlook] at hnow
  simpa using hnow

theorem Timely.opened_step (h : Timely fk calls s)
    (hnow : readsNow calls s (.access t fault) = true)
    (hacc : System.Accessed (engine fk) s.store store t fault)
    (hsame : store.committed = s.store.committed) (u : ident) (now : Int) (inp : UpsertInput)
    (w : Db) (hcall : calls u = .upsert now inp) (hview : store.view u = some w) :
    Opened s.clock store.committed now inp (store.progs u) := by
  rw [hsame]
  by_cases hut : u = t
  · subst hut
    rw [hacc.view] at hview
    rw [hacc.self]
    cases hold : s.store.view u with
    | some w' =>
        exact (h.opened u now inp w' hcall hold).access h.inRange h.chronological
          (clock_of_readsNow hcall hnow) w'
    | none =>
        rcases h.serialized with ⟨order, hser⟩
        have hstage := hser.stage u
        rw [hold] at hview hstage
        rcases hstage.opens hview with ⟨k, hprog, hfault, hread⟩
        rw [hcall] at hread
        rw [hprog, hfault]
        show Opened _ _ _ _ (k (.ok ()))
        rw [upsertOpened_of_readTo hread]
        exact Opened.begun
  · rw [hacc.other u hut]
    rw [hacc.views u hut] at hview
    exact h.opened u now inp w hcall hview

theorem Timely.chronological_effect (h : Timely fk calls s) {a : Except Err Reply} {b : Reply}
    (hb : a = .ok b)
    (hfin : Finished a ((s.store.progs t).next (engine fk) fault
      ⟨s.store.committed, s.store.view t⟩).1)
    (heff : (calls t).Effect s.store.committed b store.committed)
    (hheld : (s.store.view t).isSome = true ∨
      (s.store.progs t).needsFree = true ∧ fault = none) :
    Chronological s.clock store.committed := by
  have hgood : Succeeded a := ⟨b, hb⟩
  cases hcall : calls t with
  | appendNote now hostID eventID author body =>
      rw [hcall] at heff
      exact h.chronological.effect h.audited h.inRange heff (fun n inp hw => by cases hw)
  | upsert now inp =>
      rw [hcall] at heff
      have htimed : Time.InRange now ∧ now <= s.clock ∧
          Chronological now s.store.committed := by
        cases hview : s.store.view t with
        | some w =>
            rw [hview] at hfin
            exact (h.opened t now inp w hcall hview).timed_of_finished hgood hfin
        | none =>
            rw [hview] at hheld hfin
            rcases hheld with hsome | ⟨hneeds, hfault⟩
            · cases hsome
            · rcases h.serialized with ⟨order, hser⟩
              have hstage := hser.stage t
              rw [hview, hcall] at hstage
              rw [hfault] at hfin
              exact absurd hfin ((Stage.upsert_needsFree hstage hneeds).not_finished hgood)
      rcases htimed with ⟨hrange, hle, hchron⟩
      refine (hchron.effect h.audited hrange heff ?_).mono hle
      intro n inp' hw
      cases hw
      rfl

theorem timely_access (h : Timely fk calls s)
    (hnow : readsNow calls s (.access t fault) = true)
    (hstep : System.step (engine fk) s.store (.access t fault) = some store) :
    Timely fk calls { s with store := store } := by
  have hacc := System.step_access hstep
  rcases h.serialized with ⟨order, hser⟩
  have hnext := serialized_access (stable_writes fk calls) hser hstep
  rcases (hser.stage t).acts fault with ⟨hsame, _⟩ | heffect
  · rw [← hacc.committed] at hsame
    exact
      { serialized := hnext
        audited := hsame ▸ h.audited
        inRange := h.inRange
        chronological := hsame ▸ h.chronological
        opened := h.opened_step hnow hacc hsame }
  · rcases heffect with ⟨a, _, hgood, hfin, htx, hrun, hheld⟩
    rcases hgood with ⟨b, hb⟩
    rw [← hacc.committed, hb] at hrun
    have heff : (calls t).Effect s.store.committed b store.committed := (prog_ok hrun).left
    have hfree : (s.store.view t).isSome = true ∨ s.store.holder = none := by
      rcases hheld with hview | ⟨hneeds, hfault⟩
      · exact Or.inl hview
      · exact Or.inr (hacc.free hneeds hfault)
    have hnone : forall u, store.view u = none := by
      intro u
      by_cases hut : u = t
      · rw [hut, hacc.view]
        exact htx
      · rw [hacc.views u hut]
        exact System.view_none_of_other hut hfree
    exact
      { serialized := hnext
        audited := h.audited.effect heff
        inRange := h.inRange
        chronological := h.chronological_effect hb hfin heff hheld
        opened := fun u now inp w _ hview => by
          rw [hnone u] at hview
          cases hview }

theorem timely_step {l : WriterEvent ident} {s' : Writers ident} (h : Timely fk calls s)
    (hstep : Writers.step fk calls s l = some s') : Timely fk calls s' := by
  cases Writers.step_cases hstep with
  | @tick n hrange =>
      have hle : s.clock <= s.clock + n := Int.le_add_of_nonneg_right (Int.natCast_nonneg n)
      exact
        { serialized := h.serialized
          audited := h.audited
          inRange := hrange
          chronological := h.chronological.mono hle
          opened := fun t now inp w hcall hview => (h.opened t now inp w hcall hview).mono hle }
  | access hnow hsys => exact timely_access h hnow hsys
  | @contextDone t store hsys hsame hfree =>
      rcases h.serialized with ⟨order, hser⟩
      exact
        { serialized := ⟨order, serialized_contextDone hser hsys⟩
          audited := hsame ▸ h.audited
          inRange := h.inRange
          chronological := hsame ▸ h.chronological
          opened := fun u now inp w _ hview => by
            unfold System.view at hview
            rw [hfree] at hview
            cases hview }

end

theorem timely_run {fk : Bool} {calls : ident -> WriteCall} {s s' : Writers ident}
    {labels : List (WriterEvent ident)} (h : Timely fk calls s)
    (hrun : runSteps (Writers.step fk calls) s labels = some s') : Timely fk calls s' :=
  run_invariant (fun _ _ _ hs hstep => timely_step hs hstep) h hrun

/-!
## From one state to a later one
-/

theorem Timely.tookEffect {fk : Bool} {calls : ident -> WriteCall} {s s' : Writers ident}
    {labels : List (WriterEvent ident)} (h : Timely fk calls s)
    (hrun : runSteps (Writers.step fk calls) s labels = some s') :
    exists order, TookEffect fk calls s.store.committed order s'.store.committed := by
  refine (run_invariant (P := fun s' => Timely fk calls s' ∧
    exists order, TookEffect fk calls s.store.committed order s'.store.committed)
    ?_ ⟨h, [], Serial.nil _, fun t a ha => by cases ha⟩ hrun).right
  intro s1 l s2 hs hstep
  refine ⟨timely_step hs.left hstep, ?_⟩
  rcases hs with ⟨htimely, order, hserial, hgood⟩
  cases Writers.step_cases hstep with
  | tick hrange => exact ⟨order, hserial, hgood⟩
  | contextDone hsys hsame hfree => exact ⟨order, hsame ▸ hserial, hgood⟩
  | @access t fault store hnow hsys =>
      rcases htimely.serialized with ⟨_, hser⟩
      rcases hser.access_effect hsys with hsame | ⟨a, ha, hone⟩
      · rw [← hsame] at hserial
        exact ⟨order, hserial, hgood⟩
      · refine ⟨order ++ [(t, a)], hserial.snoc hone, ?_⟩
        intro u b hb
        rcases List.mem_append.mp hb with hold | hnew
        · exact hgood u b hold
        · cases List.mem_singleton.mp hnew
          exact ha

end

end Triage
end LodelineManager
