import LodelineManager.Triage.Paging

/-!
# Walks under concurrent writes

A client follows {lit}`NextCursor` from the first page while other clients write
between its requests.  A write stamps its row with a reading later than every
stamp in the table, so it moves the row ahead of the cursor.
-/

namespace LodelineManager
namespace Triage

open Foundation SingleConnection Go

/-- A page and the database it was read from. -/
structure PageStep where
  db : Db
  page : ListResult

/-- Follow the cursor; {lit}`between n` is served after the {lit}`n`-th page. -/
def walk (fk : Bool) (statuses : List Status) (limit : Int) (between : Nat -> List Served) :
    Nat -> Nat -> String -> Conn Db -> Option (Except Err (List PageStep))
  | 0, _, _, _ => none
  | fuel + 1, n, cursor, c =>
      match requestPage fk statuses limit cursor c.committed with
      | .error e => some (.error e)
      | .ok page =>
          if page.nextCursor = "" then some (.ok [⟨c.committed, page⟩])
          else
            match runSteps (serve fk) c (between n) with
            | none => none
            | some c' =>
                match walk fk statuses limit between fuel (n + 1) page.nextCursor c' with
                | none => none
                | some (.error e) => some (.error e)
                | some (.ok rest) => some (.ok (⟨c.committed, page⟩ :: rest))

def walkRows (steps : List PageStep) : List Row :=
  steps.flatMap (fun s => s.page.rows)

def Row.key (r : Row) : String × String := (r.hostID, r.eventID)

/-- The order a page promises. -/
def rowOrder (a b : Row) : Prop :=
  b.updatedAt < a.updatedAt ∨
    a.updatedAt = b.updatedAt ∧
      (a.hostID < b.hostID ∨ a.hostID = b.hostID ∧ a.eventID < b.eventID)

instance : DecidableRel rowOrder := fun _ _ => inferInstanceAs (Decidable (_ ∨ _))

/-!
## Clock readings
-/

def Served.readings (l : Served) : List Int :=
  match l.call with
  | .upsert now _ => [now]
  | .appendNote _ _ _ _ _ => []

def readings (calls : List Served) : List Int := calls.flatMap Served.readings

/-- The calls served before the {lit}`n`-th page. -/
def callsBefore (between : Nat -> List Served) (n : Nat) : List Served :=
  (List.range n).flatMap between

/-- The clock of a walk that starts after {lit}`history`: its readings strictly
increase from beyond all the earlier ones, in years that RFC 3339 can write. -/
structure WalkClock (history : List Served) (between : Nat -> List Served) : Prop where
  inRange : forall n t, t ∈ readings (history ++ callsBefore between n) -> Time.InRange t
  later : forall n a b, a ∈ readings history -> b ∈ readings (callsBefore between n) -> a < b
  increasing : forall n, (readings (callsBefore between n)).Pairwise (fun a b => a < b)

theorem readings_append (xs ys : List Served) :
    readings (xs ++ ys) = readings xs ++ readings ys := List.flatMap_append

theorem callsBefore_succ (between : Nat -> List Served) (n : Nat) :
    callsBefore between (n + 1) = callsBefore between n ++ between n := by
  unfold callsBefore
  rw [List.range_succ, List.flatMap_append, List.flatMap_cons, List.flatMap_nil,
    List.append_nil]

theorem WalkClock.lt {history : List Served} {between : Nat -> List Served}
    (h : WalkClock history between) {n : Nat} {a b : Int}
    (ha : a ∈ readings (history ++ callsBefore between n)) (hb : b ∈ readings (between n)) :
    a < b := by
  rw [readings_append, List.mem_append] at ha
  rcases ha with hhist | hbefore
  · apply h.later (n + 1) a b hhist
    rw [callsBefore_succ, readings_append]
    exact List.mem_append.mpr (Or.inr hb)
  · have hinc := h.increasing (n + 1)
    rw [callsBefore_succ, readings_append, List.pairwise_append] at hinc
    exact hinc.right.right a hbefore b hb

theorem WalkClock.inRange_between {history : List Served} {between : Nat -> List Served}
    (h : WalkClock history between) {n : Nat} {t : Int} (ht : t ∈ readings (between n)) :
    Time.InRange t := by
  apply h.inRange (n + 1) t
  rw [callsBefore_succ, ← List.append_assoc, readings_append]
  exact List.mem_append.mpr (Or.inr ht)

/-!
## Stamps
-/

theorem Upserted.rows {now : Int} {inp : UpsertInput} {d d' : Db} {row : Row}
    (h : Upserted now inp d row d') {r : SqlRow} (hr : r ∈ d'.triage.rows) :
    r ∈ d.triage.rows ∨ r.updatedAt = formatTS now := by
  cases h with
  | inserted hvalid hnone hrows =>
      rw [insertLog_triage, hrows] at hr
      rcases List.mem_append.mp hr with hold | hnew
      · exact Or.inl hold
      · apply Or.inr
        rw [List.mem_singleton.mp hnew]
        rfl
  | kept hvalid hsome hchange =>
      rcases List.mem_map.mp hr with ⟨q, hq, hqr⟩
      rw [← hqr]
      split
      · exact Or.inr rfl
      · exact Or.inl hq
  | moved hvalid hsome hchange =>
      rcases List.mem_map.mp hr with ⟨q, hq, hqr⟩
      rw [← hqr]
      split
      · exact Or.inr rfl
      · exact Or.inl hq

theorem serve_rows {fk : Bool} {d : Db} {l : Served} {c : Conn Db}
    (h : serve fk ⟨d, none⟩ l = some c) {r : SqlRow} (hr : r ∈ c.committed.triage.rows) :
    r ∈ d.triage.rows ∨ exists t, t ∈ l.readings ∧ r.updatedAt = formatTS t := by
  rcases (serve_cases h).right with hsame | ⟨a, heff⟩
  · rw [hsame] at hr
    exact Or.inl hr
  · rcases l with ⟨w, faults⟩
    cases w with
    | upsert now inp =>
        cases heff with
        | upsert hup =>
            rcases hup.rows hr with hold | hnew
            · exact Or.inl hold
            · exact Or.inr ⟨now, List.mem_singleton.mpr rfl, hnew⟩
    | appendNote now hostID eventID author body =>
        generalize hd : c.committed = d' at heff hr
        cases heff with
        | appendNote _ => exact Or.inl hr

theorem served_rows {fk : Bool} {d : Db} {calls : List Served} {c : Conn Db}
    (h : runSteps (serve fk) ⟨d, none⟩ calls = some c) :
    c.tx = none ∧ forall r, r ∈ c.committed.triage.rows ->
      r ∈ d.triage.rows ∨ exists t, t ∈ readings calls ∧ r.updatedAt = formatTS t := by
  induction calls generalizing d with
  | nil =>
      cases h
      exact ⟨rfl, fun r hr => Or.inl hr⟩
  | cons l rest ih =>
      rcases runSteps_cons h with ⟨⟨d', tx⟩, hstep, hrest⟩
      have htx : tx = none := (serve_cases hstep).left
      subst htx
      rcases ih hrest with ⟨htx, hrows⟩
      constructor
      · exact htx
      · intro r hr
        rw [readings, List.flatMap_cons]
        rcases hrows r hr with hmid | ⟨t, ht, htext⟩
        · rcases serve_rows hstep hmid with hold | ⟨t, ht, htext⟩
          · exact Or.inl hold
          · exact Or.inr ⟨t, List.mem_append.mpr (Or.inl ht), htext⟩
        · exact Or.inr ⟨t, List.mem_append.mpr (Or.inr ht), htext⟩

theorem runSteps_serve_total (fk : Bool) (c : Conn Db) (calls : List Served) :
    exists c', runSteps (serve fk) c calls = some c' := by
  induction calls generalizing c with
  | nil => exact ⟨c, rfl⟩
  | cons l rest ih =>
      rcases ih (l.call.prog.run (engine fk) l.faults c).2 with ⟨c', hc'⟩
      exact ⟨c', (runSteps_cons_of_step rfl).trans hc'⟩

/-!
## The invariant of a walk
-/

/-- What holds before the {lit}`n`-th page. -/
structure WalkState (history : List Served) (between : Nat -> List Served) (n : Nat)
    (c : Conn Db) (cur : Option Position) : Prop where
  tx : c.tx = none
  stamped : forall r, r ∈ c.committed.triage.rows ->
    exists t, t ∈ readings (history ++ callsBefore between n) ∧ r.updatedAt = formatTS t
  hosts : forall r, r ∈ c.committed.triage.rows -> Keyset.after cur r.position = true ->
    cursorSep ∉ r.hostID.toList

section

variable {fk : Bool} {history : List Served} {between : Nat -> List Served} {n : Nat}
  {c c' : Conn Db} {cur : Option Position}

theorem WalkState.cursorRow (hclock : WalkClock history between)
    (h : WalkState history between n c cur) {r : SqlRow} (hr : r ∈ c.committed.triage.rows)
    (hafter : Keyset.after cur r.position = true) : CursorRow r where
  stamp := by
    rcases h.stamped r hr with ⟨t, ht, htext⟩
    exact ⟨t, hclock.inRange n t ht, htext⟩
  host := h.hosts r hr hafter

theorem WalkState.advances (hclock : WalkClock history between)
    (h : WalkState history between n c cur)
    (hserved : runSteps (serve fk) c (between n) = some c') :
    Keyset.Advances SqlRow.position c.committed.triage.rows c'.committed.triage.rows := by
  rcases c with ⟨d, tx⟩
  have htx : tx = none := h.tx
  subst htx
  intro r hr
  rcases (served_rows hserved).right r hr with hold | ⟨t, ht, htext⟩
  · exact Or.inl hold
  · apply Or.inr
    intro q hq
    rcases h.stamped q hq with ⟨u, hu, hutext⟩
    unfold SqlRow.position
    rw [position_lt_iff, htext, hutext]
    exact Or.inl (formatTS_lt (hclock.inRange n u hu) (hclock.inRange_between ht)
      (hclock.lt hu ht))

theorem WalkState.next {statuses : List Status} {limit : Int} {rows : List SqlRow} {p : Position}
    (hclock : WalkClock history between) (h : WalkState history between n c cur)
    (hserved : runSteps (serve fk) c (between n) = some c')
    (hpage : Keyset.IsPage SqlRow.position (wanted statuses limit "")
      c.committed.triage.rows cur rows (some p)) :
    WalkState history between (n + 1) c' (some p) := by
  have hadv := h.advances hclock hserved
  rcases c with ⟨d, tx⟩
  have htx : tx = none := h.tx
  subst htx
  have hrows := served_rows hserved
  refine ⟨hrows.left, ?_, ?_⟩
  · intro r hr
    rw [callsBefore_succ, ← List.append_assoc, readings_append]
    rcases hrows.right r hr with hold | ⟨t, ht, htext⟩
    · rcases h.stamped r hold with ⟨t, ht, htext⟩
      exact ⟨t, List.mem_append.mpr (Or.inl ht), htext⟩
    · exact ⟨t, List.mem_append.mpr (Or.inr ht), htext⟩
  · intro r hr hafter
    rcases Keyset.mem_of_advances hpage hadv hr (Keyset.after_some.mp hafter) with ⟨hold, hcur⟩
    exact h.hosts r hold hcur

/-- With fuel for the rows still to come a walk ends, and its pages are a keyset
walk over the tables it saw. -/
theorem walk_isWalk (fk : Bool) {statuses : List Status} {limit : Int}
    (hvalid : forall s, s ∈ statuses -> s.isValid = true)
    (hclock : WalkClock history between) {fuel : Nat} {cursor : String}
    (h : WalkState history between n c cur) (hcur : CursorFor cursor cur)
    (hfuel : (Keyset.remaining SqlRow.position (wanted statuses limit "") cur
      c.committed.triage.rows).length < fuel) :
    exists steps raw, walk fk statuses limit between fuel n cursor c = some (.ok steps) ∧
      Keyset.Walk SqlRow.position (wanted statuses limit "") cur c.committed.triage.rows raw ∧
      List.Forall₂ (fun s x => s.db.triage.rows = x.1 ∧ s.page.rows = x.2.map scanRow)
        steps raw := by
  induction fuel generalizing n c cur cursor with
  | zero => exact absurd hfuel (Nat.not_lt_zero _)
  | succ fuel ih =>
      rcases requestPage_isPage hvalid hcur (fun r hr => h.cursorRow hclock hr) fk limit with
        ⟨rows, next, cursor', hcur', hrequest, hpage⟩
      unfold walk
      simp only [hrequest]
      cases next with
      | none =>
          rw [if_pos (hcur'.eq_empty_iff.mpr rfl)]
          exact ⟨_, [(_, rows)], rfl, Keyset.Walk.last hpage,
            List.Forall₂.cons ⟨rfl, rfl⟩ List.Forall₂.nil⟩
      | some p =>
          have hne : ¬ cursor' = "" := fun heq => by cases hcur'.eq_empty_iff.mp heq
          rw [if_neg hne]
          rcases runSteps_serve_total fk c (between n) with ⟨c', hserved⟩
          have hadv := h.advances hclock hserved
          have hless := Keyset.remaining_decreases hpage hadv (rows_nodup c'.committed)
          rcases ih (h.next hclock hserved hpage) hcur' (by omega) with
            ⟨steps, raw, hwalk, hkeyset, hsteps⟩
          simp only [hserved, hwalk]
          exact ⟨_, (_, rows) :: raw, rfl, Keyset.Walk.more hpage hadv hkeyset,
            List.Forall₂.cons ⟨rfl, rfl⟩ hsteps⟩

end

/-!
## What a walk returns
-/

theorem walkRows_eq {steps : List PageStep} {raw : List (List SqlRow × List SqlRow)}
    (h : List.Forall₂ (fun s x => s.db.triage.rows = x.1 ∧ s.page.rows = x.2.map scanRow)
      steps raw) : walkRows steps = (Keyset.returned raw).map scanRow := by
  induction h with
  | nil => rfl
  | cons hhead _ ih =>
      unfold walkRows Keyset.returned at ih ⊢
      rw [List.flatMap_cons, List.flatMap_cons, List.map_append, hhead.right, ih]

theorem mem_of_steps {steps : List PageStep} {raw : List (List SqlRow × List SqlRow)}
    (h : List.Forall₂ (fun s x => s.db.triage.rows = x.1 ∧ s.page.rows = x.2.map scanRow)
      steps raw) {T rows : List SqlRow} (hmem : (T, rows) ∈ raw) :
    exists s, s ∈ steps ∧ s.db.triage.rows = T ∧ s.page.rows = rows.map scanRow := by
  induction h with
  | nil => cases hmem
  | @cons s x steps raw hhead _ ih =>
      rcases List.mem_cons.mp hmem with heq | htail
      · cases heq
        exact ⟨s, List.mem_cons_self, hhead⟩
      · rcases ih htail with ⟨s', hs', hrest⟩
        exact ⟨s', List.mem_cons_of_mem _ hs', hrest⟩

theorem mem_of_raw {steps : List PageStep} {raw : List (List SqlRow × List SqlRow)}
    (h : List.Forall₂ (fun s x => s.db.triage.rows = x.1 ∧ s.page.rows = x.2.map scanRow)
      steps raw) {s : PageStep} (hmem : s ∈ steps) :
    exists x, x ∈ raw ∧ s.page.rows = x.2.map scanRow := by
  induction h with
  | nil => cases hmem
  | @cons s x steps raw hhead _ ih =>
      rcases List.mem_cons.mp hmem with heq | htail
      · rw [heq]
        exact ⟨x, List.mem_cons_self, hhead.right⟩
      · rcases ih htail with ⟨y, hy, hrest⟩
        exact ⟨y, List.mem_cons_of_mem _ hy, hrest⟩

theorem rowOrder_of_position_lt {a b : SqlRow}
    (ha : exists t, Time.InRange t ∧ a.updatedAt = formatTS t)
    (hb : exists t, Time.InRange t ∧ b.updatedAt = formatTS t)
    (h : a.position < b.position) : rowOrder (scanRow a) (scanRow b) := by
  rcases ha with ⟨t, ht, hta⟩
  rcases hb with ⟨u, hu, hub⟩
  have hscanA : (scanRow a).updatedAt = t := by
    show parseTS a.updatedAt = t
    rw [hta, parseTS_formatTS ht]
  have hscanB : (scanRow b).updatedAt = u := by
    show parseTS b.updatedAt = u
    rw [hub, parseTS_formatTS hu]
  unfold rowOrder
  rw [hscanA, hscanB]
  rcases position_lt_iff.mp h with hlt | ⟨heq, hkey⟩
  · apply Or.inl
    rw [hta, hub] at hlt
    rcases lt_trichotomy u t with hut | hut | hut
    · exact hut
    · rw [hut] at hlt
      exact absurd hlt (lt_irrefl _)
    · exact absurd (formatTS_lt ht hu hut) (lt_asymm hlt)
  · refine Or.inr ⟨?_, hkey⟩
    rw [hta, hub] at heq
    rw [← parseTS_formatTS ht, ← parseTS_formatTS hu, heq]

/-- What a client may rely on: the rows are rows of the first database with a
wanted status, those that stay untouched come exactly once, no key comes twice,
and every page is in order. -/
structure WalkOutcome (statuses : List Status) (limit : Int) (db : Db)
    (steps : List PageStep) : Prop where
  sound : forall row, row ∈ walkRows steps ->
    exists r, r ∈ db.triage.rows ∧ r.status ∈ listStatuses ⟨statuses, limit, ""⟩ ∧
      scanRow r = row
  once : forall r, r ∈ db.triage.rows -> r.status ∈ listStatuses ⟨statuses, limit, ""⟩ ->
    (forall s, s ∈ steps -> r ∈ s.db.triage.rows) -> (walkRows steps).count (scanRow r) = 1
  distinct : ((walkRows steps).map Row.key).Nodup
  ordered : forall s, s ∈ steps -> s.page.rows.Pairwise rowOrder

theorem walkOutcome_of_keyset {statuses : List Status} {limit : Int} {db : Db}
    {steps : List PageStep} {raw : List (List SqlRow × List SqlRow)}
    (hkeyset : Keyset.Walk SqlRow.position (wanted statuses limit "") none db.triage.rows raw)
    (hsteps : List.Forall₂ (fun s x => s.db.triage.rows = x.1 ∧ s.page.rows = x.2.map scanRow)
      steps raw)
    (hstamped : forall r, r ∈ db.triage.rows ->
      exists t, Time.InRange t ∧ r.updatedAt = formatTS t) :
    WalkOutcome statuses limit db steps := by
  have hdistinct : ((walkRows steps).map Row.key).Nodup := by
    rw [walkRows_eq hsteps, List.map_map, List.Nodup, List.pairwise_map]
    refine hkeyset.sorted.imp_of_mem ?_
    intro a b ha hb hlt hkey
    have heq : a = b := KeyedTable.eq_of_mem_of_key (hkeyset.sound ha).left
      (hkeyset.sound hb).left hkey
    rw [heq] at hlt
    exact lt_irrefl _ hlt
  refine ⟨?_, ?_, hdistinct, ?_⟩
  · intro row hrow
    rw [walkRows_eq hsteps] at hrow
    rcases List.mem_map.mp hrow with ⟨r, hr, heq⟩
    rcases hkeyset.sound hr with ⟨hmem, hwanted, _⟩
    exact ⟨r, hmem, of_decide_eq_true hwanted, heq⟩
  · intro r hr hstatus hstay
    have hreturned : r ∈ Keyset.returned raw := by
      refine hkeyset.complete ?_ (decide_eq_true hstatus) rfl
      intro T rows hmem
      rcases mem_of_steps hsteps hmem with ⟨s, hs, hT, _⟩
      rw [← hT]
      exact hstay s hs
    apply List.count_eq_one_of_mem (List.Nodup.of_map _ hdistinct)
    rw [walkRows_eq hsteps]
    exact List.mem_map_of_mem hreturned
  · intro s hs
    rcases mem_of_raw hsteps hs with ⟨x, hx, hrows⟩
    have hin : forall r, r ∈ x.2 -> r ∈ Keyset.returned raw :=
      fun r hr => List.mem_flatMap.mpr ⟨x, hx, hr⟩
    rw [hrows, List.pairwise_map]
    have hpage : x.2.Pairwise (fun a b => a.position < b.position) :=
      hkeyset.page_sorted hx
    refine hpage.imp_of_mem ?_
    intro a b ha hb hlt
    exact rowOrder_of_position_lt (hstamped a (hkeyset.sound (hin a ha)).left)
      (hstamped b (hkeyset.sound (hin b hb)).left) hlt

theorem walk_invalid {statuses : List Status} {s : Status} (hs : s ∈ statuses)
    (hinvalid : s.isValid = false) (fk : Bool) (limit : Int) (between : Nat -> List Served)
    (c : Conn Db) :
    exists bad, walk fk statuses limit between 1 0 "" c =
      some (.error (.invalidStatus bad)) := by
  have hfind : exists bad, (listStatuses ⟨statuses, limit, ""⟩).find? (fun s => !s.isValid) =
      some bad := by
    apply Option.isSome_iff_exists.mp
    rw [List.find?_isSome]
    refine ⟨s, ?_, by rw [hinvalid]; rfl⟩
    unfold listStatuses
    rw [if_neg (Nat.ne_of_gt (List.length_pos_of_mem hs))]
    exact hs
  rcases hfind with ⟨bad, hbad⟩
  refine ⟨bad, ?_⟩
  unfold walk requestPage listByStatus
  simp only [hbad]
  rfl

/-- A walk over a reachable database ends after at most one page more than there
are rows, with what a client may rely on. -/
theorem walk_visits_once {fk : Bool} {history : List Served} {c : Conn Db}
    {between : Nat -> List Served}
    (hrun : runSteps (serve fk) ⟨Db.empty, none⟩ history = some c)
    (hhosts : forall r, r ∈ c.committed.triage.rows -> cursorSep ∉ r.hostID.toList)
    (hclock : WalkClock history between) (statuses : List Status) (limit : Int) :
    ((forall s, s ∈ statuses -> s.isValid = true) ->
      exists steps, walk fk statuses limit between (c.committed.triage.rows.length + 1) 0 "" c =
          some (.ok steps) ∧ WalkOutcome statuses limit c.committed steps) ∧
      forall s, s ∈ statuses -> s.isValid = false ->
        exists bad, walk fk statuses limit between 1 0 "" c =
          some (.error (.invalidStatus bad)) := by
  constructor
  · intro hvalid
    have hserved := served_rows hrun
    have hstamped : forall r, r ∈ c.committed.triage.rows ->
        exists t, t ∈ readings history ∧ r.updatedAt = formatTS t := by
      intro r hr
      rcases hserved.right r hr with hnone | hstamp
      · cases hnone
      · exact hstamp
    have hrange : forall t, t ∈ readings history -> Time.InRange t := by
      intro t ht
      apply hclock.inRange 0 t
      rw [readings_append]
      exact List.mem_append.mpr (Or.inl ht)
    have hstate : WalkState history between 0 c none := by
      refine ⟨hserved.left, ?_, fun r hr _ => hhosts r hr⟩
      intro r hr
      rcases hstamped r hr with ⟨t, ht, htext⟩
      refine ⟨t, ?_, htext⟩
      rw [readings_append]
      exact List.mem_append.mpr (Or.inl ht)
    have hfuel : (Keyset.remaining SqlRow.position (wanted statuses limit "") none
        c.committed.triage.rows).length < c.committed.triage.rows.length + 1 :=
      Nat.lt_succ_of_le (List.length_filter_le _ _)
    rcases walk_isWalk fk hvalid hclock hstate CursorFor.first hfuel with
      ⟨steps, raw, hwalk, hkeyset, hsteps⟩
    refine ⟨steps, hwalk, walkOutcome_of_keyset hkeyset hsteps ?_⟩
    intro r hr
    rcases hstamped r hr with ⟨t, ht, htext⟩
    exact ⟨t, hrange t ht, htext⟩
  · intro s hs hinvalid
    exact walk_invalid hs hinvalid fk limit between c

def openEvent (now : Int) (eventID : String) : Served :=
  ⟨.upsert now ⟨"h", eventID, statusOpen, none, false, [123, 125], "ana"⟩, Prog.noFaults⟩

def threeEvents : List Served := [openEvent 1 "a", openEvent 2 "b", openEvent 3 "c"]

/-- Event {lit}`a` is touched after the first page. -/
def touchFirst (n : Nat) : List Served := if n = 0 then [openEvent 4 "a"] else []

theorem callsBefore_touchFirst (n : Nat) :
    callsBefore touchFirst (n + 1) = [openEvent 4 "a"] := by
  induction n with
  | zero => rfl
  | succ n ih =>
      rw [callsBefore_succ, ih]
      rfl

theorem walkClock_touchFirst : WalkClock threeEvents touchFirst where
  inRange := by
    intro n t ht
    have hall : forall t, t ∈ ([1, 2, 3, 4] : List Int) -> Time.InRange t := by decide
    apply hall
    cases n with
    | zero => exact List.mem_append.mpr (Or.inl ht)
    | succ n =>
        rw [callsBefore_touchFirst] at ht
        exact ht
  later := by
    intro n a b ha hb
    have hall : forall a, a ∈ ([1, 2, 3] : List Int) -> a < 4 := by decide
    cases n with
    | zero => cases hb
    | succ n =>
        rw [callsBefore_touchFirst] at hb
        rw [List.mem_singleton.mp hb]
        exact hall a ha
  increasing := by
    intro n
    cases n with
    | zero => exact List.Pairwise.nil
    | succ n =>
        rw [callsBefore_touchFirst]
        exact List.pairwise_singleton _ _

theorem walk_visits_once_touchFirst :
    exists c steps, runSteps (serve true) ⟨Db.empty, none⟩ threeEvents = some c ∧
      walk true [] 1 touchFirst (c.committed.triage.rows.length + 1) 0 "" c =
        some (.ok steps) ∧ WalkOutcome [] 1 c.committed steps := by
  have hrun : exists c, runSteps (serve true) ⟨Db.empty, none⟩ threeEvents = some c ∧
      forall r, r ∈ c.committed.triage.rows -> cursorSep ∉ r.hostID.toList :=
    ⟨_, rfl, by decide⟩
  rcases hrun with ⟨c, hc, hhosts⟩
  rcases (walk_visits_once hc hhosts walkClock_touchFirst [] 1).left (by simp) with
    ⟨steps, hwalk, hout⟩
  exact ⟨c, steps, hc, hwalk, hout⟩

def lateEvents : List Served :=
  [openEvent (Time.ofDate 9999 12 31 0 0 0 0) "c", openEvent (Time.ofDate 10000 1 1 0 0 0 0) "a",
    openEvent (Time.ofDate 10000 1 2 0 0 0 0) "b"]

/-- The text form gives out after the year 9999: the cursor of the page that holds
event {lit}`b` is the zero time, and event {lit}`a` never comes, although nothing was
written during the walk. -/
theorem walk_skips_after_year_9999 :
    exists c steps r, runSteps (serve true) ⟨Db.empty, none⟩ lateEvents = some c ∧
      (readings lateEvents).Pairwise (fun a b => a < b) ∧
      (forall q, q ∈ c.committed.triage.rows -> cursorSep ∉ q.hostID.toList) ∧
      walk true [] 1 (fun _ => []) 4 0 "" c = some (.ok steps) ∧
      r ∈ c.committed.triage.rows ∧ r.status ∈ listStatuses ⟨[], 1, ""⟩ ∧
      (forall s, s ∈ steps -> r ∈ s.db.triage.rows) ∧
      (walkRows steps).count (scanRow r) = 0 := by
  refine ⟨_, _, storedRow (insertedRow (Time.ofDate 10000 1 1 0 0 0 0)
    ⟨"h", "a", statusOpen, none, false, [123, 125], "ana"⟩) (by decide), rfl, by decide,
    by decide, rfl, by decide, by decide, by decide, by decide⟩

end Triage
end LodelineManager
