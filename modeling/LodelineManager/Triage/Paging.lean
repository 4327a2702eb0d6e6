import LodelineManager.Foundation.Keyset
import LodelineManager.Triage.Exec
import Mathlib.Data.Prod.Lex
import Mathlib.Data.String.Basic

/-!
# Walking the triage list

{lit}`ListByStatus` orders rows by text columns and resumes after a text cursor.  As
long as clock readings stay in the years that the text form can write, text order
is the order of instants and the cursor round trip is exact, so a listing is
keyset pagination on the position of a row.
-/

namespace LodelineManager
namespace Triage

open Foundation SingleConnection Go

/-!
## Positions
-/

abbrev Position := Lex (OrderDual String × Lex (String × String))

def position (updatedAt hostID eventID : String) : Position :=
  toLex (OrderDual.toDual updatedAt, toLex (hostID, eventID))

def SqlRow.position (r : SqlRow) : Position := Triage.position r.updatedAt r.hostID r.eventID

theorem position_le_iff {t1 h1 e1 t2 h2 e2 : String} :
    position t1 h1 e1 <= position t2 h2 e2 <->
      t2 < t1 ∨ t1 = t2 ∧ (h1 < h2 ∨ h1 = h2 ∧ e1 <= e2) := by
  unfold position
  rw [Prod.Lex.toLex_le_toLex, Prod.Lex.toLex_le_toLex, OrderDual.toDual_lt_toDual]
  simp only [EmbeddingLike.apply_eq_iff_eq]

theorem position_lt_iff {t1 h1 e1 t2 h2 e2 : String} :
    position t1 h1 e1 < position t2 h2 e2 <->
      t2 < t1 ∨ t1 = t2 ∧ (h1 < h2 ∨ h1 = h2 ∧ e1 < e2) := by
  unfold position
  rw [Prod.Lex.toLex_lt_toLex, Prod.Lex.toLex_lt_toLex, OrderDual.toDual_lt_toDual]
  simp only [EmbeddingLike.apply_eq_iff_eq]

theorem listOrder_iff {a b : SqlRow} : listOrder a b <-> a.position <= b.position :=
  position_le_iff.symm

theorem afterCursor_iff {t h e : String} {r : SqlRow} :
    afterCursor (t, h, e) r = true <-> position t h e < r.position := by
  unfold SqlRow.position
  rw [position_lt_iff]
  simp only [afterCursor, Bool.or_eq_true, Bool.and_eq_true, decide_eq_true_eq]
  constructor
  · intro hr
    rcases hr with hlt | ⟨heq, hkey⟩
    · exact Or.inl hlt
    · refine Or.inr ⟨heq.symm, ?_⟩
      rcases hkey with hhost | ⟨hhost, hevent⟩
      · exact Or.inl hhost
      · exact Or.inr ⟨hhost.symm, hevent⟩
  · intro hr
    rcases hr with hlt | ⟨heq, hkey⟩
    · exact Or.inl hlt
    · refine Or.inr ⟨heq.symm, ?_⟩
      rcases hkey with hhost | ⟨hhost, hevent⟩
      · exact Or.inl hhost
      · exact Or.inr ⟨hhost.symm, hevent⟩

instance : Std.Total listOrder :=
  ⟨fun a b => by
    rw [listOrder_iff, listOrder_iff]
    exact le_total a.position b.position⟩

instance : IsTrans SqlRow listOrder :=
  ⟨fun a b c hab hbc => by
    rw [listOrder_iff] at hab hbc ⊢
    exact le_trans hab hbc⟩

theorem key_eq_of_position_eq {a b : SqlRow} (h : a.position = b.position) : a.key = b.key := by
  have hpair := congrArg Prod.snd (toLex.injective h)
  exact toLex.injective hpair

/-!
## Cursors
-/

theorem cutAt_append {sep : Char} {front back : List Char} (h : sep ∉ front) :
    cutAt sep (front ++ sep :: back) = some (front, back) := by
  induction front with
  | nil =>
      rw [List.nil_append, cutAt, if_pos rfl]
  | cons c front ih =>
      rw [List.mem_cons, not_or] at h
      rw [List.cons_append, cutAt, if_neg (fun heq => h.left heq.symm), ih h.right]

theorem encodeCursor_toList (t : Int) (host event : String) :
    (encodeCursor t host event).toList =
      formatUTC t ++ cursorSep :: (host.toList ++ cursorSep :: event.toList) := by
  unfold encodeCursor formatTS
  simp [cursorSep]

theorem decodeCursor_encodeCursor {t : Int} {host event : String} (ht : Time.InRange t)
    (hhost : cursorSep ∉ host.toList) :
    decodeCursor (encodeCursor t host event) = .ok (t, host, event) := by
  have hts : cursorSep ∉ formatUTC t := not_mem_formatUTC ht (by decide) (by decide)
  unfold decodeCursor
  rw [encodeCursor_toList, cutAt_append hts]
  simp only [cutAt_append hhost, parseTime_formatUTC ht, String.ofList_toList]

theorem encodeCursor_ne_empty (t : Int) (host event : String) :
    encodeCursor t host event ≠ "" := by
  intro h
  have hlist := congrArg String.toList h
  rw [encodeCursor_toList] at hlist
  exact absurd hlist (by simp)

theorem parseTS_formatTS {t : Int} (h : Time.InRange t) : parseTS (formatTS t) = t := by
  unfold parseTS formatTS
  rw [String.toList_ofList, parseTime_formatUTC h]
  rfl

theorem formatTS_lt {a b : Int} (ha : Time.InRange a) (hb : Time.InRange b) (h : a < b) :
    formatTS a < formatTS b := by
  unfold formatTS
  rw [String.lt_iff_toList_lt, String.toList_ofList, String.toList_ofList]
  exact formatUTC_lt ha hb h

/-- The cursor text of a position; the empty text is no cursor. -/
inductive CursorFor : String -> Option Position -> Prop where
  | first : CursorFor "" none
  | after {t : Int} {host event : String} :
      Time.InRange t -> cursorSep ∉ host.toList ->
      CursorFor (encodeCursor t host event) (some (position (formatTS t) host event))

theorem CursorFor.eq_empty_iff {cursor : String} {cur : Option Position}
    (h : CursorFor cursor cur) : cursor = "" <-> cur = none := by
  cases h with
  | first => exact ⟨fun _ => rfl, fun _ => rfl⟩
  | after ht hhost =>
      constructor
      · intro heq
        exact absurd heq (encodeCursor_ne_empty _ _ _)
      · intro heq
        cases heq

theorem CursorFor.listCursor {cursor : String} {cur : Option Position}
    (h : CursorFor cursor cur) (statuses : List Status) (limit : Int) :
    exists c, Triage.listCursor ⟨statuses, limit, cursor⟩ = .ok c ∧
      forall r, cursorClause c r = Keyset.after cur r.position := by
  cases h with
  | first => exact ⟨none, rfl, fun _ => rfl⟩
  | @after t host event ht hhost =>
      refine ⟨some (formatTS t, host, event), ?_, ?_⟩
      · simp only [Triage.listCursor, if_neg (encodeCursor_ne_empty t host event),
          decodeCursor_encodeCursor ht hhost]
      · intro r
        apply Bool.eq_iff_iff.mpr
        rw [Keyset.after_some]
        exact afterCursor_iff

/-!
## One request
-/

def requestPage (fk : Bool) (statuses : List Status) (limit : Int) (cursor : String) (d : Db) :
    Except Err ListResult :=
  ((listByStatus ⟨statuses, limit, cursor⟩).run (engine fk) Prog.noFaults ⟨d, none⟩).1

def wanted (statuses : List Status) (limit : Int) (cursor : String) (r : SqlRow) : Bool :=
  decide (r.status ∈ listStatuses ⟨statuses, limit, cursor⟩)

theorem listStatuses_valid {statuses : List Status}
    (hvalid : forall s, s ∈ statuses -> s.isValid = true) (limit : Int) (cursor : String) :
    (listStatuses ⟨statuses, limit, cursor⟩).find? (fun s => !s.isValid) = none := by
  apply List.find?_eq_none.mpr
  intro s hs
  have hs' : s.isValid = true := by
    unfold listStatuses at hs
    split at hs
    · exact (isValid_iff_mem s).mpr hs
    · exact hvalid s hs
  rw [hs']
  decide

theorem clampLimit_pos (n : Int) : 0 < clampLimit n := by
  unfold clampLimit
  split
  · decide
  · split
    · decide
    · omega

theorem rows_nodup (d : Db) : d.triage.rows.Nodup := List.Nodup.of_map _ d.triage.pk

theorem eq_of_position_eq {d : Db} {a b : SqlRow} (ha : a ∈ d.triage.rows)
    (hb : b ∈ d.triage.rows) (h : a.position = b.position) : a = b :=
  KeyedTable.eq_of_mem_of_key ha hb (key_eq_of_position_eq h)

def foundRows (statuses : List Status) (limit : Int) (cursor : String)
    (c : Option (String × String × String)) (d : Db) : List SqlRow :=
  (d.triage.rows.filter (fun r =>
    decide (r.status ∈ listStatuses ⟨statuses, limit, cursor⟩) && cursorClause c r)).insertionSort
      listOrder

theorem mem_foundRows {statuses : List Status} {limit : Int} {cursor : String}
    {c : Option (String × String × String)} {d : Db} {r : SqlRow} :
    r ∈ foundRows statuses limit cursor c d <->
      r ∈ d.triage.rows ∧ r.status ∈ listStatuses ⟨statuses, limit, cursor⟩ ∧
        cursorClause c r = true := by
  unfold foundRows
  rw [List.mem_insertionSort, List.mem_filter, Bool.and_eq_true, decide_eq_true_eq]

theorem foundRows_sorted (statuses : List Status) (limit : Int) (cursor : String)
    (c : Option (String × String × String)) (d : Db) :
    (foundRows statuses limit cursor c d).Pairwise (fun a b => a.position < b.position) := by
  unfold foundRows
  generalize hmatching : d.triage.rows.filter (fun r =>
    decide (r.status ∈ listStatuses ⟨statuses, limit, cursor⟩) && cursorClause c r) = matching
  have hrows : forall r, r ∈ matching.insertionSort listOrder -> r ∈ d.triage.rows := by
    intro r hr
    rw [List.mem_insertionSort, ← hmatching] at hr
    exact List.mem_of_mem_filter hr
  have hnodup : (matching.insertionSort listOrder).Nodup := by
    rw [(List.perm_insertionSort listOrder matching).nodup_iff, ← hmatching]
    exact (rows_nodup d).filter _
  refine ((List.pairwise_insertionSort listOrder matching).and hnodup).imp_of_mem ?_
  intro a b ha hb hab
  refine lt_of_le_of_ne (listOrder_iff.mp hab.left) ?_
  intro heq
  exact hab.right (eq_of_position_eq (hrows a ha) (hrows b hb) heq)

theorem requestPage_eq {statuses : List Status} {limit : Int} {cursor : String}
    {c : Option (String × String × String)} (fk : Bool) (d : Db)
    (hcursor : listCursor ⟨statuses, limit, cursor⟩ = .ok c)
    (hstatus : (listStatuses ⟨statuses, limit, cursor⟩).find? (fun s => !s.isValid) = none) :
    requestPage fk statuses limit cursor d =
      .ok (listPage (clampLimit limit)
        (((foundRows statuses limit cursor c d).take (clampLimit limit + 1)).map scanRow)) := by
  unfold requestPage listByStatus
  simp only [hstatus, hcursor, Prog.run, Engine.answer, Prog.noFaults_zero, engine, execStmt]
  rfl

/-- A request sorts the rows still to come and cuts them at its limit. -/
theorem requestPage_sorted {statuses : List Status} {cursor : String} {cur : Option Position}
    (hvalid : forall s, s ∈ statuses -> s.isValid = true) (hcur : CursorFor cursor cur)
    (fk : Bool) (limit : Int) (d : Db) :
    exists found : List SqlRow,
      (forall r, r ∈ found <->
        r ∈ Keyset.remaining SqlRow.position (wanted statuses limit "") cur d.triage.rows) ∧
      found.Pairwise (fun a b => a.position < b.position) ∧
      requestPage fk statuses limit cursor d =
        .ok (listPage (clampLimit limit)
          ((found.take (clampLimit limit + 1)).map scanRow)) := by
  rcases hcur.listCursor statuses limit with ⟨c, hc, hclause⟩
  refine ⟨foundRows statuses limit cursor c d, ?_, foundRows_sorted statuses limit cursor c d,
    requestPage_eq fk d hc (listStatuses_valid hvalid limit cursor)⟩
  intro r
  rw [mem_foundRows, Keyset.mem_remaining, hclause]
  exact and_congr_right (fun _ => and_congr_left (fun _ => decide_eq_true_iff.symm))

theorem listPage_take (limit : Nat) (found : List SqlRow) :
    listPage limit ((found.take (limit + 1)).map scanRow) =
      { rows := (found.take limit).map scanRow
        nextCursor :=
          if found.length > limit then
            match (found.take limit).getLast? with
            | none => ""
            | some r => encodeCursor (parseTS r.updatedAt) r.hostID r.eventID
          else "" } := by
  have htake : ((found.take (limit + 1)).map scanRow).take limit =
      (found.take limit).map scanRow := by
    rw [← List.map_take, List.take_take, Nat.min_eq_left (Nat.le_succ limit)]
  unfold listPage
  by_cases hlong : found.length > limit
  · have hlen : ((found.take (limit + 1)).map scanRow).length > limit := by
      rw [List.length_map, List.length_take]
      omega
    rw [if_pos hlen, if_pos hlong]
    simp only [htake, List.getLast?_map]
    cases (found.take limit).getLast? with
    | none => rfl
    | some r => rfl
  · have hlen : ¬ ((found.take (limit + 1)).map scanRow).length > limit := by
      rw [List.length_map, List.length_take]
      omega
    have hall : found.take (limit + 1) = found.take limit := by
      rw [List.take_of_length_le (by omega), List.take_of_length_le (by omega)]
    rw [if_neg hlen, if_neg hlong, hall]

/-- A row that can be the last of a page. -/
structure CursorRow (r : SqlRow) : Prop where
  stamp : exists t, Time.InRange t ∧ r.updatedAt = formatTS t
  host : cursorSep ∉ r.hostID.toList

theorem CursorRow.cursorFor {r : SqlRow} (h : CursorRow r) :
    CursorFor (encodeCursor (parseTS r.updatedAt) r.hostID r.eventID) (some r.position) := by
  rcases h.stamp with ⟨t, ht, htext⟩
  unfold SqlRow.position
  rw [htext, parseTS_formatTS ht]
  exact CursorFor.after ht h.host

theorem requestPage_isPage {statuses : List Status} {cursor : String} {cur : Option Position}
    {d : Db} (hvalid : forall s, s ∈ statuses -> s.isValid = true)
    (hcur : CursorFor cursor cur)
    (hrows : forall r, r ∈ d.triage.rows -> Keyset.after cur r.position = true -> CursorRow r)
    (fk : Bool) (limit : Int) :
    exists rows next cursor', CursorFor cursor' next ∧
      requestPage fk statuses limit cursor d =
        .ok { rows := rows.map scanRow, nextCursor := cursor' } ∧
      Keyset.IsPage SqlRow.position (wanted statuses limit "") d.triage.rows cur rows next := by
  rcases requestPage_sorted hvalid hcur fk limit d with ⟨found, hmem, hsorted, hpage⟩
  rw [listPage_take] at hpage
  have hisPage := Keyset.isPage_of_sorted hmem hsorted (clampLimit_pos limit)
  by_cases hlong : found.length > clampLimit limit
  · have hne : found.take (clampLimit limit) ≠ [] := by
      intro hnil
      have hlen := congrArg List.length hnil
      have hpos := clampLimit_pos limit
      rw [List.length_take, List.length_nil] at hlen
      omega
    have hlast := List.getLast?_eq_getLast_of_ne_nil hne
    have hrow := Keyset.mem_remaining.mp
      ((hmem _).mp (List.mem_of_mem_take (List.getLast_mem hne)))
    rw [if_pos hlong, hlast] at hpage
    refine ⟨_, _, _, (hrows _ hrow.left hrow.right.right).cursorFor, hpage, hisPage _ ?_⟩
    rw [if_pos hlong, hlast]
    rfl
  · rw [if_neg hlong] at hpage
    refine ⟨_, _, _, CursorFor.first, hpage, hisPage none ?_⟩
    rw [if_neg hlong]

end Triage
end LodelineManager
