import LodelineManager.Triage.Paging
import LodelineManager.Triage.PartialUpdate

/-!
# Cursors whose host holds the separator

A cursor joins three texts without escaping them and is split at the first two
separators.  The time never holds one and the event comes last, so only a host can
move the boundaries.  When it does, the cursor stands before its own row and the
listing returns that row again.
-/

namespace LodelineManager
namespace Triage

open Foundation SingleConnection Go

/-!
## The round trip
-/

theorem lt_append_cons (front : List Char) (c : Char) (back : List Char) :
    front < front ++ c :: back := by
  have h : front ++ [] < front ++ c :: back := List.append_left_lt (List.nil_lt_cons c back)
  rw [List.append_nil] at h
  exact h

theorem decodeCursor_of_mem {t : Int} {host : String} (ht : Time.InRange t)
    (hmem : cursorSep ∈ host.toList) (event : String) :
    exists host' event', decodeCursor (encodeCursor t host event) = .ok (t, host', event') ∧
      host' < host := by
  rcases List.eq_append_cons_of_mem hmem with ⟨front, back, hhost, hfront⟩
  have hts : cursorSep ∉ formatUTC t := not_mem_formatUTC ht (by decide) (by decide)
  refine ⟨String.ofList front, String.ofList (back ++ cursorSep :: event.toList), ?_, ?_⟩
  · unfold decodeCursor
    rw [encodeCursor_toList, cutAt_append hts, hhost, List.append_assoc, List.cons_append]
    simp only [cutAt_append hfront, parseTime_formatUTC ht]
  · rw [String.lt_iff_toList_lt, String.toList_ofList, hhost]
    exact lt_append_cons front cursorSep back

theorem decodeCursor_encodeCursor_iff {t : Int} (ht : Time.InRange t) (host event : String) :
    decodeCursor (encodeCursor t host event) = .ok (t, host, event) <->
      cursorSep ∉ host.toList := by
  constructor
  · intro h hmem
    rcases decodeCursor_of_mem ht hmem event with ⟨host', event', hdecode, hlt⟩
    rw [hdecode] at h
    have heq : host' = host := congrArg (fun p => p.2.1) (Except.ok.inj h)
    rw [heq] at hlt
    exact lt_irrefl host hlt
  · exact decodeCursor_encodeCursor ht

/-!
## Listings
-/

theorem requestPage_cases (fk : Bool) (statuses : List Status) (limit : Int) (cursor : String)
    (d : Db) :
    (exists e, requestPage fk statuses limit cursor d = .error e) ∨
      exists c, listCursor ⟨statuses, limit, cursor⟩ = .ok c ∧
        (listStatuses ⟨statuses, limit, cursor⟩).find? (fun s => !s.isValid) = none := by
  unfold requestPage listByStatus
  cases hstatus : (listStatuses ⟨statuses, limit, cursor⟩).find? (fun s => !s.isValid) with
  | some s => exact Or.inl ⟨_, rfl⟩
  | none =>
      cases hcursor : listCursor ⟨statuses, limit, cursor⟩ with
      | error e => exact Or.inl ⟨_, rfl⟩
      | ok c => exact Or.inr ⟨c, rfl, rfl⟩

theorem requestPage_ok {fk : Bool} {statuses : List Status} {limit : Int} {cursor : String}
    {d : Db} {res : ListResult} (h : requestPage fk statuses limit cursor d = .ok res) :
    exists c, listCursor ⟨statuses, limit, cursor⟩ = .ok c ∧
      (listStatuses ⟨statuses, limit, cursor⟩).find? (fun s => !s.isValid) = none ∧
      res.rows = ((foundRows statuses limit cursor c d).take (clampLimit limit)).map scanRow ∧
      (res.nextCursor ≠ "" -> exists r, r ∈ foundRows statuses limit cursor c d ∧
        res.rows.getLast? = some (scanRow r) ∧
        res.nextCursor = encodeCursor (parseTS r.updatedAt) r.hostID r.eventID) := by
  rcases requestPage_cases fk statuses limit cursor d with ⟨e, he⟩ | ⟨c, hcursor, hstatus⟩
  · rw [he] at h
    cases h
  · rw [requestPage_eq fk d hcursor hstatus, listPage_take] at h
    have hres := Except.ok.inj h
    refine ⟨c, hcursor, hstatus, by rw [<- hres], ?_⟩
    intro hnext
    rw [<- hres] at hnext ⊢
    by_cases hlong : (foundRows statuses limit cursor c d).length > clampLimit limit
    · simp only [if_pos hlong] at hnext ⊢
      cases hlast : ((foundRows statuses limit cursor c d).take (clampLimit limit)).getLast? with
      | none =>
          rw [hlast] at hnext
          exact absurd rfl hnext
      | some r =>
          refine ⟨r, List.mem_of_mem_take (List.mem_of_getLast? hlast), ?_, rfl⟩
          rw [List.getLast?_map, hlast]
          rfl
    · simp only [if_neg hlong] at hnext
      exact absurd rfl hnext

/-- Every listing that is given the cursor, now or later, returns rows behind a position
only. -/
def ResumesAfter (fk : Bool) (cursor : String) (p : Position) : Prop :=
  forall d statuses limit res, requestPage fk statuses limit cursor d = .ok res ->
    forall row, row ∈ res.rows -> exists r, r ∈ d.triage.rows ∧ row = scanRow r ∧ p < r.position

theorem listCursor_encodeCursor {statuses : List Status} {limit : Int} {t : Int}
    {host event : String} {out : Int × String × String}
    (h : decodeCursor (encodeCursor t host event) = .ok out) :
    listCursor ⟨statuses, limit, encodeCursor t host event⟩ =
      .ok (some (formatTS out.1, out.2.1, out.2.2)) := by
  unfold listCursor
  simp only [if_neg (encodeCursor_ne_empty t host event), h]

theorem resumesAfter_of_not_mem {t : Int} {host event : String} (fk : Bool)
    (ht : Time.InRange t) (hhost : cursorSep ∉ host.toList) :
    ResumesAfter fk (encodeCursor t host event) (position (formatTS t) host event) := by
  intro d statuses limit res hres row hrow
  rcases requestPage_ok hres with ⟨c, hcursor, _, hrows, _⟩
  rw [listCursor_encodeCursor (decodeCursor_encodeCursor ht hhost)] at hcursor
  cases hcursor
  rw [hrows] at hrow
  rcases List.mem_map.mp hrow with ⟨r, hr, hscan⟩
  have hfound := mem_foundRows.mp (List.mem_of_mem_take hr)
  exact ⟨r, hfound.left, hscan.symm, afterCursor_iff.mp hfound.right.right⟩

theorem not_resumesAfter_of_mem {fk : Bool} {d : Db} {statuses : List Status} {limit : Int}
    {cursor : String} {res : ListResult} {r : SqlRow} {t : Int}
    (ht : Time.InRange t) (hres : requestPage fk statuses limit cursor d = .ok res)
    (hr : r ∈ d.triage.rows) (hwanted : r.status ∈ listStatuses ⟨statuses, limit, cursor⟩)
    (hstamp : r.updatedAt = formatTS t) (hmem : cursorSep ∈ r.hostID.toList) :
    ¬ ResumesAfter fk (encodeCursor t r.hostID r.eventID) r.position := by
  intro hresumes
  rcases requestPage_ok hres with ⟨_, _, hstatus, _, _⟩
  rcases decodeCursor_of_mem ht hmem r.eventID with ⟨host', event', hdecode, hlt⟩
  have hcursor := @listCursor_encodeCursor statuses limit _ _ _ _ hdecode
  have hagain := requestPage_eq fk d hcursor hstatus
  have hfound : r ∈ foundRows statuses limit (encodeCursor t r.hostID r.eventID)
      (some (formatTS t, host', event')) d := by
    refine mem_foundRows.mpr ⟨hr, hwanted, afterCursor_iff.mpr ?_⟩
    unfold SqlRow.position
    rw [hstamp, position_lt_iff]
    exact Or.inr ⟨rfl, Or.inl hlt⟩
  have hsorted := foundRows_sorted statuses limit (encodeCursor t r.hostID r.eventID)
    (some (formatTS t, host', event')) d
  have hmemFound : forall r', r' ∈ foundRows statuses limit (encodeCursor t r.hostID r.eventID)
      (some (formatTS t, host', event')) d -> r' ∈ d.triage.rows :=
    fun r' hr' => (mem_foundRows.mp hr').left
  rcases requestPage_ok hagain with ⟨c, hcursor', _, hrows, _⟩
  rw [hcursor] at hcursor'
  cases hcursor'
  generalize foundRows statuses limit (encodeCursor t r.hostID r.eventID)
    (some (formatTS t, host', event')) d = found at hfound hsorted hmemFound hagain hrows
  cases found with
  | nil => cases hfound
  | cons head rest =>
      have hhead : scanRow head ∈ (listPage (clampLimit limit)
          (((head :: rest).take (clampLimit limit + 1)).map scanRow)).rows := by
        rw [hrows]
        apply List.mem_map_of_mem
        cases hlimit : clampLimit limit with
        | zero => exact absurd (clampLimit_pos limit) (by omega)
        | succ n => exact List.mem_cons_self
      rcases hresumes d statuses limit _ hagain _ hhead with ⟨r', hr', hscan, hafter⟩
      have hkey : r'.key = head.key := by
        have hhost := congrArg Row.hostID hscan
        have hevent := congrArg Row.eventID hscan
        exact Prod.ext hhost.symm hevent.symm
      have hsame : r' = head :=
        KeyedTable.eq_of_mem_of_key hr' (hmemFound head List.mem_cons_self) hkey
      rw [hsame] at hafter
      rcases List.mem_cons.mp hfound with heq | hrest
      · rw [heq] at hafter
        exact lt_irrefl _ hafter
      · exact lt_asymm hafter ((List.pairwise_cons.mp hsorted).left r hrest)

/-- A cursor gives back the parts it was made of, and a listing that is given it resumes
strictly after its row, exactly when the host of the row does not hold the separator. -/
theorem cursor_resumes_iff (fk : Bool) {t : Int} (ht : Time.InRange t) (host event : String) :
    (decodeCursor (encodeCursor t host event) = .ok (t, host, event) <->
        cursorSep ∉ host.toList) ∧
      forall d statuses limit cursor res r,
        requestPage fk statuses limit cursor d = .ok res -> res.nextCursor ≠ "" ->
        r ∈ d.triage.rows -> res.rows.getLast? = some (scanRow r) ->
        r.key = (host, event) -> r.updatedAt = formatTS t ->
        (ResumesAfter fk res.nextCursor r.position <-> cursorSep ∉ host.toList) := by
  refine ⟨decodeCursor_encodeCursor_iff ht host event, ?_⟩
  intro d statuses limit cursor res r hres hnext hr hlast hkey hstamp
  rcases requestPage_ok hres with ⟨c, _, _, _, hissued⟩
  rcases hissued hnext with ⟨r', hfound, hlast', hcursor⟩
  have hsame : r' = r := by
    have hscan : scanRow r' = scanRow r := Option.some.inj (hlast'.symm.trans hlast)
    have hkey' : r'.key = r.key :=
      Prod.ext (congrArg Row.hostID hscan) (congrArg Row.eventID hscan)
    exact KeyedTable.eq_of_mem_of_key (mem_foundRows.mp hfound).left hr hkey'
  rw [hsame, hstamp, parseTS_formatTS ht] at hcursor
  have hhost : r.hostID = host := congrArg Prod.fst hkey
  have hevent : r.eventID = event := congrArg Prod.snd hkey
  rw [hcursor]
  constructor
  · intro hresumes hmem
    have hwanted := (mem_foundRows.mp (hsame ▸ hfound)).right.left
    exact not_resumesAfter_of_mem ht hres hr hwanted hstamp (hhost ▸ hmem) hresumes
  · intro hmem
    have hresumes := @resumesAfter_of_not_mem t r.hostID r.eventID fk ht (hhost ▸ hmem)
    unfold SqlRow.position
    rw [hstamp]
    exact hresumes

/-- The cursor of an alert of a plain host, and one whose event holds separators. -/
theorem cursor_resumes_plain :
    decodeCursor (encodeCursor 5 "h1" "a|b|") = .ok (5, "h1", "a|b|") := by
  exact (@cursor_resumes_iff true 5 (by decide) "h1" "a|b|").left.mpr (by decide)

/-- Two alerts, the newer one of the host {lit}`a|b`: with a limit of 1 the second page is
the first one again, cursor and all. -/
theorem cursor_repeats_row :
    let alert (host : String) : UpsertInput :=
      { hostID := host, eventID := "e", status := noStatus, assignee := none,
        clearAssignee := false, evidenceSnapshot := [123, 125], actor := "ana" }
    let d := afterUpsert true 2 (alert "a|b") (afterUpsert true 1 (alert "c") Db.empty)
    let cursor := encodeCursor 2 "a|b" "e"
    let page : ListResult :=
      { rows := [{ hostID := "a|b", eventID := "e", status := statusOpen, assignee := none,
                   evidenceSnapshot := [123, 125], createdAt := 2, updatedAt := 2 }],
        nextCursor := cursor }
    requestPage true [] 1 "" d = .ok page ∧ requestPage true [] 1 cursor d = .ok page ∧
      decodeCursor cursor = .ok (2, "a", "b|e") := by
  intro alert d cursor page
  exact ⟨by decide +kernel, by decide +kernel, by decide +kernel⟩

end Triage
end LodelineManager
