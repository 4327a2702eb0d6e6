import LodelineManager.Web.Dates
import LodelineManager.Web.EventListings

/-!
# The filter of the queue

The filter of the queue lives in the address of the page.  Every choice in the row above the
queue is written into the address, read back from there, and shapes the next requests.  The
module follows choices through the address to the query that the server is sent.
-/

namespace LodelineManager
namespace Web

open Foundation Go JSON Triage Fleet Api BuildQuery

/-!
## Ranges of time
-/

inductive TimeRange where
  | all
  | day
  | week
  deriving DecidableEq

def hourMs : Int := 60 * 60 * 1000

def TimeRange.offset : TimeRange -> Int
  | .all => 0
  | .day => 24 * hourMs
  | .week => 7 * 24 * hourMs

/-- {lit}`rangeToSince` at a reading of the clock; {lit}`toISOString` may throw. -/
def rangeToSince (now : Int) : TimeRange -> Option (Option String)
  | .all => some none
  | r => (toISOString (now - r.offset)).map some

def sinceToRange (other : String -> Option Int) (now : Int) (since : String) : TimeRange :=
  match dateParse other since with
  | none => .all
  | some sinceMs => if now - sinceMs <= 36 * hourMs then .day else .week

def currentRange (other : String -> Option Int) (now : Int) : Option String -> TimeRange
  | none => .all
  | some since => sinceToRange other now since

/-!
## The address
-/

/-- {lit}`Record<string, unknown>` without the keys that are undefined. -/
abbrev RawRecord := String -> Option Value

structure AlertsSearch where
  minBucket : Option GuardBucket
  triageStatuses : Option (List Status)
  since : Option String
  query : Option String
  alert : Option String
  sort : Option SortMode

def GuardBucket.named (text : String) : Option GuardBucket :=
  [GuardBucket.low, .medium, .high, .critical].find? (fun b => decide (b.text = text))

def SortMode.text : SortMode -> String
  | .severityDesc => "severity_desc"
  | .ageDesc => "age_desc"
  | .ageAsc => "age_asc"

def SortMode.named (text : String) : Option SortMode :=
  [SortMode.severityDesc, .ageDesc, .ageAsc].find? (fun m => decide (m.text = text))

def filled (text : Option String) : Option String := text.filter (fun s => decide (s ≠ ""))

def rawStatuses : Option Value -> List String
  | some (.array vs) => vs.filterMap asText
  | some (.string u) =>
      ((String.ofList (Utf16.decode u)).toList.splitOn ',').map String.ofList
  | _ => []

namespace AlertsSearch

def validateSearch (raw : RawRecord) : AlertsSearch :=
  let triageStatuses :=
    ((rawStatuses (raw "triageStatuses")).map Status.mk).filter Status.isValid
  { minBucket := ((raw "minBucket").bind asText).bind GuardBucket.named
    triageStatuses := if triageStatuses = [] then none else some triageStatuses
    since := filled ((raw "since").bind asText)
    query := filled ((raw "query").bind asText)
    alert := filled ((raw "alert").bind asText)
    sort := ((raw "sort").bind asText).bind SortMode.named }

def toRaw (s : AlertsSearch) : RawRecord
  | "minBucket" => s.minBucket.map (fun b => ofText b.text)
  | "triageStatuses" =>
      s.triageStatuses.map (fun statuses => .array (statuses.map (fun x => ofText x.text)))
  | "since" => s.since.map ofText
  | "query" => s.query.map ofText
  | "alert" => s.alert.map ofText
  | "sort" => s.sort.map (fun m => ofText m.text)
  | _ => none

/-- {lit}`setSearch`: the keys of {lit}`next` go over those of the search. -/
def setSearch (s : AlertsSearch) (next : List (String × Option Value)) : AlertsSearch :=
  validateSearch (next.foldl (fun raw n => Function.update raw n.1 n.2) s.toRaw)

/-!
## The filter
-/

def minBucketOr (s : AlertsSearch) : GuardBucket := s.minBucket.getD .high

def filter (s : AlertsSearch) : AlertFilter :=
  { triageStatuses := s.triageStatuses.getD [], query := s.query.getD "" }

def view (s : AlertsSearch) (definition : Option AlertsDefinition) : EventsView :=
  .alerts definition s.minBucketOr s.since s.filter

end AlertsSearch

/-- The row of the filter, and what else goes into the address. -/
inductive FilterLabel where
  | opened (raw : RawRecord)
  | minBucket (bucket : GuardBucket)
  | status (status : Status)
  | range (now : Int) (range : TimeRange)
  | query (text : String)
  | reset
  | select (id : String)
  | close
  | sortBy (mode : SortMode)

/-- {lit}`onClick` of the chip of a status. -/
def toggled (statuses : List Status) (status : Status) : List Status :=
  if status ∈ statuses then statuses.filter (fun x => decide (x ≠ status))
  else statuses ++ [status]

/-- A choice, or another address; a range that throws and a status without a chip are not
chosen. -/
def AlertsSearch.step (s : AlertsSearch) : FilterLabel -> Option AlertsSearch
  | .opened raw => some (validateSearch raw)
  | .minBucket bucket => some (s.setSearch [("minBucket", some (ofText bucket.text))])
  | .status status =>
      if status ∈ allStatuses then
        some (s.setSearch [("triageStatuses",
          some (.array ((toggled s.filter.triageStatuses status).map (fun x => ofText x.text))))])
      else none
  | .range now range =>
      (rangeToSince now range).map (fun since =>
        s.setSearch [("since", some (ofOptionalText since))])
  | .query text => some (s.setSearch [("query", some (ofText text))])
  | .reset =>
      some (s.setSearch [("minBucket", none), ("triageStatuses", none), ("since", none),
        ("query", none)])
  | .select id => some (s.setSearch [("alert", some (ofText id))])
  | .close => some (s.setSearch [("alert", none)])
  | .sortBy mode => some (s.setSearch [("sort", some (ofText mode.text))])

/-!
## What the row shows
-/

/-- The chips and texts of the row, and the rest of the address. -/
structure Shown where
  minBucket : GuardBucket
  on : Status -> Bool
  since : Option String
  query : String
  alert : Option String
  sort : Option SortMode

def AlertsSearch.shown (s : AlertsSearch) : Shown :=
  { minBucket := s.minBucketOr, on := fun x => decide (x ∈ s.filter.triageStatuses)
    since := s.since, query := s.filter.query, alert := s.alert, sort := s.sort }

/-- What a choice should change: its own part and nothing else. -/
def Shown.after (shown : Shown) : FilterLabel -> Shown
  | .opened raw => (AlertsSearch.validateSearch raw).shown
  | .minBucket bucket => { shown with minBucket := bucket }
  | .status status =>
      { shown with on := fun x => if x = status then !shown.on x else shown.on x }
  | .range now range => { shown with since := (rangeToSince now range).join }
  | .query text => { shown with query := text }
  | .reset =>
      { shown with minBucket := .high, on := fun _ => false, since := none, query := "" }
  | .select id => { shown with alert := filled (some id) }
  | .close => { shown with alert := none }
  | .sortBy mode => { shown with sort := some mode }

/-- What a search read from an address is like. -/
structure AlertsSearch.Normal (s : AlertsSearch) : Prop where
  triageStatuses : s.triageStatuses ≠ some []
  valid : forall statuses, s.triageStatuses = some statuses ->
    forall x, x ∈ statuses -> x.isValid = true
  since : s.since ≠ some ""
  query : s.query ≠ some ""
  alert : s.alert ≠ some ""

section

variable {s s' : AlertsSearch}

theorem filled_eq {text : Option String} (h : text ≠ some "") : filled text = text := by
  cases text with
  | none => rfl
  | some t =>
      have ht : t ≠ "" := fun heq => h (congrArg some heq)
      unfold filled
      rw [Option.filter_some, if_pos (decide_eq_true ht)]

theorem filled_ne (text : Option String) : filled text ≠ some "" := by
  intro h
  have hne := (Option.filter_eq_some_iff.mp h).right
  exact absurd rfl (of_decide_eq_true hne)

theorem GuardBucket.named_text (b : GuardBucket) : GuardBucket.named b.text = some b := by
  cases b <;> rfl

theorem SortMode.named_text (m : SortMode) : SortMode.named m.text = some m := by
  cases m <;> rfl

theorem rawStatuses_array (statuses : List Status) :
    (rawStatuses (some (.array (statuses.map (fun x => ofText x.text))))).map Status.mk =
      statuses := by
  unfold rawStatuses
  simp only
  rw [List.filterMap_map]
  have hall : asText ∘ (fun x : Status => ofText x.text) = fun x => some x.text :=
    funext (fun x => asText_ofText x.text)
  rw [hall, List.filterMap_eq_map', List.map_map]
  exact List.map_id statuses

namespace AlertsSearch

theorem normal_validateSearch (raw : RawRecord) : (validateSearch raw).Normal where
  triageStatuses := by
    unfold validateSearch
    simp only
    split
    · intro hnone
      cases hnone
    · rename_i hne
      intro heq
      exact hne (Option.some.inj heq)
  valid := by
    intro statuses hstatuses x hx
    unfold validateSearch at hstatuses
    simp only at hstatuses
    split at hstatuses
    · cases hstatuses
    · rw [← Option.some.inj hstatuses] at hx
      exact (List.mem_filter.mp hx).right
  since := filled_ne _
  query := filled_ne _
  alert := filled_ne _

theorem toRaw_triageStatuses (h : s.Normal) :
    ((rawStatuses (s.toRaw "triageStatuses")).map Status.mk).filter Status.isValid =
      s.triageStatuses.getD [] := by
  show ((rawStatuses (s.triageStatuses.map _)).map Status.mk).filter Status.isValid = _
  cases hstatuses : s.triageStatuses with
  | none => rfl
  | some statuses =>
      rw [Option.map_some, rawStatuses_array]
      exact List.filter_eq_self.mpr (h.valid statuses hstatuses)

theorem Normal.reads (h : s.Normal) :
    ((s.toRaw "minBucket").bind asText).bind GuardBucket.named = s.minBucket ∧
      filled ((s.toRaw "since").bind asText) = s.since ∧
      filled ((s.toRaw "query").bind asText) = s.query ∧
      filled ((s.toRaw "alert").bind asText) = s.alert ∧
      ((s.toRaw "sort").bind asText).bind SortMode.named = s.sort := by
  have htext : forall text : Option String, (text.map ofText).bind asText = text := by
    intro text
    cases text with
    | none => rfl
    | some t => exact asText_ofText t
  refine ⟨?_, ?_, ?_, ?_, ?_⟩
  · show ((s.minBucket.map (fun b => ofText b.text)).bind asText).bind _ = _
    cases s.minBucket with
    | none => rfl
    | some b =>
        rw [Option.map_some, Option.bind_some, asText_ofText, Option.bind_some]
        exact GuardBucket.named_text b
  · exact (congrArg filled (htext s.since)).trans (filled_eq h.since)
  · exact (congrArg filled (htext s.query)).trans (filled_eq h.query)
  · exact (congrArg filled (htext s.alert)).trans (filled_eq h.alert)
  · show ((s.sort.map (fun m => ofText m.text)).bind asText).bind _ = _
    cases s.sort with
    | none => rfl
    | some m =>
        rw [Option.map_some, Option.bind_some, asText_ofText, Option.bind_some]
        exact SortMode.named_text m

def listed (statuses : List Status) : Option (List Status) :=
  if statuses = [] then none else some statuses

theorem Normal.listed_eq (h : s.Normal) : listed (s.triageStatuses.getD []) = s.triageStatuses := by
  unfold listed
  cases hstatuses : s.triageStatuses with
  | none => rfl
  | some statuses =>
      have hne : statuses ≠ [] := fun heq => h.triageStatuses (hstatuses.trans (congrArg some heq))
      exact if_neg hne

theorem Normal.setSearch_eq (h : s.Normal) :
    (forall v, s.setSearch [("minBucket", v)] =
      { s with minBucket := (v.bind asText).bind GuardBucket.named }) ∧
    (forall v, s.setSearch [("triageStatuses", v)] =
      { s with triageStatuses :=
          listed (((rawStatuses v).map Status.mk).filter Status.isValid) }) ∧
    (forall v, s.setSearch [("since", v)] = { s with since := filled (v.bind asText) }) ∧
    (forall v, s.setSearch [("query", v)] = { s with query := filled (v.bind asText) }) ∧
    (forall v, s.setSearch [("alert", v)] = { s with alert := filled (v.bind asText) }) ∧
    (forall v, s.setSearch [("sort", v)] = { s with sort := (v.bind asText).bind SortMode.named }) ∧
    s.setSearch [("minBucket", none), ("triageStatuses", none), ("since", none),
      ("query", none)] =
        { s with minBucket := none, triageStatuses := none, since := none, query := none } := by
  rcases h.reads with ⟨hbucket, hsince, hquery, halert, hsort⟩
  have hstatuses := toRaw_triageStatuses h
  have hlisted := h.listed_eq
  unfold listed at hlisted
  have hnoStatuses : rawStatuses none = [] := rfl
  have hnoText : filled none = none := rfl
  refine ⟨fun v => ?_, fun v => ?_, fun v => ?_, fun v => ?_, fun v => ?_, fun v => ?_, ?_⟩
  all_goals
    simp [setSearch, validateSearch, listed, hbucket, hsince, hquery, halert, hsort, hstatuses,
      hlisted, hnoStatuses, hnoText]

theorem mem_toggled_self (statuses : List Status) (status : Status) :
    status ∈ toggled statuses status <-> status ∉ statuses := by
  unfold toggled
  by_cases hmem : status ∈ statuses
  · simp [hmem]
  · simp [hmem]

theorem mem_toggled_ne {statuses : List Status} {status x : Status} (h : x ≠ status) :
    x ∈ toggled statuses status <-> x ∈ statuses := by
  unfold toggled
  by_cases hmem : status ∈ statuses
  · simp [hmem, h]
  · simp [hmem, h]

theorem toggled_valid {statuses : List Status} {status : Status}
    (hall : forall x, x ∈ statuses -> x.isValid = true) (hstatus : status ∈ allStatuses) :
    forall x, x ∈ toggled statuses status -> x.isValid = true := by
  intro x hx
  by_cases heq : x = status
  · rw [heq]
    exact (isValid_iff_mem status).mpr hstatus
  · exact hall x ((mem_toggled_ne heq).mp hx)

theorem Normal.filter_valid (h : s.Normal) :
    forall x, x ∈ s.filter.triageStatuses -> x.isValid = true := by
  intro x hx
  have hx' : x ∈ s.triageStatuses.getD [] := hx
  cases hstatuses : s.triageStatuses with
  | none =>
      rw [hstatuses] at hx'
      cases hx'
  | some statuses =>
      rw [hstatuses] at hx'
      exact h.valid statuses hstatuses x hx'

theorem listed_getD (statuses : List Status) : (listed statuses).getD [] = statuses := by
  unfold listed
  split
  · rename_i hnil
    exact hnil.symm
  · rfl

theorem filled_getD (text : String) : (filled (some text)).getD "" = text := by
  unfold filled
  rw [Option.filter_some]
  by_cases htext : text = ""
  · rw [htext]
    rfl
  · rw [if_pos (decide_eq_true htext)]
    rfl

theorem rangeToSince_ne {now : Int} {range : TimeRange} {since : Option String}
    (h : rangeToSince now range = some since) : since ≠ some "" := by
  have hiso : forall ms text, toISOString ms = some text -> text ≠ "" := by
    intro ms text htext hempty
    have hdate := (Option.ite_none_right_eq_some.mp htext).right
    rw [hempty] at hdate
    have hnil : isoText ms = [] := String.ofList_eq_empty_iff.mp (Option.some.inj hdate)
    exact List.append_ne_nil_of_right_ne_nil _ (List.cons_ne_nil _ _) hnil
  cases range with
  | all =>
      cases h
      intro hsome
      cases hsome
  | day =>
      rcases Option.map_eq_some_iff.mp h with ⟨text, htext, heq⟩
      rw [← heq]
      exact fun hsome => hiso _ text htext (Option.some.inj hsome)
  | week =>
      rcases Option.map_eq_some_iff.mp h with ⟨text, htext, heq⟩
      rw [← heq]
      exact fun hsome => hiso _ text htext (Option.some.inj hsome)

theorem shown_step {l : FilterLabel} (h : s.Normal) (hstep : s.step l = some s') :
    s'.Normal ∧ s'.shown = s.shown.after l := by
  rcases h.setSearch_eq with ⟨hbucket, hstatuses, hsince, hquery, halert, hsort, hreset⟩
  cases l with
  | opened raw =>
      cases hstep
      exact ⟨normal_validateSearch raw, rfl⟩
  | minBucket bucket =>
      cases hstep
      refine ⟨normal_validateSearch _, ?_⟩
      rw [hbucket, Option.bind_some, asText_ofText, Option.bind_some, GuardBucket.named_text]
      rfl
  | status status =>
      rcases Option.ite_none_right_eq_some.mp hstep with ⟨hstatus, heq⟩
      cases heq
      refine ⟨normal_validateSearch _, ?_⟩
      rw [hstatuses, rawStatuses_array,
        List.filter_eq_self.mpr (toggled_valid h.filter_valid hstatus)]
      have hon : (fun x => decide (x ∈ (listed (toggled s.filter.triageStatuses status)).getD [])) =
          fun x => if x = status then !s.shown.on x else s.shown.on x := by
        funext x
        rw [listed_getD]
        by_cases hx : x = status
        · rw [if_pos hx, hx, decide_eq_decide.mpr (mem_toggled_self _ _), decide_not]
          rfl
        · rw [if_neg hx]
          exact decide_eq_decide.mpr (mem_toggled_ne hx)
      show Shown.mk _ (fun x => decide (x ∈ (listed _).getD [])) _ _ _ _ = _
      rw [hon]
      rfl
  | range now range =>
      rcases Option.map_eq_some_iff.mp hstep with ⟨since, hrange, heq⟩
      cases heq
      refine ⟨normal_validateSearch _, ?_⟩
      rw [hsince, Option.bind_some, asText_ofOptionalText, filled_eq (rangeToSince_ne hrange)]
      show _ = { s.shown with since := (rangeToSince now range).join }
      rw [hrange]
      rfl
  | query text =>
      cases hstep
      refine ⟨normal_validateSearch _, ?_⟩
      rw [hquery, Option.bind_some, asText_ofText]
      show Shown.mk _ _ _ ((filled (some text)).getD "") _ _ = _
      rw [filled_getD]
      rfl
  | reset =>
      cases hstep
      refine ⟨normal_validateSearch _, ?_⟩
      rw [hreset]
      rfl
  | select id =>
      cases hstep
      refine ⟨normal_validateSearch _, ?_⟩
      rw [halert, Option.bind_some, asText_ofText]
      rfl
  | close =>
      cases hstep
      refine ⟨normal_validateSearch _, ?_⟩
      rw [halert]
      rfl
  | sortBy mode =>
      cases hstep
      refine ⟨normal_validateSearch _, ?_⟩
      rw [hsort, Option.bind_some, asText_ofText, Option.bind_some, SortMode.named_text]
      rfl

end AlertsSearch

theorem shown_run {labels : List FilterLabel} (h : s.Normal)
    (hrun : runSteps AlertsSearch.step s labels = some s') :
    s'.shown = labels.foldl Shown.after s.shown := by
  induction labels generalizing s with
  | nil =>
      cases hrun
      rfl
  | cons l rest ih =>
      rcases runSteps_cons hrun with ⟨mid, hmid, hrest⟩
      have hstep := AlertsSearch.shown_step h hmid
      rw [ih hstep.left hrest, hstep.right]
      rfl

end

/-!
## What the server is asked
-/

theorem ascii_isoText {ms : Int} {c : Char} (hc : c ∈ isoText ms) : c.toNat < 128 := by
  have hpadded : forall width n, (padded width n).all (fun c => decide (c.toNat < 128)) = true := by
    intro width n
    rw [List.all_eq_true]
    intro c hc
    exact decide_eq_true (ascii_of_mem_padded hc)
  have hyear : (isoYear (Time.date (instantOfMs ms)).year).all
      (fun c => decide (c.toNat < 128)) = true := by
    unfold isoYear
    split
    · exact hpadded 4 _
    · rw [List.all_cons, hpadded]
      split <;> rfl
  have hall : (isoText ms).all (fun c => decide (c.toNat < 128)) = true := by
    unfold isoText isoRest
    rw [List.all_append, hyear]
    simp only [List.all_cons, List.all_append, hpadded, Bool.true_and, List.all_nil]
    rfl
  exact of_decide_eq_true (List.all_eq_true.mp hall c hc)

theorem parseBound_toISOString {ms : Int} {text : String} (h : toISOString ms = some text) :
    parseBound (utf8 text) =
      if Time.InRange (instantOfMs ms) then some (instantOfMs ms) else none := by
  have htext : text.toList = isoText ms := by
    have hdate := (Option.ite_none_right_eq_some.mp h).right
    rw [← Option.some.inj hdate, String.toList_ofList]
  have hascii : Ascii text := by
    intro c hc
    rw [htext] at hc
    exact ascii_isoText hc
  have hback : (bytesOf text).text = text :=
    text_bytesOf (fun c hc => Nat.lt_of_lt_of_le (hascii c hc) (by decide))
  have hne : utf8 text ≠ [] := by
    intro hnil
    rw [utf8_ascii hascii] at hnil
    rw [hnil] at hback
    have hempty : isoText ms = [] := by
      rw [← htext, ← hback]
      rfl
    exact List.append_ne_nil_of_right_ne_nil _ (List.cons_ne_nil _ _) hempty
  unfold parseBound
  rw [if_neg hne, utf8_ascii hascii, hback, htext]
  exact parseTime_isoText ms

def TimeRange.bound (now : Int) : TimeRange -> Option Int
  | .all => some zeroTime
  | r =>
      if Time.InRange (instantOfMs (now - r.offset)) then some (instantOfMs (now - r.offset))
      else none

theorem parseBound_range {now : Int} {range : TimeRange} {since : Option String}
    (h : rangeToSince now range = some since) :
    parseBound (utf8 (since.getD "")) = range.bound now := by
  cases range with
  | all =>
      cases h
      rfl
  | day =>
      rcases Option.map_eq_some_iff.mp h with ⟨text, htext, heq⟩
      rw [← heq]
      exact parseBound_toISOString htext
  | week =>
      rcases Option.map_eq_some_iff.mp h with ⟨text, htext, heq⟩
      rw [← heq]
      exact parseBound_toISOString htext

theorem currentRange_range (other : String -> Option Int) {now : Int} {range : TimeRange}
    {since : Option String} (h : rangeToSince now range = some since) (later : Int) :
    currentRange other later since =
      if range = .all then .all
      else if later - now <= 36 * hourMs - range.offset then .day else .week := by
  have hage : forall offset text, toISOString (now - offset) = some text ->
      sinceToRange other later text =
        if later - now <= 36 * hourMs - offset then .day else .week := by
    intro offset text htext
    unfold sinceToRange
    rw [dateParse_toISOString other htext]
    have hiff : later - (now - offset) <= 36 * hourMs <-> later - now <= 36 * hourMs - offset := by
      omega
    simp only [hiff]
  cases range with
  | all =>
      cases h
      rfl
  | day =>
      rcases Option.map_eq_some_iff.mp h with ⟨text, htext, heq⟩
      rw [← heq]
      exact hage _ text htext
  | week =>
      rcases Option.map_eq_some_iff.mp h with ⟨text, htext, heq⟩
      rw [← heq]
      exact hage _ text htext

/-- Choices that leave the range alone. -/
def FilterLabel.KeepsRange : FilterLabel -> Prop
  | .opened _ | .range _ _ | .reset => False
  | _ => True

theorem after_since {labels : List FilterLabel} (h : forall l, l ∈ labels -> l.KeepsRange)
    (shown : Shown) : (labels.foldl Shown.after shown).since = shown.since := by
  induction labels generalizing shown with
  | nil => rfl
  | cons l rest ih =>
      have hl := h l List.mem_cons_self
      rw [List.foldl_cons, ih (fun x hx => h x (List.mem_cons_of_mem _ hx))]
      cases l with
      | opened _ => exact hl.elim
      | range _ _ => exact hl.elim
      | reset => exact hl.elim
      | _ => rfl

/-- Whatever is chosen, from any address on, changes its own part of the row and nothing else;
a chosen range is what the server is asked from, to the millisecond, and its chip stays active
until its age is closer to that of the other one. -/
theorem filter_row_chosen (other : String -> Option Int) (raw : RawRecord)
    (labels : List FilterLabel) (s : AlertsSearch)
    (hrun : runSteps AlertsSearch.step (AlertsSearch.validateSearch raw) labels = some s) :
    s.shown = labels.foldl Shown.after (AlertsSearch.validateSearch raw).shown ∧
    forall front now range rest, labels = front ++ .range now range :: rest ->
      (forall l, l ∈ rest -> l.KeepsRange) ->
      (forall definition cursor, exists kinds,
        parseEventsParams ((s.view definition).request cursor) =
          (match range.bound now with
          | none => .error "since must be RFC3339"
          | some since =>
              .ok
                { cursor := utf8 (cursor.getD ""), limit := 100, hostIDs := [], since := since
                  until_ := zeroTime, evidenceKinds := kinds, severity := [], source := []
                  minAiGuardBucket := utf8 s.shown.minBucket.text }) ∧
        (kinds = (evidenceKindsOf definition).map utf8 <->
          forall kind, kind ∈ evidenceKindsOf definition -> IsEntry (utf8 kind))) ∧
      forall later, currentRange other later s.since = range <->
        match range with
        | .all => True
        | .day => later - now <= 12 * hourMs
        | .week => -132 * hourMs < later - now := by
  have hnormal := AlertsSearch.normal_validateSearch raw
  have hshown := shown_run hnormal hrun
  refine ⟨hshown, ?_⟩
  intro front now range rest hlabels hrest
  rw [hlabels] at hrun hshown
  rcases runSteps_split hrun with ⟨before, after, _, hstep, _⟩
  rcases Option.map_eq_some_iff.mp hstep with ⟨since, hrange, _⟩
  have hsince : s.since = since := by
    have hlast : s.shown.since = (rangeToSince now range).join := by
      rw [hshown, List.foldl_append, List.foldl_cons, after_since hrest]
      rfl
    rw [hrange] at hlast
    exact hlast
  constructor
  · intro definition cursor
    rcases (s.view definition).read_request cursor with ⟨hosts, kinds, hread, hhosts, hkinds⟩
    have hnone : hosts = [] := hhosts.mpr (fun _ hhost => absurd hhost List.not_mem_nil)
    refine ⟨kinds, hread.trans ?_, hkinds⟩
    unfold EventsView.asked
    have hbound : parseBound (utf8 (((s.view definition).params.since).getD "")) =
        range.bound now := by
      rw [← parseBound_range hrange, ← hsince]
      rfl
    rw [hbound, hnone]
    rfl
  · intro later
    rw [hsince, currentRange_range other hrange]
    cases range with
    | all => exact iff_of_true rfl trivial
    | day =>
        have hoffset : 36 * hourMs - TimeRange.day.offset = 12 * hourMs := by decide
        simp only [reduceCtorEq, if_false, hoffset]
        split <;> simp [*]
    | week =>
        have hoffset : 36 * hourMs - TimeRange.week.offset = -132 * hourMs := by decide
        simp only [reduceCtorEq, if_false, hoffset]
        split <;> simp [*] <;> omega

def criticalDay : List FilterLabel := [.range 1767225600000 .day, .minBucket .critical]

theorem filter_row_chosen_criticalDay :
    exists s, runSteps AlertsSearch.step (AlertsSearch.validateSearch fun _ => none) criticalDay =
        some s ∧ s.shown.minBucket = .critical ∧
      (exists kinds, parseEventsParams ((s.view none).request none) =
        .ok
          { cursor := [], limit := 100, hostIDs := [], since := instantOfMs 1767139200000
            until_ := zeroTime, evidenceKinds := kinds, severity := [], source := []
            minAiGuardBucket := utf8 "critical" }) ∧
      currentRange (fun _ => none) (1767225600000 + 12 * hourMs) s.since = .day := by
  have hsome : (runSteps AlertsSearch.step (AlertsSearch.validateSearch fun _ => none)
      criticalDay).isSome = true := by decide +kernel
  rcases Option.isSome_iff_exists.mp hsome with ⟨s, hs⟩
  have hkept : forall l, l ∈ [FilterLabel.minBucket .critical] -> l.KeepsRange := by
    intro l hl
    rw [List.mem_singleton.mp hl]
    trivial
  rcases filter_row_chosen (fun _ => none) _ criticalDay s hs with ⟨hshown, hranges⟩
  rcases hranges [] 1767225600000 .day _ rfl hkept with ⟨hasked, hchip⟩
  rcases hasked none none with ⟨kinds, hread, _⟩
  have hbucket : s.shown.minBucket = .critical := by
    rw [hshown]
    rfl
  have hbound : TimeRange.day.bound 1767225600000 = some (instantOfMs 1767139200000) := by
    decide +kernel
  rw [hbound, hbucket] at hread
  exact ⟨s, hs, hbucket, ⟨kinds, hread⟩, (hchip _).mpr (by decide)⟩

end Web
end LodelineManager
