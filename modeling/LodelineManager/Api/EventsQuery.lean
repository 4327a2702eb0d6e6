import LodelineManager.Fleet.Mock
import LodelineManager.Go.Strings
import LodelineManager.Go.TimeParse

/-!
# The query of the event list

The handler reads a query string into parameters, and the fleet client writes the
parameters into the query that it sends to the server.  Both queries stand for a filter
of events.
-/

namespace LodelineManager
namespace Api

open Foundation Go Fleet

/-!
## Reading the query
-/

def comma : UInt8 := 44

def splitComma (v : ByteString) : List ByteString :=
  if v = [] then []
  else ((v.splitOn comma).map Go.trimSpace).filter (fun p => decide (p ≠ []))

def hostIDs (q : Values) : List ByteString :=
  if 1 < (q.values (bytesOf "host_id")).length then
    (q.values (bytesOf "host_id")).flatMap splitComma
  else splitComma (q.get (bytesOf "host_id"))

def parseLimit (v : ByteString) : Option Int := if v = [] then some 0 else atoi v

def parseBound (v : ByteString) : Option Int :=
  if v = [] then some zeroTime else parseTime v.text.toList

def parseEventsParams (query : ByteString) : Except String EventsParams :=
  let q := parseQuery query
  match parseLimit (q.get (bytesOf "limit")) with
  | none => .error "limit must be an integer"
  | some limit =>
      match parseBound (q.get (bytesOf "since")) with
      | none => .error "since must be RFC3339"
      | some since =>
          match parseBound (q.get (bytesOf "until")) with
          | none => .error "until must be RFC3339"
          | some until_ =>
              .ok
                { cursor := q.get (bytesOf "cursor")
                  limit := limit
                  hostIDs := hostIDs q
                  since := since
                  until_ := until_
                  evidenceKinds := splitComma (q.get (bytesOf "evidence_kind"))
                  severity := splitComma (q.get (bytesOf "severity"))
                  source := splitComma (q.get (bytesOf "source"))
                  minAiGuardBucket := q.get (bytesOf "min_ai_guard_bucket") }

/-!
## What a query stands for
-/

/-- What the filters of an event list look at. -/
structure EventFacts where
  ts : Int
  hostID : ByteString
  kind : ByteString
  severity : ByteString
  source : ByteString
  bucket : ByteString
  deriving DecidableEq

/-- The filter that a query stands for, as the contract states it. -/
structure EventFilter where
  since : Option Int
  until_ : Option Int
  hostIDs : List ByteString
  evidenceKinds : List ByteString
  severity : List ByteString
  source : List ByteString
  minAiGuardBucket : ByteString
  deriving DecidableEq

/-- {lit}`since` is inclusive and {lit}`until` exclusive. -/
def Within (since until_ : Option Int) (t : Int) : Prop :=
  (forall s, since = some s -> s <= t) ∧ forall u, until_ = some u -> t < u

/-- An empty list does not restrict, and the bucket matters for AI-Guard events only. -/
def EventFilter.Admits (f : EventFilter) (e : EventFacts) : Prop :=
  Within f.since f.until_ e.ts ∧ inList f.hostIDs e.hostID = true ∧
    inList f.evidenceKinds e.kind = true ∧ inList f.severity e.severity = true ∧
    inList f.source e.source = true ∧
    (f.minAiGuardBucket = [] ∨ e.kind ≠ bytesOf "ai_guard_risk_assessed" ∨
      bucketAtLeast e.bucket f.minAiGuardBucket = true)

def bound (v : ByteString) : Option (Option Int) :=
  if v = [] then some none else (parseTime v.text.toList).map some

def denote (q : Values) : Option EventFilter :=
  match bound (q.get (bytesOf "since")), bound (q.get (bytesOf "until")) with
  | some since, some until_ =>
      some
        { since := since
          until_ := until_
          hostIDs := (q.values (bytesOf "host_id")).flatMap splitComma
          evidenceKinds := splitComma (q.get (bytesOf "evidence_kind"))
          severity := splitComma (q.get (bytesOf "severity"))
          source := splitComma (q.get (bytesOf "source"))
          minAiGuardBucket := q.get (bytesOf "min_ai_guard_bucket") }
  | _, _ => none

/-- Both queries stand for a filter, and the filters admit the same events. -/
def SameFilter (q q' : Values) : Prop :=
  exists f f', denote q = some f ∧ denote q' = some f' ∧ forall e, f.Admits e <-> f'.Admits e

/-!
## Lists survive
-/

/-- What a list of a query is made of. -/
structure IsEntry (p : ByteString) : Prop where
  trimmed : Trimmed p
  ne_nil : p ≠ []
  no_comma : comma ∉ p

theorem isEntry_of_mem_splitComma {v p : ByteString} (h : p ∈ splitComma v) : IsEntry p := by
  unfold splitComma at h
  split at h
  · cases h
  · rcases List.mem_filter.mp h with ⟨hmem, hne⟩
    rcases List.mem_map.mp hmem with ⟨part, hpart, hp⟩
    constructor
    · rw [← hp]
      exact trimmed_trimSpace part
    · exact of_decide_eq_true hne
    · rw [← hp]
      exact fun hc => not_mem_of_mem_splitOn hpart (mem_of_mem_trimSpace hc)

theorem splitComma_joinComma {parts : List ByteString} (h : forall p, p ∈ parts -> IsEntry p) :
    splitComma (joinComma parts) = parts := by
  cases parts with
  | nil => rfl
  | cons p rest =>
      have hsplit : (joinComma (p :: rest)).splitOn comma = p :: rest :=
        List.splitOn_intercalate comma (fun x hx => (h x hx).no_comma) (List.cons_ne_nil p rest)
      have hne : joinComma (p :: rest) ≠ [] := by
        intro hnil
        rw [hnil] at hsplit
        have hp : p = [] := (List.cons.inj hsplit).left.symm
        exact (h p List.mem_cons_self).ne_nil hp
      have hmap : (p :: rest).map Go.trimSpace = p :: rest := by
        conv_rhs => rw [← List.map_id (p :: rest)]
        exact List.map_congr_left (fun x hx => trimSpace_of_trimmed (h x hx).trimmed)
      unfold splitComma
      rw [if_neg hne, hsplit, hmap]
      apply List.filter_eq_self.mpr
      intro x hx
      exact decide_eq_true (h x hx).ne_nil

/-!
## What is sent
-/

section

variable {q : Values} {key : String} {k : ByteString}

theorem values_setText_ne (value : ByteString) (h : k ≠ bytesOf key) :
    (setText q key value).values k = q.values k := by
  unfold setText
  split
  · rfl
  · rw [Values.values_set, if_neg h]

theorem values_setLimit_ne (limit : Int) (h : k ≠ bytesOf "limit") :
    (setLimit q limit).values k = q.values k := by
  unfold setLimit
  split
  · rw [Values.values_set, if_neg h]
  · rfl

theorem values_setList_ne (parts : List ByteString) (h : k ≠ bytesOf key) :
    (setList q key parts).values k = q.values k := by
  unfold setList
  split
  · rw [Values.values_set, if_neg h]
  · rfl

theorem values_setTime_ne (t : Int) (h : k ≠ bytesOf key) :
    (setTime q key t).values k = q.values k := by
  unfold setTime
  split
  · rfl
  · rw [Values.values_set, if_neg h]

theorem values_setList (parts : List ByteString) :
    (setList q key parts).values (bytesOf key) =
      if parts = [] then q.values (bytesOf key) else [joinComma parts] := by
  unfold setList
  cases parts with
  | nil => rfl
  | cons p rest =>
      have hpos : 0 < (p :: rest).length := Nat.succ_pos _
      rw [if_pos hpos, Values.values_set, if_pos rfl, if_neg (List.cons_ne_nil p rest)]

theorem values_setText (value : ByteString) :
    (setText q key value).values (bytesOf key) =
      if value = [] then q.values (bytesOf key) else [value] := by
  unfold setText
  by_cases hvalue : value = []
  · rw [if_pos hvalue, if_pos hvalue]
  · rw [if_neg hvalue, if_neg hvalue, Values.values_set, if_pos rfl]

theorem values_setTime (t : Int) :
    (setTime q key t).values (bytesOf key) =
      if t = zeroTime then q.values (bytesOf key)
      else [bytesOf (String.ofList (formatRFC3339 t))] := by
  unfold setTime
  by_cases ht : t = zeroTime
  · rw [if_pos ht, if_pos ht]
  · rw [if_neg ht, if_neg ht, Values.values_set, if_pos rfl]

end

/-- The values of each key of the query that is sent. -/
theorem values_buildEventsQuery (p : EventsParams) :
    (buildEventsQuery p).values (bytesOf "host_id") =
      (if p.hostIDs = [] then [] else [joinComma p.hostIDs]) ∧
    (buildEventsQuery p).values (bytesOf "since") =
      (if p.since = zeroTime then [] else [bytesOf (String.ofList (formatRFC3339 p.since))]) ∧
    (buildEventsQuery p).values (bytesOf "until") =
      (if p.until_ = zeroTime then [] else [bytesOf (String.ofList (formatRFC3339 p.until_))]) ∧
    (buildEventsQuery p).values (bytesOf "evidence_kind") =
      (if p.evidenceKinds = [] then [] else [joinComma p.evidenceKinds]) ∧
    (buildEventsQuery p).values (bytesOf "severity") =
      (if p.severity = [] then [] else [joinComma p.severity]) ∧
    (buildEventsQuery p).values (bytesOf "source") =
      (if p.source = [] then [] else [joinComma p.source]) ∧
    (buildEventsQuery p).values (bytesOf "min_ai_guard_bucket") =
      (if p.minAiGuardBucket = [] then [] else [p.minAiGuardBucket]) := by
  unfold buildEventsQuery
  refine ⟨?_, ?_, ?_, ?_, ?_, ?_, ?_⟩
  all_goals
    simp (disch := decide) only [values_setText_ne, values_setLimit_ne, values_setList_ne,
      values_setTime_ne, values_setText, values_setList, values_setTime, Values.values_empty]

def sentBound (t : Int) : Option (Option Int) :=
  if t = zeroTime then some none
  else if Time.InRange t then some (some (Time.toSecond t))
  else none

theorem bound_setTime (t : Int) :
    bound ((if t = zeroTime then []
      else [bytesOf (String.ofList (formatRFC3339 t))] : List ByteString).headD []) =
      sentBound t := by
  unfold sentBound
  by_cases ht : t = zeroTime
  · rw [if_pos ht, if_pos ht]
    rfl
  · rw [if_neg ht, if_neg ht]
    have htext : (bytesOf (String.ofList (formatRFC3339 t))).text.toList = formatRFC3339 t := by
      rw [text_bytesOf, String.toList_ofList]
      intro c hc
      rw [String.toList_ofList] at hc
      exact mem_formatRFC3339 hc
    have hne : bytesOf (String.ofList (formatRFC3339 t)) ≠ [] := by
      intro hnil
      rw [hnil] at htext
      exact formatRFC3339_ne_nil t htext.symm
    rw [List.headD_cons]
    unfold bound
    rw [if_neg hne, htext]
    by_cases hrange : Time.InRange t
    · rw [if_pos hrange, parseTime_formatRFC3339 hrange]
      rfl
    · rw [if_neg hrange, parseTime_formatRFC3339_none hrange]
      rfl

/-- The lists of the parameters are made of entries. -/
structure EntryLists (p : EventsParams) : Prop where
  hostIDs : forall x, x ∈ p.hostIDs -> IsEntry x
  evidenceKinds : forall x, x ∈ p.evidenceKinds -> IsEntry x
  severity : forall x, x ∈ p.severity -> IsEntry x
  source : forall x, x ∈ p.source -> IsEntry x

theorem splitComma_sent {parts : List ByteString} (h : forall p, p ∈ parts -> IsEntry p) :
    splitComma ((if parts = [] then [] else [joinComma parts] : List ByteString).headD []) =
      parts := by
  by_cases hparts : parts = []
  · rw [if_pos hparts, hparts]
    rfl
  · rw [if_neg hparts]
    exact splitComma_joinComma h

theorem denote_sent {p : EventsParams} (h : EntryLists p) :
    denote (parseQuery (buildEventsQuery p).encode) =
      match sentBound p.since, sentBound p.until_ with
      | some since, some until_ =>
          some
            { since := since, until_ := until_, hostIDs := p.hostIDs
              evidenceKinds := p.evidenceKinds, severity := p.severity, source := p.source
              minAiGuardBucket := p.minAiGuardBucket }
      | _, _ => none := by
  rcases values_buildEventsQuery p with ⟨hhost, hsince, huntil, hkind, hseverity, hsource, hmin⟩
  have hhosts : (if p.hostIDs = [] then [] else [joinComma p.hostIDs] :
      List ByteString).flatMap splitComma = p.hostIDs := by
    by_cases hnil : p.hostIDs = []
    · rw [if_pos hnil, hnil]
      rfl
    · rw [if_neg hnil, List.flatMap_singleton]
      exact splitComma_joinComma h.hostIDs
  have hbucket : (if p.minAiGuardBucket = [] then [] else [p.minAiGuardBucket] :
      List ByteString).headD [] = p.minAiGuardBucket := by
    by_cases hnil : p.minAiGuardBucket = []
    · rw [if_pos hnil, hnil]
      rfl
    · rw [if_neg hnil]
      rfl
  unfold denote Values.get
  simp only [Values.parseQuery_encode]
  rw [hhost, hsince, huntil, hkind, hseverity, hsource, hmin, bound_setTime, bound_setTime,
    hhosts, hbucket, splitComma_sent h.evidenceKinds, splitComma_sent h.severity,
    splitComma_sent h.source]

/-!
## Windows of time
-/

/-- The bounds that reach the server as they were given: instants that are written with a
year of four digits and are not the zero time, and that are whole seconds unless the
window is empty. -/
def Conveyed (since until_ : Option Int) : Prop :=
  (forall b, since = some b ∨ until_ = some b -> b ≠ zeroTime ∧ Time.InRange b) ∧
    ((forall b, since = some b ∨ until_ = some b -> Time.toSecond b = b) ∨
      exists s u, since = some s ∧ until_ = some u ∧ u <= s)

theorem within_since {since until_ : Option Int} {s t : Int} (hs : since = some s)
    (h : Within since until_ t) : s <= t := h.left s hs

theorem within_until {since until_ : Option Int} {u t : Int} (hu : until_ = some u)
    (h : Within since until_ t) : t < u := h.right u hu

@[simp] theorem within_none_none (t : Int) : Within none none t <-> True := by
  simp [Within]

@[simp] theorem within_some_none (s t : Int) : Within (some s) none t <-> s <= t := by
  simp [Within]

@[simp] theorem within_none_some (u t : Int) : Within none (some u) t <-> t < u := by
  simp [Within]

@[simp] theorem within_some_some (s u t : Int) :
    Within (some s) (some u) t <-> s <= t ∧ t < u := by
  simp [Within]

theorem exists_within_below (until_ : Option Int) (b : Int) :
    exists t, t < b ∧ Within none until_ t := by
  cases until_ with
  | none => exact ⟨b - 1, by omega, (within_none_none _).mpr trivial⟩
  | some u => exact ⟨min b u - 1, by omega, (within_none_some u _).mpr (by omega)⟩

theorem exists_within_above (since : Option Int) (b : Int) :
    exists t, b <= t ∧ Within since none t := by
  cases since with
  | none => exact ⟨b, Int.le_refl b, (within_none_none _).mpr trivial⟩
  | some s => exact ⟨max b s, by omega, (within_some_none s _).mpr (by omega)⟩

/-- A bound in range that is not the zero time. -/
def Given (b : Int) : Prop := b ≠ zeroTime ∧ Time.InRange b

theorem conveyed_since_iff {s : Int} (hs : Given s) :
    Conveyed (some s) none <-> Time.toSecond s = s := by
  unfold Given at hs
  simp [Conveyed, hs]

theorem conveyed_until_iff {u : Int} (hu : Given u) :
    Conveyed none (some u) <-> Time.toSecond u = u := by
  unfold Given at hu
  simp [Conveyed, hu]

theorem conveyed_both_iff {s u : Int} (hs : Given s) (hu : Given u) :
    Conveyed (some s) (some u) <-> (Time.toSecond s = s ∧ Time.toSecond u = u) ∨ u <= s := by
  unfold Given at hs hu
  simp [Conveyed, hs, hu, or_imp, forall_and]

theorem window_kept_iff (s u : Int) :
    (forall t, (s <= t ∧ t < u) <-> (Time.toSecond s <= t ∧ t < Time.toSecond u)) <->
      (Time.toSecond s = s ∧ Time.toSecond u = u) ∨ u <= s := by
  have hs := Time.toSecond_le s
  have hu := Time.toSecond_le u
  constructor
  · intro h
    by_cases hempty : u <= s
    · exact Or.inr hempty
    · have hfirst := h s
      have hlower := h (Time.toSecond s)
      have hlast := h (u - 1)
      exact Or.inl (by omega)
  · intro h t
    rcases h with ⟨hs', hu'⟩ | hempty
    · rw [hs', hu']
    · have hmono := Time.toSecond_mono hempty
      omega

/-- The window of the query that is sent is the one that was asked for. -/
def WindowSent (since until_ : Option Int) : Prop :=
  exists since' until', sentBound (since.getD zeroTime) = some since' ∧
    sentBound (until_.getD zeroTime) = some until' ∧
    forall t, Within since until_ t <-> Within since' until' t

theorem windowSent_iff_of_sent {since until_ since' until' : Option Int}
    (hs : sentBound (since.getD zeroTime) = some since')
    (hu : sentBound (until_.getD zeroTime) = some until') :
    WindowSent since until_ <-> forall t, Within since until_ t <-> Within since' until' t := by
  constructor
  · intro h
    rcases h with ⟨s, u, hs', hu', hsame⟩
    rw [hs] at hs'
    rw [hu] at hu'
    cases hs'
    cases hu'
    exact hsame
  · intro h
    exact ⟨since', until', hs, hu, h⟩

theorem sentBound_given {b : Int} (h : Given b) :
    sentBound b = some (some (Time.toSecond b)) := by
  unfold sentBound
  rw [if_neg h.left, if_pos h.right]

theorem sentBound_not_given {b : Int} (h : ¬ Given b) :
    (b = zeroTime ∧ sentBound b = some none) ∨ sentBound b = none := by
  unfold sentBound
  by_cases hzero : b = zeroTime
  · exact Or.inl ⟨hzero, if_pos hzero⟩
  · rw [if_neg hzero, if_neg (fun hrange => h ⟨hzero, hrange⟩)]
    exact Or.inr rfl

theorem given_of_windowSent_since {b : Int} {until_ : Option Int}
    (h : WindowSent (some b) until_) : Given b := by
  by_contra hnot
  rcases h with ⟨since', until', hsince', _, hsame⟩
  rcases sentBound_not_given hnot with ⟨hzero, hsent⟩ | hsent
  · rw [Option.getD_some, hsent] at hsince'
    cases hsince'
    rcases exists_within_below until' b with ⟨t, hlt, hin⟩
    exact absurd (within_since rfl ((hsame t).mpr hin)) (Int.not_le.mpr hlt)
  · rw [Option.getD_some, hsent] at hsince'
    cases hsince'

theorem given_of_windowSent_until {b : Int} {since : Option Int}
    (h : WindowSent since (some b)) : Given b := by
  by_contra hnot
  rcases h with ⟨since', until', _, huntil', hsame⟩
  rcases sentBound_not_given hnot with ⟨hzero, hsent⟩ | hsent
  · rw [Option.getD_some, hsent] at huntil'
    cases huntil'
    rcases exists_within_above since' b with ⟨t, hle, hin⟩
    exact absurd (within_until rfl ((hsame t).mpr hin)) (Int.not_lt.mpr hle)
  · rw [Option.getD_some, hsent] at huntil'
    cases huntil'

theorem since_kept_iff (s : Int) :
    (forall t, s <= t <-> Time.toSecond s <= t) <-> Time.toSecond s = s := by
  constructor
  · intro h
    have hle := (h (Time.toSecond s)).mpr (Int.le_refl _)
    exact Int.le_antisymm (Time.toSecond_le s) hle
  · intro h t
    rw [h]

theorem until_kept_iff (u : Int) :
    (forall t, t < u <-> t < Time.toSecond u) <-> Time.toSecond u = u := by
  constructor
  · intro h
    by_contra hne
    have hlt : Time.toSecond u < u := Int.lt_iff_le_and_ne.mpr ⟨Time.toSecond_le u, hne⟩
    exact Int.lt_irrefl _ ((h (Time.toSecond u)).mp hlt)
  · intro h t
    rw [h]

theorem windowSent_none : WindowSent none none :=
  ⟨none, none, if_pos rfl, if_pos rfl, fun _ => Iff.rfl⟩

theorem windowSent_iff (since until_ : Option Int) :
    WindowSent since until_ <-> Conveyed since until_ := by
  have hzero : sentBound ((none : Option Int).getD zeroTime) = some none := if_pos rfl
  cases since with
  | none =>
      cases until_ with
      | none =>
          have hconveyed : Conveyed none none := by simp [Conveyed]
          exact iff_of_true windowSent_none hconveyed
      | some u =>
          by_cases hu : Given u
          · have hu' : sentBound ((some u).getD zeroTime) = some (some (Time.toSecond u)) :=
              sentBound_given hu
            rw [windowSent_iff_of_sent hzero hu', conveyed_until_iff hu]
            simp only [within_none_some]
            exact until_kept_iff u
          · exact iff_of_false (fun h => hu (given_of_windowSent_until h))
              (fun h => hu (h.left u (Or.inr rfl)))
  | some s =>
      by_cases hs : Given s
      · have hs' : sentBound ((some s).getD zeroTime) = some (some (Time.toSecond s)) :=
          sentBound_given hs
        cases until_ with
        | none =>
            rw [windowSent_iff_of_sent hs' hzero, conveyed_since_iff hs]
            simp only [within_some_none]
            exact since_kept_iff s
        | some u =>
            by_cases hu : Given u
            · have hu' : sentBound ((some u).getD zeroTime) = some (some (Time.toSecond u)) :=
                sentBound_given hu
              rw [windowSent_iff_of_sent hs' hu', conveyed_both_iff hs hu]
              simp only [within_some_some]
              exact window_kept_iff s u
            · exact iff_of_false (fun h => hu (given_of_windowSent_until h))
                (fun h => hu (h.left u (Or.inr rfl)))
      · exact iff_of_false (fun h => hs (given_of_windowSent_since h))
          (fun h => hs (h.left s (Or.inl rfl)))

/-!
## The filter that the server gets
-/

theorem inList_headD (xs : List ByteString) : inList xs (xs.headD []) = true := by
  cases xs with
  | nil => rfl
  | cons x rest =>
      unfold inList containsString
      simp

theorem bucketAtLeast_critical (min_ : ByteString) :
    bucketAtLeast (bytesOf "critical") min_ = true := by
  have hcritical : bucketOrder (bytesOf "critical") = 4 := by decide
  have hle : bucketOrder min_ <= 4 := by
    unfold bucketOrder
    split_ifs <;> decide
  unfold bucketAtLeast
  rw [hcritical]
  exact decide_eq_true hle

def admitted (f : EventFilter) (t : Int) : EventFacts :=
  { ts := t, hostID := f.hostIDs.headD [], kind := f.evidenceKinds.headD []
    severity := f.severity.headD [], source := f.source.headD [], bucket := bytesOf "critical" }

theorem admits_admitted_iff (f : EventFilter) (t : Int) :
    f.Admits (admitted f t) <-> Within f.since f.until_ t := by
  constructor
  · intro h
    exact h.left
  · intro h
    exact ⟨h, inList_headD _, inList_headD _, inList_headD _, inList_headD _,
      Or.inr (Or.inr (bucketAtLeast_critical _))⟩

theorem hostIDs_eq (q : Values) :
    hostIDs q = (q.values (bytesOf "host_id")).flatMap splitComma := by
  unfold hostIDs Values.get
  cases q.values (bytesOf "host_id") with
  | nil => rfl
  | cons v rest =>
      cases rest with
      | nil => exact (List.flatMap_singleton splitComma v).symm
      | cons w rest =>
          have hlong : 1 < (v :: w :: rest).length := by
            rw [List.length_cons, List.length_cons]
            omega
          rw [if_pos hlong]

theorem bound_of_parseBound {v : ByteString} {t : Int} (h : parseBound v = some t) :
    exists b, bound v = some b ∧ t = b.getD zeroTime := by
  unfold parseBound at h
  unfold bound
  by_cases hv : v = []
  · rw [if_pos hv] at h
    rw [if_pos hv]
    cases h
    exact ⟨none, rfl, rfl⟩
  · rw [if_neg hv] at h
    rw [if_neg hv, h]
    exact ⟨some t, rfl, rfl⟩

theorem parseEventsParams_ok {query : ByteString} {p : EventsParams}
    (h : parseEventsParams query = .ok p) :
    exists f, denote (parseQuery query) = some f ∧ p.since = f.since.getD zeroTime ∧
      p.until_ = f.until_.getD zeroTime ∧ p.hostIDs = f.hostIDs ∧
      p.evidenceKinds = f.evidenceKinds ∧ p.severity = f.severity ∧ p.source = f.source ∧
      p.minAiGuardBucket = f.minAiGuardBucket ∧ EntryLists p := by
  unfold parseEventsParams at h
  simp only at h
  split at h
  · cases h
  · split at h
    · cases h
    · rename_i since hsince
      split at h
      · cases h
      · rename_i until_ huntil
        cases h
        rcases bound_of_parseBound hsince with ⟨b, hb, hbt⟩
        rcases bound_of_parseBound huntil with ⟨c, hc, hct⟩
        have hdenote : denote (parseQuery query) = some
            { since := b
              until_ := c
              hostIDs := ((parseQuery query).values (bytesOf "host_id")).flatMap splitComma
              evidenceKinds := splitComma ((parseQuery query).get (bytesOf "evidence_kind"))
              severity := splitComma ((parseQuery query).get (bytesOf "severity"))
              source := splitComma ((parseQuery query).get (bytesOf "source"))
              minAiGuardBucket := (parseQuery query).get (bytesOf "min_ai_guard_bucket") } := by
          unfold denote
          rw [hb, hc]
        refine ⟨_, hdenote, hbt, hct, hostIDs_eq _, rfl, rfl, rfl, rfl, ?_⟩
        · constructor
          · intro x hx
            have hx' : x ∈ hostIDs (parseQuery query) := hx
            rw [hostIDs_eq] at hx'
            rcases List.mem_flatMap.mp hx' with ⟨v, _, hv⟩
            exact isEntry_of_mem_splitComma hv
          · exact fun x hx => isEntry_of_mem_splitComma hx
          · exact fun x hx => isEntry_of_mem_splitComma hx
          · exact fun x hx => isEntry_of_mem_splitComma hx

/-- The query that the fleet client sends stands for the filter that was asked for exactly
when the bounds of the filter are conveyed. -/
theorem events_filter_kept_iff {query : ByteString} {p : EventsParams}
    (h : parseEventsParams query = .ok p) :
    SameFilter (parseQuery query) (parseQuery (buildEventsQuery p).encode) <->
      exists f, denote (parseQuery query) = some f ∧ Conveyed f.since f.until_ := by
  rcases parseEventsParams_ok h with ⟨f, hf, hsince, huntil, hhosts, hkinds, hseverity, hsource,
    hmin, hentries⟩
  have hsent := denote_sent hentries
  rw [hsince, huntil, hhosts, hkinds, hseverity, hsource, hmin] at hsent
  constructor
  · intro hsame
    rcases hsame with ⟨g, g', hg, hg', hadmits⟩
    rw [hf] at hg
    cases hg
    refine ⟨f, hf, (windowSent_iff _ _).mp ?_⟩
    rw [hsent] at hg'
    split at hg'
    · rename_i since' until' hs hu
      cases hg'
      refine ⟨since', until', hs, hu, ?_⟩
      intro t
      have hsent' := admits_admitted_iff { f with since := since', until_ := until' } t
      exact (admits_admitted_iff f t).symm.trans ((hadmits (admitted f t)).trans hsent')
    · cases hg'
  · intro hconveyed
    rcases hconveyed with ⟨f', hf', hconveyed⟩
    rw [hf] at hf'
    cases hf'
    rcases (windowSent_iff _ _).mpr hconveyed with ⟨since', until', hs, hu, hwindow⟩
    rw [hs, hu] at hsent
    refine ⟨f, _, hf, hsent, ?_⟩
    intro e
    exact and_congr_left' (hwindow e.ts)

/-!
## Whole and half seconds
-/

def windowParams (hosts : List ByteString) (since until_ : Int) : EventsParams :=
  { cursor := [], limit := 0, hostIDs := hosts, since := since, until_ := until_
    evidenceKinds := [], severity := [], source := [], minAiGuardBucket := [] }

def windowFilter (hosts : List ByteString) (since until_ : Option Int) : EventFilter :=
  { since := since, until_ := until_, hostIDs := hosts, evidenceKinds := [], severity := []
    source := [], minAiGuardBucket := [] }

def firstMonth : ByteString :=
  bytesOf "since=2026-01-01T00:00:00Z&until=2026-02-01T00:00:00-01:00&host_id=a,%20b&host_id=c"

def halfSecond : ByteString := bytesOf "since=2026-01-01T00:00:00.5Z"

theorem events_filter_kept_firstMonth :
    exists p, parseEventsParams firstMonth = .ok p ∧
      p.hostIDs = [bytesOf "a", bytesOf "b", bytesOf "c"] ∧
      SameFilter (parseQuery firstMonth) (parseQuery (buildEventsQuery p).encode) := by
  have hparse : parseEventsParams firstMonth =
      .ok (windowParams [bytesOf "a", bytesOf "b", bytesOf "c"] 1767225600000000000
        1769907600000000000) := by decide +kernel
  have hdenote : denote (parseQuery firstMonth) =
      some (windowFilter [bytesOf "a", bytesOf "b", bytesOf "c"] (some 1767225600000000000)
        (some 1769907600000000000)) := by decide +kernel
  have hsince : Given 1767225600000000000 := ⟨by decide +kernel, by decide +kernel⟩
  have huntil : Given 1769907600000000000 := ⟨by decide +kernel, by decide +kernel⟩
  refine ⟨_, hparse, rfl, (events_filter_kept_iff hparse).mpr ⟨_, hdenote, ?_⟩⟩
  apply (conveyed_both_iff hsince huntil).mpr
  exact Or.inl ⟨by decide +kernel, by decide +kernel⟩

/-- An event at the full second is not asked for, but the server is asked for it. -/
theorem not_events_filter_kept_halfSecond :
    exists p f f' e, parseEventsParams halfSecond = .ok p ∧
      denote (parseQuery halfSecond) = some f ∧
      denote (parseQuery (buildEventsQuery p).encode) = some f' ∧
      ¬ f.Admits e ∧ f'.Admits e := by
  have hparse : parseEventsParams halfSecond =
      .ok (windowParams [] 1767225600500000000 zeroTime) := by decide +kernel
  have hdenote : denote (parseQuery halfSecond) =
      some (windowFilter [] (some 1767225600500000000) none) := by decide +kernel
  have hsent : denote (parseQuery
      (buildEventsQuery (windowParams [] 1767225600500000000 zeroTime)).encode) =
      some (windowFilter [] (some 1767225600000000000) none) := by decide +kernel
  refine ⟨_, _, _, admitted (windowFilter [] none none) 1767225600000000000, hparse, hdenote,
    hsent, ?_, ?_⟩
  · intro h
    exact absurd (within_since rfl h.left) (by decide)
  · apply (admits_admitted_iff (windowFilter [] (some 1767225600000000000) none) _).mpr
    exact (within_some_none _ _).mpr (Int.le_refl _)

end Api
end LodelineManager
