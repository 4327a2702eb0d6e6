import LodelineManager.Foundation.StableSort
import LodelineManager.Go.TimeOrder
import LodelineManager.Web.Events

/-!
# The order of the queue and the order of time

The table and the route sort the rows each with its own copy of the comparison, which
looks at the text of {lit}`ts`.  The module compares the two copies with each other and
their order with that of the instants.
-/

namespace LodelineManager
namespace Web

open Foundation Go

/-!
## The copy of the table
-/

/-- {lit}`BUCKET_RANK[bucket] ?? 0` of the table. -/
def queueBucketRank (bucket : String) : BucketRank :=
  match bucket with
  | "critical" => .number 4
  | "high" => .number 3
  | "medium" => .number 2
  | "low" => .number 1
  | "info" => .number 0
  | other => if other ∈ inheritedNames then .inherited other else .number 0

def bucketRankFor (ev : EventWithTriage) : BucketRank :=
  if ev.evidence.kind = some "ai_guard_risk_assessed" then
    match ev.evidence.bucket with
    | none => .number 0
    | some bucket => if bucket = "" then .number 0 else queueBucketRank bucket
  else if ev.severity = "warn" then .number 2
  else .number 0

def tsCompareDesc (a b : String) : Int :=
  if lessThan a b then 1
  else if lessThan b a then -1
  else 0

/-- The comparison functions of {lit}`sortEvents`. -/
def compareEvents : SortMode -> EventWithTriage -> EventWithTriage -> Option Int
  | .severityDesc, a, b =>
      if bucketRankFor a ≠ bucketRankFor b then (bucketRankFor b).minus (bucketRankFor a)
      else some (tsCompareDesc a.ts b.ts)
  | .ageDesc, a, b => some (tsCompareDesc a.ts b.ts)
  | .ageAsc, a, b => some (-tsCompareDesc a.ts b.ts)

def sortEvents (js : ArraySort EventWithTriage) (events : List EventWithTriage)
    (mode : SortMode) : List EventWithTriage :=
  js.sort (compareEvents mode) events

theorem queueBucketRank_eq (bucket : String) : queueBucketRank bucket = bucketRankOf bucket := by
  unfold queueBucketRank bucketRankOf
  split
  · rfl
  · rfl
  · rfl
  · rfl
  · rfl
  · rename_i hcritical hhigh hmedium hlow hinfo
    rw [if_neg hcritical, if_neg hhigh, if_neg hmedium, if_neg hlow, if_neg hinfo]

theorem bucketRankFor_eq (ev : EventWithTriage) : bucketRankFor ev = bucketRank ev := by
  unfold bucketRankFor bucketRank
  cases ev.evidence.bucket with
  | none => rfl
  | some bucket => simp only [queueBucketRank_eq]

theorem compareEvents_eq (mode : SortMode) : compareEvents mode = compareRows mode := by
  funext a b
  cases mode with
  | severityDesc =>
      show (if bucketRankFor a ≠ bucketRankFor b then
        (bucketRankFor b).minus (bucketRankFor a) else some (tsCompareDesc a.ts b.ts)) = _
      rw [bucketRankFor_eq, bucketRankFor_eq]
      rfl
  | ageDesc => rfl
  | ageAsc => rfl

theorem sortEvents_eq_sortRows (js : ArraySort EventWithTriage) (rows : List EventWithTriage)
    (mode : SortMode) : sortEvents js rows mode = sortRows js rows mode := by
  unfold sortEvents sortRows
  rw [compareEvents_eq]

/-!
## Comparison by a key
-/

def BucketRank.known : BucketRank -> Int
  | .number n => n
  | .inherited _ => 0

def rankOf (ev : EventWithTriage) : Int := (bucketRank ev).known

section

variable {key : Type} [LinearOrder key] {keyOf : EventWithTriage -> key}

def descending (a b : key) : Int := if a < b then 1 else if b < a then -1 else 0

def compareBy (keyOf : EventWithTriage -> key) : SortMode -> EventWithTriage -> EventWithTriage ->
    Int
  | .severityDesc, a, b =>
      if rankOf a ≠ rankOf b then rankOf b - rankOf a else descending (keyOf a) (keyOf b)
  | .ageDesc, a, b => descending (keyOf a) (keyOf b)
  | .ageAsc, a, b => -descending (keyOf a) (keyOf b)

/-- A row may stand before another. -/
def Before (keyOf : EventWithTriage -> key) (mode : SortMode) (a b : EventWithTriage) : Prop :=
  compareBy keyOf mode a b <= 0

instance (mode : SortMode) : DecidableRel (Before keyOf mode) :=
  fun a b => inferInstanceAs (Decidable (compareBy keyOf mode a b <= 0))

theorem descending_cases (a b : key) :
    (a < b ∧ descending a b = 1) ∨ (b < a ∧ descending a b = -1) ∨ (a = b ∧ descending a b = 0) := by
  unfold descending
  rcases lt_trichotomy a b with hlt | heq | hgt
  · exact Or.inl ⟨hlt, if_pos hlt⟩
  · refine Or.inr (Or.inr ⟨heq, ?_⟩)
    rw [heq, if_neg (lt_irrefl b), if_neg (lt_irrefl b)]
  · exact Or.inr (Or.inl ⟨hgt, by rw [if_neg (lt_asymm hgt), if_pos hgt]⟩)

theorem descending_le_iff (a b : key) : descending a b <= 0 <-> b <= a := by
  rcases descending_cases a b with ⟨hlt, hval⟩ | ⟨hgt, hval⟩ | ⟨heq, hval⟩
  · rw [hval]
    exact iff_of_false (by decide) (not_le.mpr hlt)
  · rw [hval]
    exact iff_of_true (by decide) (le_of_lt hgt)
  · rw [hval]
    exact iff_of_true (by decide) (le_of_eq heq.symm)

theorem neg_descending_le_iff (a b : key) : -descending a b <= 0 <-> a <= b := by
  rcases descending_cases a b with ⟨hlt, hval⟩ | ⟨hgt, hval⟩ | ⟨heq, hval⟩
  · rw [hval]
    exact iff_of_true (by decide) (le_of_lt hlt)
  · rw [hval]
    exact iff_of_false (by decide) (not_le.mpr hgt)
  · rw [hval]
    exact iff_of_true (by decide) (le_of_eq heq)

theorem descending_opposite (a b : key) : descending b a = -descending a b := by
  rcases descending_cases a b with ⟨hlt, hval⟩ | ⟨hgt, hval⟩ | ⟨heq, hval⟩
  · rw [hval]
    unfold descending
    rw [if_neg (lt_asymm hlt), if_pos hlt]
  · rw [hval]
    exact if_pos hgt
  · rw [hval, heq]
    unfold descending
    rw [if_neg (lt_irrefl b), if_neg (lt_irrefl b), Int.neg_zero]

theorem compareBy_opposite (mode : SortMode) (a b : EventWithTriage) :
    compareBy keyOf mode b a = -compareBy keyOf mode a b := by
  cases mode with
  | severityDesc =>
      show (if rankOf b ≠ rankOf a then rankOf a - rankOf b
        else descending (keyOf b) (keyOf a)) =
          -(if rankOf a ≠ rankOf b then rankOf b - rankOf a else descending (keyOf a) (keyOf b))
      by_cases hrank : rankOf a = rankOf b
      · rw [if_neg (not_not.mpr hrank.symm), if_neg (not_not.mpr hrank), descending_opposite]
      · rw [if_pos (Ne.symm hrank), if_pos hrank]
        omega
  | ageDesc => exact descending_opposite (keyOf a) (keyOf b)
  | ageAsc => exact congrArg Neg.neg (descending_opposite (keyOf a) (keyOf b))

theorem before_severityDesc (a b : EventWithTriage) :
    Before keyOf .severityDesc a b <-> rankOf b < rankOf a ∨
      rankOf a = rankOf b ∧ keyOf b <= keyOf a := by
  show (if rankOf a ≠ rankOf b then rankOf b - rankOf a
    else descending (keyOf a) (keyOf b)) <= 0 <-> _
  by_cases hrank : rankOf a = rankOf b
  · rw [if_neg (not_not.mpr hrank), descending_le_iff, hrank]
    simp
  · rw [if_pos hrank]
    simp only [hrank, false_and, or_false]
    omega

theorem before_ageDesc (a b : EventWithTriage) :
    Before keyOf .ageDesc a b <-> keyOf b <= keyOf a :=
  descending_le_iff (keyOf a) (keyOf b)

theorem before_ageAsc (a b : EventWithTriage) :
    Before keyOf .ageAsc a b <-> keyOf a <= keyOf b :=
  neg_descending_le_iff (keyOf a) (keyOf b)

instance (mode : SortMode) : Std.Total (Before keyOf mode) where
  total a b := by
    cases mode with
    | severityDesc =>
        rw [before_severityDesc, before_severityDesc]
        rcases lt_trichotomy (rankOf a) (rankOf b) with hlt | heq | hgt
        · exact Or.inr (Or.inl hlt)
        · rcases le_total (keyOf a) (keyOf b) with hle | hle
          · exact Or.inr (Or.inr ⟨heq.symm, hle⟩)
          · exact Or.inl (Or.inr ⟨heq, hle⟩)
        · exact Or.inl (Or.inl hgt)
    | ageDesc =>
        rw [before_ageDesc, before_ageDesc]
        exact le_total (keyOf b) (keyOf a)
    | ageAsc =>
        rw [before_ageAsc, before_ageAsc]
        exact le_total (keyOf a) (keyOf b)

instance (mode : SortMode) : IsTrans EventWithTriage (Before keyOf mode) where
  trans a b c := by
    cases mode with
    | severityDesc =>
        rw [before_severityDesc, before_severityDesc, before_severityDesc]
        rintro (hlt | ⟨heq, hle⟩) (hlt' | ⟨heq', hle'⟩)
        · exact Or.inl (lt_trans hlt' hlt)
        · exact Or.inl (heq' ▸ hlt)
        · exact Or.inl (heq ▸ hlt')
        · exact Or.inr ⟨heq.trans heq', le_trans hle' hle⟩
    | ageDesc =>
        rw [before_ageDesc, before_ageDesc, before_ageDesc]
        exact fun hab hbc => le_trans hbc hab
    | ageAsc =>
        rw [before_ageAsc, before_ageAsc, before_ageAsc]
        exact le_trans

end

def textOf (ev : EventWithTriage) : List Nat := utf16 ev.ts

def instantOf (ev : EventWithTriage) : Int :=
  ((parseZoned ev.ts.toList).map (fun t => t.instant)).getD 0

theorem tsDesc_eq (a b : String) : tsDesc a b = descending (utf16 a) (utf16 b) := by
  unfold tsDesc lessThan
  simp only [decide_eq_true_eq]
  rcases descending_cases (utf16 a) (utf16 b) with ⟨hlt, hval⟩ | ⟨hgt, hval⟩ | ⟨heq, hval⟩
  · rw [hval, if_pos hlt]
  · rw [hval, if_neg (lt_asymm hgt), if_pos hgt]
  · rw [hval, heq, if_neg (lt_irrefl _), if_neg (lt_irrefl _)]

/-- The ranks of two rows can be told apart by a number, if they are told apart at all. -/
def Comparable : SortMode -> EventWithTriage -> EventWithTriage -> Prop
  | .severityDesc, a, b =>
      bucketRank a = bucketRank b ∨
        exists m n, bucketRank a = .number m ∧ bucketRank b = .number n
  | .ageDesc, _, _ => True
  | .ageAsc, _, _ => True

theorem compareRows_of_comparable {mode : SortMode} {a b : EventWithTriage}
    (h : Comparable mode a b) : compareRows mode a b = some (compareBy textOf mode a b) := by
  cases mode with
  | severityDesc =>
      show (if bucketRank a ≠ bucketRank b then (bucketRank b).minus (bucketRank a)
        else some (tsDesc a.ts b.ts)) =
          some (if rankOf a ≠ rankOf b then rankOf b - rankOf a
            else descending (textOf a) (textOf b))
      by_cases hsame : bucketRank a = bucketRank b
      · have hrank : rankOf a = rankOf b := congrArg BucketRank.known hsame
        rw [if_neg (not_not.mpr hsame), if_neg (not_not.mpr hrank), tsDesc_eq]
        rfl
      · rcases h with heq | ⟨m, n, ha, hb⟩
        · exact absurd heq hsame
        · have hrank : rankOf a ≠ rankOf b := by
            intro hmn
            unfold rankOf at hmn
            rw [ha, hb] at hsame hmn
            exact hsame (congrArg BucketRank.number hmn)
          rw [if_pos hsame, if_pos hrank]
          unfold rankOf
          rw [ha, hb]
          rfl
  | ageDesc => exact congrArg some (tsDesc_eq a.ts b.ts)
  | ageAsc => exact congrArg (fun n => some (-n)) (tsDesc_eq a.ts b.ts)

theorem comparable_of_compareRows {mode : SortMode} {a b : EventWithTriage} {n : Int}
    (h : compareRows mode a b = some n) : Comparable mode a b := by
  cases mode with
  | severityDesc =>
      change (if bucketRank a ≠ bucketRank b then (bucketRank b).minus (bucketRank a)
        else some (tsDesc a.ts b.ts)) = some n at h
      show bucketRank a = bucketRank b ∨
        exists m n, bucketRank a = .number m ∧ bucketRank b = .number n
      cases ha : bucketRank a with
      | number x =>
          cases hb : bucketRank b with
          | number y => exact Or.inr ⟨x, y, rfl, rfl⟩
          | inherited name =>
              rw [ha, hb] at h
              cases h
      | inherited name =>
          by_cases hsame : bucketRank a = bucketRank b
          · exact Or.inl (ha.symm.trans hsame)
          · rw [if_pos hsame, ha] at h
            cases hb : bucketRank b with
            | number y =>
                rw [hb] at h
                cases h
            | inherited name' =>
                rw [hb] at h
                cases h
  | ageDesc => trivial
  | ageAsc => trivial

theorem consistent_compareRows {mode : SortMode} {rows : List EventWithTriage}
    (h : forall x y, x ∈ rows -> y ∈ rows -> Comparable mode x y) :
    ConsistentComparator (compareRows mode) rows ∧
      forall x y, x ∈ rows -> y ∈ rows ->
        (AtMost (compareRows mode) x y <-> Before textOf mode x y) := by
  have hbefore : forall x y, x ∈ rows -> y ∈ rows ->
      (AtMost (compareRows mode) x y <-> Before textOf mode x y) := by
    intro x y hx hy
    unfold AtMost
    rw [compareRows_of_comparable (h x y hx hy)]
    constructor
    · rintro ⟨n, hn, hle⟩
      cases hn
      exact hle
    · intro hle
      exact ⟨_, rfl, hle⟩
  refine ⟨⟨?_, ?_, ?_⟩, hbefore⟩
  · intro x y hx hy
    exact ⟨_, compareRows_of_comparable (h x y hx hy)⟩
  · intro x y m n hx hy hm hn
    rw [compareRows_of_comparable (h x y hx hy)] at hm
    rw [compareRows_of_comparable (h y x hy hx)] at hn
    cases hm
    cases hn
    rw [compareBy_opposite mode x y]
    omega
  · intro x y z hx hy hz hxy hyz
    rw [hbefore x y hx hy] at hxy
    rw [hbefore y z hy hz] at hyz
    rw [hbefore x z hx hz]
    exact IsTrans.trans x y z hxy hyz

theorem sortRows_eq {mode : SortMode} {rows : List EventWithTriage}
    (h : forall x y, x ∈ rows -> y ∈ rows -> Comparable mode x y)
    (js : ArraySort EventWithTriage) :
    sortRows js rows mode = rows.insertionSort (Before textOf mode) := by
  rcases consistent_compareRows h with ⟨hconsistent, hbefore⟩
  have hsorted := (js.sorts (compareRows mode) rows hconsistent).congr hbefore
  exact hsorted.unique (stablySorted_insertionSort rows)

theorem comparable_of_sorted {mode : SortMode} {s : EventWithTriage -> EventWithTriage -> Prop}
    {rows : List EventWithTriage}
    (h : forall js, StablySorted s rows (sortRows js rows mode)) {x y : EventWithTriage}
    (hx : x ∈ rows) (hy : y ∈ rows) : Comparable mode x y := by
  by_contra hnot
  have hne : x ≠ y := by
    intro heq
    rw [heq] at hnot
    apply hnot
    cases mode with
    | severityDesc => exact Or.inl rfl
    | ageDesc => trivial
    | ageAsc => trivial
  have hinconsistent : ¬ ConsistentComparator (compareRows mode) rows := by
    intro hconsistent
    rcases hconsistent.number x y hx hy with ⟨n, hn⟩
    exact hnot (comparable_of_compareRows hn)
  rcases exists_perm_not_stablySorted hx hy hne with ⟨ys, hys, hwrong⟩
  rcases ArraySort.exists_sort hinconsistent hys with ⟨js, hjs⟩
  have hsorted := h js
  unfold sortRows at hsorted
  rw [hjs] at hsorted
  exact hwrong hsorted

/-!
## Where the text tells the order
-/

/-- The texts of two rows compare as their instants do. -/
def TextTells (x y : EventWithTriage) : Prop :=
  lessThan x.ts y.ts = true <-> instantOf x < instantOf y

/-- The texts tell whether the row that comes later in the input is to stand first. -/
def TellsOrder : SortMode -> EventWithTriage -> EventWithTriage -> Prop
  | .severityDesc, x, y => rankOf x = rankOf y -> TextTells x y
  | .ageDesc, x, y => TextTells x y
  | .ageAsc, x, y => TextTells y x

theorem textTells_iff_le (x y : EventWithTriage) :
    TextTells x y <-> (textOf y <= textOf x <-> instantOf y <= instantOf x) := by
  unfold TextTells lessThan textOf
  rw [decide_eq_true_eq, ← not_lt, ← not_lt, not_iff_not]

theorem tellsOrder_iff (mode : SortMode) (x y : EventWithTriage) :
    (Before textOf mode x y <-> Before instantOf mode x y) <-> TellsOrder mode x y := by
  cases mode with
  | severityDesc =>
      rw [before_severityDesc, before_severityDesc]
      show _ <-> (rankOf x = rankOf y -> TextTells x y)
      rw [textTells_iff_le]
      by_cases hrank : rankOf x = rankOf y
      · simp [hrank]
      · simp [hrank]
  | ageDesc =>
      rw [before_ageDesc, before_ageDesc]
      exact (textTells_iff_le x y).symm
  | ageAsc =>
      rw [before_ageAsc, before_ageAsc]
      exact (textTells_iff_le y x).symm

/-- The text of the row is what {lit}`Time.MarshalJSON` writes for a time with a zone of whole
minutes. -/
structure Stamped (ev : EventWithTriage) (t : ZonedTime) : Prop where
  writable : t.Writable
  whole : t.offset % minute = 0
  text : ev.ts.toList = t.format

theorem Stamped.instantOf_eq {ev : EventWithTriage} {t : ZonedTime} (h : Stamped ev t) :
    instantOf ev = t.instant := by
  unfold instantOf
  rw [h.text, ZonedTime.parseZoned_format h.writable h.whole]
  rfl

theorem Stamped.textOf_eq {ev : EventWithTriage} {t : ZonedTime} (h : Stamped ev t) :
    textOf ev = t.format.map Char.toNat := by
  have hunits : forall c, c ∈ t.format -> (if c.toNat < 0x10000 then [c.toNat]
      else [0xD800 + (c.toNat - 0x10000) / 0x400, 0xDC00 + (c.toNat - 0x10000) % 0x400]) =
        [c.toNat] := by
    intro c hc
    have hlt := ZonedTime.mem_format hc
    exact if_pos (by omega)
  unfold textOf utf16
  rw [h.text, List.flatMap_congr hunits]
  exact List.flatMap_pure_eq_map Char.toNat t.format

theorem map_toNat_lt {a b : List Char} : a.map Char.toNat < b.map Char.toNat <-> a < b := by
  induction a generalizing b with
  | nil =>
      cases b with
      | nil => simp
      | cons d ys => simp
  | cons c xs ih =>
      cases b with
      | nil => simp
      | cons d ys =>
          rw [List.map_cons, List.map_cons, List.cons_lt_cons_iff, List.cons_lt_cons_iff, ih,
            Char.toNat_inj]
          rfl

theorem Stamped.textTells_iff {x y : EventWithTriage} {s t : ZonedTime} (hx : Stamped x s)
    (hy : Stamped y t) : TextTells x y <-> (s.format < t.format <-> s.instant < t.instant) := by
  have htext : lessThan x.ts y.ts = decide (textOf x < textOf y) := rfl
  unfold TextTells
  rw [htext, decide_eq_true_eq, hx.textOf_eq, hy.textOf_eq, map_toNat_lt, hx.instantOf_eq,
    hy.instantOf_eq]

/-- Of two times in UTC in one second, the fraction of one goes on after that of the
other, which may be none. -/
def Clash (s t : ZonedTime) : Prop :=
  s.instant < t.instant ∧ s.Misordered t ∨ t.instant < s.instant ∧ t.Misordered s

theorem textTells_iff_clash {x y : EventWithTriage} {s t : ZonedTime} (hx : Stamped x s)
    (hy : Stamped y t) (hzone : s.offset = t.offset) : TextTells x y <-> ¬ Clash s t := by
  rw [hx.textTells_iff hy]
  unfold Clash
  rcases lt_trichotomy s.instant t.instant with hlt | heq | hgt
  · rcases ZonedTime.format_order hx.writable hy.writable hx.whole hzone hlt with ⟨hright, hwrong⟩
    have hnot : ¬ t.instant < s.instant := lt_asymm hlt
    by_cases hmis : s.Misordered t
    · have hback : ¬ s.format < t.format := lt_asymm (hwrong hmis)
      simp [hlt, hmis, hback]
    · simp [hlt, hmis, hright hmis, hnot]
  · have hsame : s = t := by
      cases s
      cases t
      cases heq
      cases hzone
      rfl
    subst hsame
    simp
  · rcases ZonedTime.format_order hy.writable hx.writable hy.whole hzone.symm hgt with
      ⟨hright, hwrong⟩
    have hnot : ¬ s.instant < t.instant := lt_asymm hgt
    by_cases hmis : t.Misordered s
    · simp [hgt, hmis, hwrong hmis, hnot]
    · have hback : ¬ s.format < t.format := lt_asymm (hright hmis)
      simp [hmis, hback, hnot]

theorem textTells_iff_wall {x y : EventWithTriage} {s t : ZonedTime} (hx : Stamped x s)
    (hy : Stamped y t) (hwall : Time.toSecond s.wall ≠ Time.toSecond t.wall) :
    TextTells x y <-> (Time.toSecond s.wall < Time.toSecond t.wall <-> s.instant < t.instant) := by
  rw [hx.textTells_iff hy]
  rcases Int.lt_or_gt_of_ne hwall with hlt | hgt
  · have htext := ZonedTime.format_lt_of_wall hx.writable hy.writable hlt
    simp [hlt, htext]
  · have htext := ZonedTime.format_lt_of_wall hy.writable hx.writable hgt
    simp [lt_asymm hgt, lt_asymm htext]

def eventAt (id : String) (t : ZonedTime) : EventWithTriage :=
  { eventID := id, ts := String.ofList t.format, hostID := "h1", severity := "warn"
    evidence := { kind := none, bucket := none, json := none }, triage := none }

theorem stamped_eventAt (id : String) {t : ZonedTime} (hwrite : t.Writable)
    (hwhole : t.offset % minute = 0) : Stamped (eventAt id t) t :=
  ⟨hwrite, hwhole, String.toList_ofList⟩

def noon : ZonedTime := ZonedTime.utc 1779192000000000000

def pastNoon : ZonedTime := ZonedTime.utc 1779192000500000000

def secondPastNoon : ZonedTime := ZonedTime.utc 1779192001500000000

theorem stamped_pair {s t : ZonedTime} (hs : s.Writable ∧ s.offset % minute = 0)
    (ht : t.Writable ∧ t.offset % minute = 0) :
    forall ev, ev ∈ [eventAt "e1" s, eventAt "e2" t] -> exists u, Stamped ev u := by
  intro ev hev
  rcases List.mem_pair.mp hev with rfl | rfl
  · exact ⟨s, stamped_eventAt "e1" hs.left hs.right⟩
  · exact ⟨t, stamped_eventAt "e2" ht.left ht.right⟩

end Web
end LodelineManager
