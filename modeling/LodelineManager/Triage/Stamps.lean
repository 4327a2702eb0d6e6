import LodelineManager.Go.Ascii
import LodelineManager.Go.ZonedTime
import LodelineManager.Triage.CommitOrder
import LodelineManager.Triage.PartialUpdate

/-!
# The time columns

{lit}`formatTS` takes a time to UTC before it is written, so the zone that the time came in
leaves no trace.  The texts of the years that four digits can hold are all of one length,
and their bytes compare as the instants do.
-/

namespace LodelineManager
namespace Triage

open Foundation Go

/-- {lit}`t.UTC()`. -/
def toUTC (t : ZonedTime) : ZonedTime := { t with offset := 0 }

/-- {lit}`t.Format(tsLayout)`: the wall clock of the zone with nine digits of a fraction. -/
def formatLayout (t : ZonedTime) : List Char :=
  localText t.wall ++ '.' :: (padded 9 (Time.nsec t.wall) ++ appendZone t.offset)

/-- The bytes of {lit}`formatTS(t)`, as the text columns hold them. -/
def stamp (t : ZonedTime) : ByteString := utf8 (String.ofList (formatLayout (toUTC t)))

/-- {lit}`t.Year()`, in the zone of the time. -/
def yearOf (t : ZonedTime) : Int := (Time.date t.wall).year

/-- The texts of two times are an ordered and faithful encoding of their instants. -/
structure Embedded (s t : ZonedTime) : Prop where
  length : (stamp s).length = (stamp t).length
  order : stamp s < stamp t <-> s.instant < t.instant
  same : stamp s = stamp t <-> s.instant = t.instant
  column : formatTS s.instant < formatTS t.instant <-> s.instant < t.instant
  read : parseTS (formatTS s.instant) = s.instant ∧ parseTS (formatTS t.instant) = t.instant

theorem formatLayout_toUTC (t : ZonedTime) : formatLayout (toUTC t) = formatUTC t.instant := by
  have hwall : (toUTC t).wall = t.instant := Int.add_zero t.instant
  unfold formatLayout
  rw [hwall]
  show localText t.instant ++ '.' :: (padded 9 (Time.nsec t.instant) ++ ['Z']) = _
  unfold localText formatUTC
  simp only [List.append_assoc, List.cons_append]

theorem stamp_eq (t : ZonedTime) : stamp t = utf8 (formatTS t.instant) := by
  unfold stamp formatTS
  rw [formatLayout_toUTC]

/-!
## Characters and lengths
-/

theorem formatTS_ascii (t : Int) : Ascii (formatTS t) := by
  intro c hc
  unfold formatTS at hc
  rw [String.toList_ofList] at hc
  unfold formatUTC at hc
  simp only [List.mem_append, List.mem_cons, List.not_mem_nil, or_false] at hc
  rcases hc with h | rfl | h | rfl | h | rfl | h | rfl | h | rfl | h | rfl | h | rfl
  all_goals first | exact ascii_of_mem_appendInt h | exact ascii_of_mem_padded h | decide

theorem formatTS_length {t : Int} (h : Time.InRange t) : (formatTS t).toList.length = 30 := by
  unfold formatTS
  rw [String.toList_ofList, formatUTC_eq_fieldsText h]
  unfold Time.fields rfc3339Layout
  simp only [fieldsText, List.length_append, List.length_cons, List.length_nil, padded_length]

theorem stamp_length (t : ZonedTime) : (stamp t).length = (formatTS t.instant).toList.length := by
  rw [stamp_eq, utf8_length (formatTS_ascii t.instant)]

/-!
## The order of the instants
-/

section

variable {s t : ZonedTime}

theorem stamp_lt (hs : Time.InRange s.instant) (ht : Time.InRange t.instant)
    (h : s.instant < t.instant) : stamp s < stamp t := by
  rw [stamp_eq, stamp_eq]
  exact utf8_lt (formatTS_ascii s.instant) (formatTS_ascii t.instant) (formatTS_lt hs ht h)

theorem stamp_congr (h : s.instant = t.instant) : stamp s = stamp t := by
  rw [stamp_eq, stamp_eq, h]

theorem stamp_irrefl (t : ZonedTime) : ¬ stamp t < stamp t := List.lt_irrefl _

/-- Times in any zones, when their years in UTC have four digits. -/
theorem stamps_embedded (hs : Time.InRange s.instant) (ht : Time.InRange t.instant) : Embedded s t where
  length := by
    rw [stamp_length, stamp_length, formatTS_length hs, formatTS_length ht]
  order := by
    constructor
    · intro hlt
      apply Int.not_le.mp
      intro hle
      rcases Int.lt_or_eq_of_le hle with hback | hsame
      · exact List.lt_asymm hlt (stamp_lt ht hs hback)
      · rw [stamp_congr hsame] at hlt
        exact stamp_irrefl s hlt
    · exact stamp_lt hs ht
  same := by
    constructor
    · intro heq
      rcases Int.lt_trichotomy s.instant t.instant with hlt | hsame | hgt
      · exact absurd (stamp_lt hs ht hlt) (heq ▸ stamp_irrefl s)
      · exact hsame
      · exact absurd (stamp_lt ht hs hgt) (heq ▸ stamp_irrefl s)
    · exact stamp_congr
  column := by
    constructor
    · intro hlt
      apply Int.not_le.mp
      intro hle
      exact absurd (formatTS_le ht hs hle) (not_le_of_gt hlt)
    · exact formatTS_lt hs ht
  read := ⟨parseTS_formatTS hs, parseTS_formatTS ht⟩

end

def lastEvening : ZonedTime :=
  { instant := 253402302600 * second, offset := -60 * minute }

def lastSecond : ZonedTime := ZonedTime.utc (253402300799 * second)

theorem stamps_embedded_lastSecond : Embedded (ZonedTime.utc 0) lastSecond :=
  stamps_embedded (by decide) (by decide)

/-- The year in the zone of the time does not tell: in UTC the last evening is in the year
10000, which takes a fifth digit. -/
theorem not_embedded_lastEvening :
    ¬ forall s t : ZonedTime, (0 <= yearOf s ∧ yearOf s <= 9999) ->
      (0 <= yearOf t ∧ yearOf t <= 9999) -> Embedded s t := by
  intro h
  have hlength := (h lastEvening lastSecond (by decide) (by decide)).length
  rw [stamp_length, stamp_length] at hlength
  exact absurd hlength (by decide)

end Triage
end LodelineManager
