import LodelineManager.Foundation.FirstMatch
import LodelineManager.Foundation.StableSort
import LodelineManager.Triage.Types
import Mathlib.Data.List.Infix
import Mathlib.Data.List.Sort

/-!
# The rows of the Alerts queue

The pages of events that the browser has loaded become the rows on the screen:
repeated identities are dropped, the client-side filters applied, the rest sorted.
An event carries what these steps and the slide-over read of it.
-/

namespace LodelineManager
namespace Web

open Foundation Triage

/-!
## JavaScript strings
-/

/-- The code points that {lit}`String.prototype.trim` removes. -/
def isWhiteSpace (c : Char) : Bool :=
  decide (9 <= c.toNat ∧ c.toNat <= 13) || decide (0x2000 <= c.toNat ∧ c.toNat <= 0x200A) ||
    decide (c.toNat ∈ [0x20, 0xA0, 0x1680, 0x2028, 0x2029, 0x202F, 0x205F, 0x3000, 0xFEFF])

def trim (s : String) : String :=
  String.ofList
    (((s.toList.dropWhile isWhiteSpace).reverse.dropWhile isWhiteSpace).reverse)

def utf16 (s : String) : List Nat :=
  s.toList.flatMap (fun c =>
    if c.toNat < 0x10000 then [c.toNat]
    else [0xD800 + (c.toNat - 0x10000) / 0x400, 0xDC00 + (c.toNat - 0x10000) % 0x400])

def lessThan (a b : String) : Bool := decide (utf16 a < utf16 b)

def includes (s part : String) : Bool := decide (List.IsInfix part.toList s.toList)

/-!
## Events
-/

/-- The discriminator, the field of the AI-Guard variant that ranks it, and what
{lit}`JSON.stringify` makes of the whole; {lit}`none` stands for {lit}`undefined`. -/
structure Evidence where
  kind : Option String
  bucket : Option String
  json : Option RawMessage
  deriving DecidableEq

/-- {lit}`triage` is the status of the joined triage view, if there is one. -/
structure EventWithTriage where
  eventID : String
  ts : String
  hostID : String
  severity : String
  evidence : Evidence
  triage : Option Status
  deriving DecidableEq

/-- {lit}`null` events count as none. -/
structure EventsPage where
  events : Option (List EventWithTriage)
  nextCursor : Option String

def EventWithTriage.key (ev : EventWithTriage) : String × String := (ev.hostID, ev.eventID)

/-!
## Loaded rows
-/

def selectEvents (page : EventsPage) : List EventWithTriage := page.events.getD []

def eventIdentity (row : EventWithTriage) : String := row.hostID ++ ":" ++ row.eventID

/-- {lit}`usePagedFleet`: "first occurrence wins at page boundaries". -/
def pagedRows (pages : List EventsPage) : List EventWithTriage :=
  keepFirst eventIdentity [] (pages.flatMap selectEvents)

/-- The part of the filter that the browser applies itself; the other fields shape
what the server returns. -/
structure AlertFilter where
  triageStatuses : List Status
  query : String

def matchesStatus (f : AlertFilter) (ev : EventWithTriage) : Bool :=
  decide (ev.triage.getD statusOpen ∈ f.triageStatuses)

def matchesQuery (toLowerCase : String -> String) (q : String) (ev : EventWithTriage) : Bool :=
  if includes (toLowerCase ev.eventID) q then true
  else if includes (toLowerCase ev.hostID) q then true
  else
    match ev.evidence.kind with
    | none => false
    | some kind => includes (toLowerCase kind) q

def applyClientFilter (toLowerCase : String -> String) (rows : List EventWithTriage)
    (f : AlertFilter) : List EventWithTriage :=
  let out := if f.triageStatuses.length > 0 then rows.filter (matchesStatus f) else rows
  let q := toLowerCase (trim f.query)
  if q.length > 0 then out.filter (matchesQuery toLowerCase q) else out

theorem applyClientFilter_sublist (toLowerCase : String -> String)
    (rows : List EventWithTriage) (f : AlertFilter) :
    (applyClientFilter toLowerCase rows f).Sublist rows := by
  have hout : (if f.triageStatuses.length > 0 then rows.filter (matchesStatus f) else
      rows).Sublist rows := by
    split
    · exact List.filter_sublist
    · exact List.Sublist.refl rows
  unfold applyClientFilter
  simp only
  split
  · exact List.filter_sublist.trans hout
  · exact hout

/-!
## Order on the screen
-/

inductive SortMode where
  | severityDesc
  | ageDesc
  | ageAsc
  deriving DecidableEq

def inheritedNames : List String :=
  ["constructor", "toString", "toLocaleString", "valueOf", "hasOwnProperty", "isPrototypeOf",
    "propertyIsEnumerable", "__proto__", "__defineGetter__", "__defineSetter__",
    "__lookupGetter__", "__lookupSetter__"]

/-- What a lookup in {lit}`BUCKET_RANK` finds: a number, or the object behind an inherited
name. -/
inductive BucketRank where
  | number (n : Int)
  | inherited (name : String)
  deriving DecidableEq

/-- {lit}`BUCKET_RANK[bucket] ?? 0`. -/
def bucketRankOf (bucket : String) : BucketRank :=
  if bucket = "critical" then .number 4
  else if bucket = "high" then .number 3
  else if bucket = "medium" then .number 2
  else if bucket = "low" then .number 1
  else if bucket = "info" then .number 0
  else if bucket ∈ inheritedNames then .inherited bucket
  else .number 0

def bucketRank (ev : EventWithTriage) : BucketRank :=
  if ev.evidence.kind = some "ai_guard_risk_assessed" then
    match ev.evidence.bucket with
    | none => .number 0
    | some bucket => if bucket = "" then .number 0 else bucketRankOf bucket
  else if ev.severity = "warn" then .number 2
  else .number 0

/-- {lit}`a - b`; {lit}`none` stands for {lit}`NaN`. -/
def BucketRank.minus : BucketRank -> BucketRank -> Option Int
  | .number a, .number b => some (a - b)
  | _, _ => none

def tsDesc (a b : String) : Int :=
  if lessThan a b then 1 else if lessThan b a then -1 else 0

def compareRows : SortMode -> EventWithTriage -> EventWithTriage -> Option Int
  | .severityDesc, a, b =>
      if bucketRank a ≠ bucketRank b then (bucketRank b).minus (bucketRank a)
      else some (tsDesc a.ts b.ts)
  | .ageDesc, a, b => some (tsDesc a.ts b.ts)
  | .ageAsc, a, b => some (-tsDesc a.ts b.ts)

def sortRows (js : ArraySort EventWithTriage) (rows : List EventWithTriage) (mode : SortMode) :
    List EventWithTriage :=
  js.sort (compareRows mode) rows

@[simp] theorem mem_sortRows {js : ArraySort EventWithTriage} {rows : List EventWithTriage}
    {mode : SortMode} {ev : EventWithTriage} : ev ∈ sortRows js rows mode <-> ev ∈ rows :=
  (js.perm (compareRows mode) rows).mem_iff

end Web
end LodelineManager
