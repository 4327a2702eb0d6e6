import LodelineManager.Fleet.Requests
import LodelineManager.Foundation.Keyset
import Mathlib.Data.List.Lex
import Mathlib.Order.OrderDual

/-!
# The event pages of the mock client

Event ids compare as Go strings do, byte by byte.  The events are kept in descending
order of their ids, and a page is the first ones below the cursor that match.
-/

namespace LodelineManager
namespace Fleet

open Go Foundation

instance linearOrderUInt8 : LinearOrder UInt8 where
  le := (· <= ·)
  lt := (· < ·)
  le_refl := UInt8.le_refl
  le_trans := fun _ _ _ => UInt8.le_trans
  lt_iff_le_not_ge := fun _ _ => by
    constructor
    · intro h
      exact ⟨UInt8.le_of_lt h, UInt8.not_le.mpr h⟩
    · intro h
      exact UInt8.not_le.mp h.right
  le_antisymm := fun _ _ => UInt8.le_antisymm
  le_total := UInt8.le_total
  toDecidableLE := inferInstance

/-- What the filters read of an event; {lit}`aiGuardBucket` is the bucket that
{lit}`AsAiGuard` finds in the evidence, and none when the evidence does not decode. -/
structure Event where
  eventID : ByteString
  ts : Int
  hostID : ByteString
  severity : ByteString
  kind : ByteString
  aiGuardBucket : Option ByteString
  deriving DecidableEq

structure EventsPage where
  events : List Event
  nextCursor : Option ByteString
  deriving DecidableEq

/-!
## Filters
-/

def bucketOrder (bucket : ByteString) : Nat :=
  if bucket = bytesOf "low" then 1
  else if bucket = bytesOf "medium" then 2
  else if bucket = bytesOf "high" then 3
  else if bucket = bytesOf "critical" then 4
  else 0

def bucketAtLeast (have_ min_ : ByteString) : Bool :=
  decide (bucketOrder min_ <= bucketOrder have_)

def containsString (haystack : List ByteString) (needle : ByteString) : Bool :=
  haystack.any (fun s => decide (s = needle))

def inList (haystack : List ByteString) (needle : ByteString) : Bool :=
  !decide (0 < haystack.length) || containsString haystack needle

def matchesBucket (e : Event) (min_ : ByteString) : Bool :=
  if min_ ≠ [] ∧ e.kind = bytesOf "ai_guard_risk_assessed" then
    match e.aiGuardBucket with
    | none => false
    | some bucket => bucketAtLeast bucket min_
  else true

def matchesEvent (e : Event) (p : EventsParams) : Bool :=
  if p.since ≠ zeroTime ∧ e.ts < p.since then false
  else if p.until_ ≠ zeroTime ∧ ¬ e.ts < p.until_ then false
  else if !inList p.hostIDs e.hostID then false
  else if !inList p.severity e.severity then false
  else if !inList p.evidenceKinds e.kind then false
  else matchesBucket e p.minAiGuardBucket

def clampLimit (n : Int) : Nat :=
  if n <= 0 then 100 else if n > 1000 then 1000 else n.toNat

theorem clampLimit_pos (n : Int) : 0 < clampLimit n := by
  unfold clampLimit
  split
  · decide
  · split
    · decide
    · omega

/-!
## Pages
-/

/-- The events of the client, with distinct ids. -/
structure MockClient where
  events : List Event
  sorted : events.Pairwise (fun a b => b.eventID < a.eventID)

def belowCursor (cursor : ByteString) (e : Event) : Bool :=
  !(decide (cursor ≠ []) && decide (cursor <= e.eventID))

def MockClient.filtered (m : MockClient) (p : EventsParams) : List Event :=
  m.events.filter (fun e => belowCursor p.cursor e && matchesEvent e p)

def MockClient.page (m : MockClient) (p : EventsParams) : EventsPage :=
  let limit := clampLimit p.limit
  let filtered := m.filtered p
  if filtered.length > limit then
    let filtered := filtered.take limit
    { events := filtered, nextCursor := filtered.getLast?.map Event.eventID }
  else { events := filtered, nextCursor := none }

def place (e : Event) : OrderDual ByteString := OrderDual.toDual e.eventID

def cursorPlace (cursor : ByteString) : Option (OrderDual ByteString) :=
  if cursor = [] then none else some (OrderDual.toDual cursor)

theorem after_cursorPlace (cursor : ByteString) (e : Event) :
    Keyset.after (cursorPlace cursor) (place e) = belowCursor cursor e := by
  unfold cursorPlace belowCursor
  split
  · rename_i hempty
    rw [hempty]
    rfl
  · rename_i hcursor
    rw [decide_eq_true hcursor, Bool.true_and]
    apply Bool.eq_iff_iff.mpr
    rw [Keyset.after_some, place, OrderDual.toDual_lt_toDual, Bool.not_eq_true',
      decide_eq_false_iff_not, not_le]

theorem page_isPage (m : MockClient) (p : EventsParams) :
    Keyset.IsPage place (fun e => matchesEvent e p) m.events (cursorPlace p.cursor)
      (m.page p).events ((m.page p).nextCursor.map OrderDual.toDual) := by
  have hmem : forall r, r ∈ m.filtered p <->
      r ∈ Keyset.remaining place (fun e => matchesEvent e p) (cursorPlace p.cursor) m.events := by
    intro r
    unfold MockClient.filtered
    rw [Keyset.mem_remaining, List.mem_filter, Bool.and_eq_true, after_cursorPlace,
      And.comm (a := belowCursor p.cursor r = true)]
  have hsorted : (m.filtered p).Pairwise (fun a b => place a < place b) :=
    m.sorted.sublist List.filter_sublist
  have hevents : (m.page p).events = (m.filtered p).take (clampLimit p.limit) := by
    unfold MockClient.page
    simp only
    split
    · rfl
    · rename_i hshort
      exact (List.take_of_length_le (Nat.le_of_not_lt hshort)).symm
  rw [hevents]
  apply Keyset.isPage_of_sorted hmem hsorted (clampLimit_pos p.limit)
  unfold MockClient.page
  simp only
  split
  · rw [Option.map_map]
    rfl
  · rfl

theorem page_nextCursor_ne_nil {m : MockClient} {p : EventsParams} {c : ByteString}
    (h : (m.page p).nextCursor = some c) : c ≠ [] := by
  unfold MockClient.page at h
  simp only at h
  split at h
  · rename_i hlong
    rcases Option.map_eq_some_iff.mp h with ⟨e, he, hc⟩
    have hsorted : (m.filtered p).Pairwise (fun a b => b.eventID < a.eventID) :=
      m.sorted.sublist List.filter_sublist
    rw [← List.take_append_drop (clampLimit p.limit) (m.filtered p),
      List.pairwise_append] at hsorted
    have hrest : 0 < ((m.filtered p).drop (clampLimit p.limit)).length := by
      rw [List.length_drop]
      exact Nat.sub_pos_of_lt hlong
    rcases List.exists_mem_of_length_pos hrest with ⟨x, hx⟩
    have hlt := hsorted.right.right e (List.mem_of_getLast? he) x hx
    intro hnil
    rw [hc, hnil] at hlt
    exact List.not_lt_nil _ hlt
  · cases h

end Fleet
end LodelineManager
