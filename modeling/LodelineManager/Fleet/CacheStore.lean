import LodelineManager.Foundation.MapDeletion

/-!
# The entries of the fleet cache

The keyed lookup and the eviction order of the cache are two structures over the
same nodes: a map from keys to elements and a list of elements, oldest fetch
first.  A store carries that every mapped element has a node under its own key.
-/

namespace LodelineManager
namespace Fleet

variable {value : Type}

/-- One cached response with the instant it was fetched. -/
structure CacheNode (value : Type) where
  key : String
  val : value
  fetchedAt : Int

/-- {lit}`items` and {lit}`order`; elements are numbered as they are allocated. -/
structure CacheStore (value : Type) where
  items : AList (fun _ : String => Nat)
  order : List Nat
  nodes : Nat -> Option (CacheNode value)
  next : Nat
  keyed : forall key e, items.lookup key = some e ->
    exists node, nodes e = some node ∧ node.key = key
  allocated : forall e node, nodes e = some node -> e < next

namespace CacheStore

def empty : CacheStore value where
  items := ∅
  order := []
  nodes := fun _ => none
  next := 0
  keyed := by
    intro key e h
    rw [AList.lookup_empty] at h
    cases h
  allocated := by
    intro e node h
    cases h

def lookup (s : CacheStore value) (key : String) : Option (CacheNode value) :=
  (s.items.lookup key).bind s.nodes

def evictFrom (maxEntries : Int) (nodes : Nat -> Option (CacheNode value)) :
    List Nat -> AList (fun _ : String => Nat) -> AList (fun _ : String => Nat) × List Nat
  | [], items => (items, [])
  | front :: rest, items =>
      if 0 < maxEntries ∧ maxEntries < items.entries.length then
        match nodes front with
        | none => evictFrom maxEntries nodes rest items
        | some oldest => evictFrom maxEntries nodes rest (items.erase oldest.key)
      else (items, front :: rest)

theorem lookup_of_evictFrom {maxEntries : Int} {nodes : Nat -> Option (CacheNode value)}
    {order : List Nat} {items : AList (fun _ : String => Nat)} {key : String} {e : Nat}
    (h : (evictFrom maxEntries nodes order items).1.lookup key = some e) :
    items.lookup key = some e := by
  induction order generalizing items with
  | nil => exact h
  | cons front rest ih =>
      unfold evictFrom at h
      split at h
      · cases hn : nodes front with
        | none =>
            rw [hn] at h
            exact ih h
        | some oldest =>
            rw [hn] at h
            exact Foundation.lookup_of_erase (ih h)
      · exact h

/-- The loop at the end of {lit}`store`. -/
def evict (maxEntries : Int) (s : CacheStore value) : CacheStore value where
  items := (evictFrom maxEntries s.nodes s.order s.items).1
  order := (evictFrom maxEntries s.nodes s.order s.items).2
  nodes := s.nodes
  next := s.next
  keyed := fun key e h => s.keyed key e (lookup_of_evictFrom h)
  allocated := s.allocated

/-- Rewrite the node of a mapped element in place and move it to the back. -/
def renew (s : CacheStore value) (e : Nat) (val : value) (now : Int) : CacheStore value where
  items := s.items
  order := s.order.erase e ++ [e]
  nodes := Function.update s.nodes e
    ((s.nodes e).map (fun node => { node with val := val, fetchedAt := now }))
  next := s.next
  keyed := by
    intro key e' h
    rcases s.keyed key e' h with ⟨node, hnode, hkey⟩
    by_cases he : e' = e
    · subst he
      rw [Function.update_self, hnode]
      exact ⟨_, rfl, hkey⟩
    · rw [Function.update_of_ne he]
      exact ⟨node, hnode, hkey⟩
  allocated := by
    intro e' node h
    by_cases he : e' = e
    · subst he
      rw [Function.update_self] at h
      rcases Option.map_eq_some_iff.mp h with ⟨old, hold, _⟩
      exact s.allocated e' old hold
    · rw [Function.update_of_ne he] at h
      exact s.allocated e' node h

/-- Push a node for a new key to the back. -/
def push (s : CacheStore value) (key : String) (val : value) (now : Int) : CacheStore value where
  items := s.items.insert key s.next
  order := s.order ++ [s.next]
  nodes := Function.update s.nodes s.next (some { key := key, val := val, fetchedAt := now })
  next := s.next + 1
  keyed := by
    intro key' e h
    by_cases hk : key' = key
    · subst hk
      rw [AList.lookup_insert] at h
      cases h
      rw [Function.update_self]
      exact ⟨_, rfl, rfl⟩
    · rw [AList.lookup_insert_ne hk] at h
      rcases s.keyed key' e h with ⟨node, hnode, hkey⟩
      rw [Function.update_of_ne (Nat.ne_of_lt (s.allocated e node hnode))]
      exact ⟨node, hnode, hkey⟩
  allocated := by
    intro e node h
    by_cases he : e = s.next
    · rw [he]
      exact Nat.lt_succ_self _
    · rw [Function.update_of_ne he] at h
      exact Nat.lt_succ_of_lt (s.allocated e node h)

/-- {lit}`CachingClient.store` at the clock reading it takes under the lock. -/
def store (maxEntries : Int) (s : CacheStore value) (key : String) (val : value) (now : Int) :
    CacheStore value :=
  match s.items.lookup key with
  | some e => s.renew e val now
  | none => (s.push key val now).evict maxEntries

/-!
## What a store changes
-/

theorem lookup_eq_some {s : CacheStore value} {key : String} {node : CacheNode value}
    (h : s.lookup key = some node) :
    exists e, s.items.lookup key = some e ∧ s.nodes e = some node :=
  Option.bind_eq_some_iff.mp h

theorem lookup_of_evict {maxEntries : Int} {s : CacheStore value} {key : String}
    {node : CacheNode value} (h : (s.evict maxEntries).lookup key = some node) :
    s.lookup key = some node := by
  rcases lookup_eq_some h with ⟨e, he, hnode⟩
  exact Option.bind_eq_some_iff.mpr ⟨e, lookup_of_evictFrom he, hnode⟩

theorem lookup_renew {s : CacheStore value} {e : Nat} {key : String} {val : value} {now : Int}
    (he : s.items.lookup key = some e) {key' : String} {node : CacheNode value}
    (h : (s.renew e val now).lookup key' = some node) :
    key' = key ∧ node = { key := key, val := val, fetchedAt := now } ∨
      key' ≠ key ∧ s.lookup key' = some node := by
  rcases lookup_eq_some h with ⟨e', he', hnode⟩
  rcases s.keyed key e he with ⟨old, hold, hkey⟩
  change s.items.lookup key' = some e' at he'
  change Function.update s.nodes e _ e' = some node at hnode
  by_cases hee : e' = e
  · subst hee
    rw [Function.update_self, hold] at hnode
    cases hnode
    rcases s.keyed key' e' he' with ⟨old', hold', hkey'⟩
    rw [hold] at hold'
    cases hold'
    refine Or.inl ⟨hkey'.symm.trans hkey, ?_⟩
    show ({ key := old.key, val := val, fetchedAt := now } : CacheNode value) = _
    rw [hkey]
  · rw [Function.update_of_ne hee] at hnode
    refine Or.inr ⟨?_, Option.bind_eq_some_iff.mpr ⟨e', he', hnode⟩⟩
    intro hk
    rw [hk, he] at he'
    cases he'
    exact hee rfl

theorem lookup_push {s : CacheStore value} {key : String} {val : value} {now : Int}
    {key' : String} {node : CacheNode value}
    (h : (s.push key val now).lookup key' = some node) :
    key' = key ∧ node = { key := key, val := val, fetchedAt := now } ∨
      key' ≠ key ∧ s.lookup key' = some node := by
  rcases lookup_eq_some h with ⟨e', he', hnode⟩
  change (s.items.insert key s.next).lookup key' = some e' at he'
  change Function.update s.nodes s.next _ e' = some node at hnode
  by_cases hk : key' = key
  · subst hk
    rw [AList.lookup_insert] at he'
    cases he'
    rw [Function.update_self] at hnode
    cases hnode
    exact Or.inl ⟨rfl, rfl⟩
  · rw [AList.lookup_insert_ne hk] at he'
    rcases s.keyed key' e' he' with ⟨old, hold, _⟩
    rw [Function.update_of_ne (Nat.ne_of_lt (s.allocated e' old hold))] at hnode
    exact Or.inr ⟨hk, Option.bind_eq_some_iff.mpr ⟨e', he', hnode⟩⟩

theorem lookup_store {maxEntries : Int} {s : CacheStore value} {key : String} {val : value}
    {now : Int} {key' : String} {node : CacheNode value}
    (h : (s.store maxEntries key val now).lookup key' = some node) :
    key' = key ∧ node = { key := key, val := val, fetchedAt := now } ∨
      key' ≠ key ∧ s.lookup key' = some node := by
  unfold store at h
  cases he : s.items.lookup key with
  | some e =>
      rw [he] at h
      exact lookup_renew he h
  | none =>
      rw [he] at h
      exact lookup_push (lookup_of_evict h)

end CacheStore

end Fleet
end LodelineManager
