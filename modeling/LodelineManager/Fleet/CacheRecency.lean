import LodelineManager.Fleet.Cache
import LodelineManager.Foundation.Recency
import Mathlib.Data.List.Perm.Basic

/-!
# What the fleet cache holds

The map of a store and its list speak of the same elements, and the nodes of the
list, read from the back, are a bounded list of the most recent responses: a
store touches it.
-/

namespace LodelineManager
namespace Fleet

open Foundation

variable {value : Type}

/-!
## The map and the list
-/

/-- A map and a list of elements that carry nodes: a key maps to an element exactly
when the element stands in the list and carries that key. -/
structure Linked (nodes : Nat -> Option (CacheNode value))
    (items : AList (fun _ : String => Nat)) (order : List Nat) : Prop where
  distinct : order.Nodup
  noded : forall e, e ∈ order -> exists node, nodes e = some node
  mapped : forall key e, items.lookup key = some e <->
    e ∈ order ∧ exists node, nodes e = some node ∧ node.key = key

namespace Linked

variable {nodes : Nat -> Option (CacheNode value)} {items : AList (fun _ : String => Nat)}
  {order : List Nat}

theorem key_inj (h : Linked nodes items order) {e e' : Nat} {node node' : CacheNode value}
    (he : e ∈ order) (he' : e' ∈ order) (hn : nodes e = some node) (hn' : nodes e' = some node')
    (hkey : node.key = node'.key) : e = e' := by
  have hl := (h.mapped node.key e).mpr ⟨he, node, hn, rfl⟩
  have hl' := (h.mapped node.key e').mpr ⟨he', node', hn', hkey.symm⟩
  rw [hl] at hl'
  exact Option.some.inj hl'

theorem keys_nodup (h : Linked nodes items order) :
    ((order.filterMap nodes).map CacheNode.key).Nodup := by
  rw [List.Nodup, List.pairwise_map, List.pairwise_filterMap]
  apply h.distinct.imp_of_mem
  intro e e' he he' hne node hn node' hn' hkey
  exact hne (h.key_inj he he' hn hn' hkey)

theorem nodes_length (h : Linked nodes items order) :
    (order.filterMap nodes).length = order.length := by
  rw [List.filterMap_length_eq_length]
  intro e he
  rcases h.noded e he with ⟨node, hn⟩
  rw [hn]
  rfl

theorem mem_keys (h : Linked nodes items order) (key : String) :
    key ∈ items.keys <-> key ∈ (order.filterMap nodes).map CacheNode.key := by
  rw [<- AList.mem_keys, <- AList.lookup_isSome, Option.isSome_iff_exists, List.mem_map]
  constructor
  · intro hkey
    rcases hkey with ⟨e, he⟩
    rcases (h.mapped key e).mp he with ⟨hmem, node, hn, hk⟩
    exact ⟨node, List.mem_filterMap.mpr ⟨e, hmem, hn⟩, hk⟩
  · intro hkey
    rcases hkey with ⟨node, hnode, hk⟩
    rcases List.mem_filterMap.mp hnode with ⟨e, hmem, hn⟩
    exact ⟨e, (h.mapped key e).mpr ⟨hmem, node, hn, hk⟩⟩

theorem entries_length (h : Linked nodes items order) :
    items.entries.length = order.length := by
  have hperm := (List.perm_ext_iff_of_nodup items.keys_nodup h.keys_nodup).mpr h.mem_keys
  have hlen := hperm.length_eq
  rw [List.length_map, h.nodes_length] at hlen
  rw [<- hlen]
  exact (List.length_map _).symm

theorem pop {front : Nat} {rest : List Nat} (h : Linked nodes items (front :: rest))
    {oldest : CacheNode value} (hn : nodes front = some oldest) :
    Linked nodes (items.erase oldest.key) rest := by
  have hdistinct := List.nodup_cons.mp h.distinct
  constructor
  · exact hdistinct.right
  · intro e he
    exact h.noded e (List.mem_cons_of_mem front he)
  · intro key e
    by_cases hkey : key = oldest.key
    · rw [hkey, AList.lookup_erase]
      constructor
      · intro hnone
        cases hnone
      · intro hmem
        rcases hmem with ⟨he, node, hnode, hk⟩
        have heq := h.key_inj (List.mem_cons_of_mem front he) List.mem_cons_self hnode hn hk
        rw [heq] at he
        exact absurd he hdistinct.left
    · rw [AList.lookup_erase_ne hkey, h.mapped key e]
      constructor
      · intro hmem
        rcases hmem with ⟨he, node, hnode, hk⟩
        rcases List.mem_cons.mp he with heq | he
        · rw [heq, hn] at hnode
          cases hnode
          exact absurd hk.symm hkey
        · exact ⟨he, node, hnode, hk⟩
      · intro hmem
        exact ⟨List.mem_cons_of_mem front hmem.left, hmem.right⟩

theorem evictFrom {maxEntries : Int} (hmax : 0 < maxEntries) (h : Linked nodes items order) :
    Linked nodes (CacheStore.evictFrom maxEntries nodes order items).1
        (CacheStore.evictFrom maxEntries nodes order items).2 ∧
      (CacheStore.evictFrom maxEntries nodes order items).2 =
        order.drop (order.length - maxEntries.toNat) := by
  induction order generalizing items with
  | nil => exact ⟨h, List.drop_nil.symm⟩
  | cons front rest ih =>
      have hlen := h.entries_length
      rw [List.length_cons] at hlen
      unfold CacheStore.evictFrom
      by_cases hfull : maxEntries < items.entries.length
      · rcases h.noded front List.mem_cons_self with ⟨oldest, hn⟩
        rw [if_pos ⟨hmax, hfull⟩, hn, List.length_cons]
        rcases ih (h.pop hn) with ⟨hlinked, hdrop⟩
        refine ⟨hlinked, hdrop.trans ?_⟩
        rw [Nat.sub_add_comm (by omega), List.drop_succ_cons]
      · have hfits : rest.length + 1 - maxEntries.toNat = 0 := by omega
        rw [if_neg (fun hloop => hfull hloop.right), List.length_cons, hfits]
        exact ⟨h, rfl⟩

end Linked

/-!
## A store touches its contents
-/

namespace CacheStore

/-- The map and the list of a store speak of the same elements. -/
def Consistent (s : CacheStore value) : Prop :=
  Linked s.nodes s.items s.order

def contents (s : CacheStore value) : List (CacheNode value) :=
  (s.order.filterMap s.nodes).reverse

theorem consistent_empty : (empty : CacheStore value).Consistent := by
  constructor
  · exact List.nodup_nil
  · intro e he
    cases he
  · intro key e
    constructor
    · intro h
      rw [show (empty : CacheStore value).items = ∅ from rfl, AList.lookup_empty] at h
      cases h
    · intro h
      cases h.left

theorem contents_length {s : CacheStore value} (h : s.Consistent) :
    s.contents.length = s.items.entries.length := by
  rw [contents, List.length_reverse, h.nodes_length, h.entries_length]

theorem lookup_eq_some_iff {s : CacheStore value} (h : s.Consistent) {key : String}
    {node : CacheNode value} :
    s.lookup key = some node <-> node ∈ s.contents ∧ node.key = key := by
  rw [contents, List.mem_reverse, List.mem_filterMap]
  constructor
  · intro hl
    rcases lookup_eq_some hl with ⟨e, he, hn⟩
    rcases (h.mapped key e).mp he with ⟨hmem, node', hn', hkey⟩
    rw [hn] at hn'
    cases hn'
    exact ⟨⟨e, hmem, hn⟩, hkey⟩
  · intro hl
    rcases hl with ⟨⟨e, hmem, hn⟩, hkey⟩
    have he := (h.mapped key e).mpr ⟨hmem, node, hn, hkey⟩
    exact Option.bind_eq_some_iff.mpr ⟨e, he, hn⟩

theorem key_ne_of_lookup_none {s : CacheStore value} (h : s.Consistent) {key : String}
    (hnone : s.items.lookup key = none) {node : CacheNode value} (hnode : node ∈ s.contents) :
    node.key ≠ key := by
  intro hkey
  rcases lookup_eq_some ((lookup_eq_some_iff h).mpr ⟨hnode, hkey⟩) with ⟨e, he, _⟩
  rw [hnone] at he
  cases he

theorem filterMap_drop {nodes : Nat -> Option (CacheNode value)} {order : List Nat}
    (h : forall e, e ∈ order -> exists node, nodes e = some node) (i : Nat) :
    (order.drop i).filterMap nodes = (order.filterMap nodes).drop i := by
  induction order generalizing i with
  | nil => rw [List.drop_nil, List.filterMap_nil, List.drop_nil]
  | cons e rest ih =>
      cases i with
      | zero => rfl
      | succ i =>
          rcases h e List.mem_cons_self with ⟨node, hn⟩
          rw [List.drop_succ_cons, List.filterMap_cons_some hn, List.drop_succ_cons]
          exact ih (fun e' he' => h e' (List.mem_cons_of_mem e he')) i

theorem evict_spec {maxEntries : Int} (hmax : 0 < maxEntries) {s : CacheStore value}
    (h : s.Consistent) :
    (s.evict maxEntries).Consistent ∧
      (s.evict maxEntries).contents = s.contents.take maxEntries.toNat := by
  rcases h.evictFrom hmax with ⟨hlinked, hdrop⟩
  constructor
  · exact hlinked
  · have hle := h.nodes_length
    unfold contents
    rw [List.take_reverse, hle, <- filterMap_drop h.noded, <- hdrop]
    rfl

section

variable {s : CacheStore value} {key : String} {val : value} {now : Int}

theorem push_nodes_next :
    (s.push key val now).nodes s.next = some { key := key, val := val, fetchedAt := now } :=
  Function.update_self _ _ _

theorem Consistent.ne_next (h : s.Consistent) {e : Nat} (he : e ∈ s.order) : e ≠ s.next := by
  rcases h.noded e he with ⟨node, hn⟩
  exact Nat.ne_of_lt (s.allocated e node hn)

theorem push_nodes_old (h : s.Consistent) {e : Nat} (he : e ∈ s.order) :
    (s.push key val now).nodes e = s.nodes e :=
  Function.update_of_ne (h.ne_next he) _ _

theorem push_consistent (h : s.Consistent) (hnone : s.items.lookup key = none) :
    (s.push key val now).Consistent := by
  constructor
  · exact List.nodup_append.mpr ⟨h.distinct, List.nodup_singleton _, by
      intro e he e' he'
      rw [List.mem_singleton.mp he']
      exact h.ne_next he⟩
  · intro e he
    rcases List.mem_append.mp he with he | he
    · rw [push_nodes_old h he]
      exact h.noded e he
    · rw [List.mem_singleton.mp he, push_nodes_next]
      exact ⟨_, rfl⟩
  · intro key' e
    show (s.items.insert key s.next).lookup key' = some e <-> e ∈ s.order ++ [s.next] ∧ _
    rw [List.mem_append, List.mem_singleton]
    by_cases hkey : key' = key
    · rw [hkey, AList.lookup_insert]
      constructor
      · intro he
        cases he
        exact ⟨Or.inr rfl, _, push_nodes_next, rfl⟩
      · intro he
        rcases he with ⟨he | he, node, hn, hk⟩
        · rw [push_nodes_old h he] at hn
          have hmapped := (h.mapped key e).mpr ⟨he, node, hn, hk⟩
          rw [hnone] at hmapped
          cases hmapped
        · rw [he]
    · rw [AList.lookup_insert_ne hkey, h.mapped key' e]
      constructor
      · intro he
        rcases he with ⟨he, node, hn, hk⟩
        exact ⟨Or.inl he, node, (push_nodes_old h he).trans hn, hk⟩
      · intro he
        rcases he with ⟨he | he, node, hn, hk⟩
        · exact ⟨he, node, (push_nodes_old h he).symm.trans hn, hk⟩
        · rw [he, push_nodes_next] at hn
          cases hn
          exact absurd hk.symm hkey

theorem push_contents (h : s.Consistent) :
    (s.push key val now).contents =
      { key := key, val := val, fetchedAt := now } :: s.contents := by
  unfold contents
  rw [show (s.push key val now).order = s.order ++ [s.next] from rfl, List.filterMap_append,
    List.filterMap_cons_some push_nodes_next, List.filterMap_nil, List.reverse_append,
    List.reverse_singleton, List.singleton_append,
    List.filterMap_congr (fun e he => push_nodes_old h he)]

variable {e : Nat}

theorem renew_nodes_other {e' : Nat} (hne : e' ≠ e) :
    (s.renew e val now).nodes e' = s.nodes e' :=
  Function.update_of_ne hne _ _

theorem renew_nodes_self (h : s.Consistent) (he : s.items.lookup key = some e) :
    (s.renew e val now).nodes e = some { key := key, val := val, fetchedAt := now } := by
  rcases (h.mapped key e).mp he with ⟨_, old, hold, hkey⟩
  show Function.update s.nodes e _ e = _
  rw [Function.update_self, hold, <- hkey]
  rfl

theorem renew_order_perm (hmem : e ∈ s.order) : (s.order.erase e ++ [e]).Perm s.order :=
  (List.perm_append_singleton e _).trans (List.perm_cons_erase hmem).symm

theorem renew_consistent (h : s.Consistent) (he : s.items.lookup key = some e) :
    (s.renew e val now).Consistent := by
  rcases (h.mapped key e).mp he with ⟨hmem, old, hold, hkey⟩
  have hself := @renew_nodes_self _ _ _ val now _ h he
  have hperm := renew_order_perm hmem
  constructor
  · exact hperm.nodup_iff.mpr h.distinct
  · intro e' he'
    have he' : e' ∈ s.order := hperm.mem_iff.mp he'
    by_cases heq : e' = e
    · rw [heq, hself]
      exact ⟨_, rfl⟩
    · rw [renew_nodes_other heq]
      exact h.noded e' he'
  · intro key' e'
    show s.items.lookup key' = some e' <-> e' ∈ s.order.erase e ++ [e] ∧ _
    rw [hperm.mem_iff, h.mapped key' e']
    by_cases heq : e' = e
    · rw [heq, hself, hold]
      constructor
      · intro hl
        rcases hl with ⟨_, node, hn, hk⟩
        cases hn
        exact ⟨hmem, _, rfl, hkey.symm.trans hk⟩
      · intro hl
        rcases hl with ⟨_, node, hn, hk⟩
        cases hn
        exact ⟨hmem, old, rfl, hkey.trans hk⟩
    · rw [renew_nodes_other heq]

theorem renew_contents (h : s.Consistent) (he : s.items.lookup key = some e) :
    (s.renew e val now).contents =
      { key := key, val := val, fetchedAt := now } ::
        s.contents.filter (fun node => decide (node.key ≠ key)) := by
  rcases (h.mapped key e).mp he with ⟨hmem, old, hold, hkey⟩
  have hfront : (s.order.erase e).filterMap (s.renew e val now).nodes =
      (s.order.filterMap s.nodes).filter (fun node => decide (node.key ≠ key)) := by
    rw [h.distinct.erase_eq_filter, List.filterMap_filter, List.filter_filterMap]
    apply List.filterMap_congr
    intro e' he'
    by_cases heq : e' = e
    · rw [heq, hold, Option.filter_some_neg (by simpa using hkey)]
      simp
    · rcases h.noded e' he' with ⟨node, hn⟩
      have hne : node.key ≠ key := fun hk => heq (h.key_inj he' hmem hn hold (hk.trans hkey.symm))
      rw [renew_nodes_other heq, hn, Option.filter_some_pos (by simpa using hne)]
      simp [heq]
  unfold contents
  rw [show (s.renew e val now).order = s.order.erase e ++ [e] from rfl, List.filterMap_append,
    List.filterMap_cons_some (renew_nodes_self h he), List.filterMap_nil, List.reverse_append,
    List.reverse_singleton, List.singleton_append, hfront, List.filter_reverse]

end

theorem store_spec {maxEntries : Int} (hmax : 0 < maxEntries) {s : CacheStore value}
    (h : s.Consistent) (hfits : s.contents.length <= maxEntries.toNat)
    (node : CacheNode value) :
    (s.store maxEntries node.key node.val node.fetchedAt).Consistent ∧
      (s.store maxEntries node.key node.val node.fetchedAt).contents =
        touch CacheNode.key maxEntries.toNat s.contents node := by
  unfold store touch
  cases he : s.items.lookup node.key with
  | some e =>
      refine ⟨renew_consistent h he, (renew_contents h he).trans (List.take_of_length_le ?_).symm⟩
      rcases (h.mapped node.key e).mp he with ⟨hmem, old, hold, hkey⟩
      have hold : old ∈ s.contents :=
        ((lookup_eq_some_iff h).mp (Option.bind_eq_some_iff.mpr ⟨e, he, hold⟩)).left
      have hless : (s.contents.filter (fun n => decide (n.key ≠ node.key))).length <
          s.contents.length := by
        rw [List.length_filter_lt_length_iff_exists]
        exact ⟨old, hold, by simpa using hkey⟩
      rw [List.length_cons]
      omega
  | none =>
      rcases evict_spec hmax (push_consistent h he) with ⟨hcons, htaken⟩
      have hkept : s.contents.filter (fun n => decide (n.key ≠ node.key)) = s.contents := by
        rw [List.filter_eq_self]
        intro n hn
        simpa using key_ne_of_lookup_none h he hn
      rw [hkept]
      exact ⟨hcons, htaken.trans (by rw [push_contents h])⟩

end CacheStore

/-!
## Whole histories
-/

def CacheConfig.storeAll (cfg : CacheConfig) (calls : List (CacheNode value)) :
    CacheStore value :=
  calls.foldl
    (fun s node => s.store cfg.withDefaults.maxEntries node.key node.val node.fetchedAt)
    CacheStore.empty

theorem CacheConfig.maxEntries_pos (cfg : CacheConfig) : 0 < cfg.withDefaults.maxEntries := by
  unfold CacheConfig.withDefaults
  dsimp only
  split
  · decide
  · omega

theorem storeAll_touches (cfg : CacheConfig) (calls : List (CacheNode value)) :
    (cfg.storeAll calls).Consistent ∧
      (cfg.storeAll calls).contents =
        calls.foldl (touch CacheNode.key cfg.withDefaults.maxEntries.toNat) [] := by
  induction calls using List.reverseRecOn with
  | nil => exact ⟨CacheStore.consistent_empty, rfl⟩
  | append_singleton calls node ih =>
      rcases ih with ⟨hcons, hcontents⟩
      have hfits : (cfg.storeAll calls).contents.length <= cfg.withDefaults.maxEntries.toNat := by
        rw [hcontents, foldl_touch]
        exact List.length_take_le _ _
      rcases CacheStore.store_spec cfg.maxEntries_pos hcons hfits node with ⟨hcons', htouched⟩
      have hrun : cfg.storeAll (calls ++ [node]) =
          (cfg.storeAll calls).store cfg.withDefaults.maxEntries node.key node.val
            node.fetchedAt := List.foldl_concat _ _ _ _
      rw [hrun, List.foldl_concat, ← hcontents]
      exact ⟨hcons', htouched⟩

theorem storeAll_spec (cfg : CacheConfig) (calls : List (CacheNode value)) :
    (cfg.storeAll calls).Consistent ∧
      (cfg.storeAll calls).contents =
        (latest CacheNode.key calls).take cfg.withDefaults.maxEntries.toNat := by
  rw [← foldl_touch]
  exact storeAll_touches cfg calls

/-- The map and the list of a store stay in bijection, the list stays in fetch order,
the store stays within its bound and holds the most recently stored keys, each as it
was stored last; what has just been stored is there. -/
theorem store_keeps_recent (cfg : CacheConfig) (calls : List (CacheNode value))
    (hclock : (calls.map CacheNode.fetchedAt).Pairwise (· <= ·)) :
    let s := cfg.storeAll calls
    let recent := (latest CacheNode.key calls).take cfg.withDefaults.maxEntries.toNat
    Linked s.nodes s.items s.order ∧
      ((s.order.filterMap s.nodes).map CacheNode.fetchedAt).Pairwise (· <= ·) ∧
      (s.items.entries.length : Int) <= cfg.withDefaults.maxEntries ∧
      s.order.filterMap s.nodes = recent.reverse ∧
      (forall key node, s.lookup key = some node <-> node ∈ recent ∧ node.key = key) ∧
      forall node, calls.getLast? = some node -> s.lookup node.key = some node := by
  intro s recent
  rcases storeAll_spec cfg calls with ⟨hcons, hcontents⟩
  have hmax := cfg.maxEntries_pos
  have hlookup : forall key node, s.lookup key = some node <-> node ∈ recent ∧ node.key = key := by
    intro key node
    rw [CacheStore.lookup_eq_some_iff hcons, hcontents]
  have horder : s.order.filterMap s.nodes = recent.reverse := by
    rw [<- List.reverse_reverse (s.order.filterMap s.nodes)]
    exact congrArg List.reverse hcontents
  refine ⟨hcons, ?_, ?_, horder, hlookup, ?_⟩
  · have hkept : recent.Sublist calls.reverse :=
      (List.take_sublist _ _).trans (latest_sublist CacheNode.key calls)
    have hsub : recent.reverse.Sublist calls := by
      rw [<- List.reverse_reverse calls]
      exact hkept.reverse
    rw [horder]
    exact hclock.sublist (hsub.map CacheNode.fetchedAt)
  · have hle : s.contents.length <= cfg.withDefaults.maxEntries.toNat := by
      rw [hcontents]
      exact List.length_take_le _ _
    have hlen : s.contents.length = s.items.entries.length := CacheStore.contents_length hcons
    rw [hlen] at hle
    omega
  · intro node hlast
    rcases List.getLast?_eq_some_iff.mp hlast with ⟨before, hcalls⟩
    rw [hlookup]
    refine ⟨?_, rfl⟩
    show node ∈ (latest CacheNode.key calls).take cfg.withDefaults.maxEntries.toNat
    rw [hcalls, latest_concat, List.mem_take_iff_getElem]
    exact ⟨0, by simp; omega, rfl⟩

/-- Three stores of two keys into a cache of one entry. -/
theorem store_keeps_recent_witness :
    let cfg : CacheConfig := { ttl := 0, maxStale := 0, maxEntries := 1 }
    let calls : List (CacheNode Nat) :=
      [{ key := "a", val := 1, fetchedAt := 0 }, { key := "b", val := 2, fetchedAt := 5 },
        { key := "a", val := 3, fetchedAt := 5 }]
    ((cfg.storeAll calls).lookup "a" = some { key := "a", val := 3, fetchedAt := 5 }) := by
  intro cfg calls
  have hclock : (calls.map CacheNode.fetchedAt).Pairwise (· <= ·) := by decide
  have hlast : calls.getLast? = some { key := "a", val := 3, fetchedAt := 5 } := rfl
  rcases store_keeps_recent cfg calls hclock with ⟨_, _, _, _, _, hstored⟩
  exact hstored { key := "a", val := 3, fetchedAt := 5 } hlast

end Fleet
end LodelineManager
