import Mathlib.Data.List.AList

/-!
# Deleting from a map

Lookups and sizes after a deletion or an insertion.  A loop over a map that deletes
the entries of some kind leaves the others, whatever the order of the iteration.
-/

namespace LodelineManager
namespace Foundation

universe u v

variable {key : Type u} {value : Type v}

def deleteWhere (p : value -> Bool) (m : AList (fun _ : key => value)) :
    AList (fun _ : key => value) where
  entries := m.entries.filter (fun e => !p e.2)
  nodupKeys := m.nodupKeys.sublist List.filter_sublist

theorem deleteWhere_length_le (p : value -> Bool) (m : AList (fun _ : key => value)) :
    (deleteWhere p m).entries.length <= m.entries.length :=
  List.length_filter_le _ _

variable [DecidableEq key]

theorem lookup_deleteWhere {p : value -> Bool} {m : AList (fun _ : key => value)} {k : key}
    {v : value} :
    (deleteWhere p m).lookup k = some v <-> m.lookup k = some v ∧ p v = false := by
  rw [← Option.mem_def, ← Option.mem_def, AList.mem_lookup_iff, AList.mem_lookup_iff]
  show Sigma.mk k v ∈ m.entries.filter _ <-> _
  rw [List.mem_filter, Bool.not_eq_true']

theorem lookup_of_deleteWhere {p : value -> Bool} {m : AList (fun _ : key => value)} {k : key}
    {v : value} (h : (deleteWhere p m).lookup k = some v) : m.lookup k = some v :=
  (lookup_deleteWhere.mp h).left

theorem lookup_none_of_deleteWhere {p : value -> Bool} {m : AList (fun _ : key => value)} {k : key}
    (h : m.lookup k = none) : (deleteWhere p m).lookup k = none := by
  cases hk : (deleteWhere p m).lookup k with
  | none => rfl
  | some v =>
      rw [lookup_of_deleteWhere hk] at h
      cases h

theorem lookup_of_erase {m : AList (fun _ : key => value)} {k k' : key} {v : value}
    (h : (m.erase k').lookup k = some v) : m.lookup k = some v := by
  by_cases hk : k = k'
  · rw [hk, AList.lookup_erase] at h
    cases h
  · rw [AList.lookup_erase_ne hk] at h
    exact h

theorem lookup_none_of_erase {m : AList (fun _ : key => value)} {k k' : key}
    (h : m.lookup k = none) : (m.erase k').lookup k = none := by
  cases hk : (m.erase k').lookup k with
  | none => rfl
  | some v =>
      rw [lookup_of_erase hk] at h
      cases h

theorem insert_length_le (m : AList (fun _ : key => value)) (k : key) (v : value) :
    (m.insert k v).entries.length <= m.entries.length + 1 := by
  rw [AList.entries_insert, List.length_cons]
  exact Nat.succ_le_succ (List.Sublist.length_le (List.kerase_sublist k m.entries))

theorem erase_length_le (m : AList (fun _ : key => value)) (k : key) :
    (m.erase k).entries.length <= m.entries.length :=
  List.Sublist.length_le (List.kerase_sublist k m.entries)

theorem length_of_keys {m : AList (fun _ : key => value)} {ks : List key} (hnodup : ks.Nodup)
    (hks : forall k, k ∈ ks <-> exists v, m.lookup k = some v) : ks.length = m.entries.length := by
  have hperm : ks.Perm m.keys := by
    refine (List.perm_ext_iff_of_nodup hnodup m.keys_nodup).mpr ?_
    intro k
    rw [hks, ← AList.mem_keys, ← AList.lookup_isSome, Option.isSome_iff_exists]
  rw [hperm.length_eq]
  exact List.length_map _

end Foundation
end LodelineManager
