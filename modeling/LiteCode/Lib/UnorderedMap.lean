import Mathlib.Data.List.AList

/-!
# Unordered maps

`std::unordered_map`: a finite map with unique keys. A loop over its elements visits each of them
once, in an order that the language does not specify and that may change whenever the map does. A
function that iterates is given the order as an argument (`Layout`), so that what is proved about
it holds in every order.

* `UnorderedMap.size`: the number of elements;
* `Layout`: an order of visits.
-/

namespace LiteCode

universe u v

/-- A finite map from `κ` to `β`. -/
abbrev UnorderedMap (κ : Type u) (β : Type v) := AList fun _ : κ => β

/-- An order in which the elements of a map are visited. -/
structure Layout (κ : Type u) (β : Type v) where
  order : UnorderedMap κ β → List (Sigma fun _ : κ => β)
  /-- Every element is visited once. -/
  perm : ∀ m, (order m).Perm m.entries

/-- The elements are visited as they are listed. -/
def Layout.listed (κ : Type u) (β : Type v) : Layout κ β := ⟨fun m => m.entries, fun _ => .rfl⟩

namespace UnorderedMap

variable {κ : Type u} {β : Type v}

/-- `size()`. -/
def size (m : UnorderedMap κ β) : Nat := m.entries.length

theorem size_eq (m : UnorderedMap κ β) : size m = m.keys.length := by
  simp [size, AList.keys, List.keys]

/-- A map with at most one key. -/
theorem size_le_one {k : κ} {m : UnorderedMap κ β} (h : ∀ a ∈ m, a = k) : size m ≤ 1 := by
  have hsub : m.keys ⊆ [k] := fun a ha => List.mem_singleton.2 (h a (AList.mem_keys.2 ha))
  rw [size_eq]
  exact (List.subperm_of_subset m.keys_nodup hsub).length_le

/-! ## Sizes -/

variable {m m' : UnorderedMap κ β} {k : κ}

/-- A map with fewer keys is not larger. -/
theorem size_le_of_forall (h : ∀ a ∈ m, a ∈ m') : size m ≤ size m' := by
  have hsub : m.keys ⊆ m'.keys := fun a ha => AList.mem_keys.1 (h a (AList.mem_keys.2 ha))
  rw [size_eq, size_eq]
  exact (List.subperm_of_subset m.keys_nodup hsub).length_le

/-- It is smaller if a key is missing. -/
theorem size_lt_of_forall (h : ∀ a ∈ m, a ∈ m') (hk : k ∈ m') (hn : k ∉ m) :
    size m < size m' := by
  have hsub : k :: m.keys ⊆ m'.keys := by
    refine List.cons_subset.2 ⟨AList.mem_keys.1 hk, fun a ha => ?_⟩
    exact AList.mem_keys.1 (h a (AList.mem_keys.2 ha))
  have hnodup : (k :: m.keys).Nodup :=
    List.nodup_cons.2 ⟨fun hm => hn (AList.mem_keys.2 hm), m.keys_nodup⟩
  rw [size_eq, size_eq]
  exact (List.subperm_of_subset hnodup hsub).length_le

section Insert

variable [DecidableEq κ] {v : β}

theorem mem_of_lookup (h : m.lookup k = some v) : k ∈ m :=
  AList.lookup_isSome.1 (Option.isSome_of_mem h)

theorem mem_congr (h : m.lookup k = m'.lookup k) : k ∈ m ↔ k ∈ m' := by
  rw [← AList.lookup_isSome, h, AList.lookup_isSome]

theorem exists_lookup (h : k ∈ m) : ∃ v, m.lookup k = some v :=
  Option.isSome_iff_exists.1 (AList.lookup_isSome.2 h)

theorem size_insert_le (m : UnorderedMap κ β) (k : κ) (v : β) :
    size (m.insert k v) ≤ size m + 1 := by
  rw [size_eq, size_eq, AList.keys_insert, List.length_cons]
  exact Nat.succ_le_succ (List.length_erase_le)

theorem size_insert_of_not_mem (h : k ∉ m) (v : β) : size (m.insert k v) = size m + 1 := by
  rw [size_eq, size_eq, AList.keys_insert, List.length_cons,
    List.erase_of_not_mem fun hm => h (AList.mem_keys.2 hm)]

theorem size_insert_of_mem (h : k ∈ m) (v : β) : size (m.insert k v) = size m := by
  refine le_antisymm (size_le_of_forall fun a ha => ?_) (size_le_of_forall fun a ha => ?_)
  · rcases (AList.mem_insert _).1 ha with rfl | ha
    · exact h
    · exact ha
  · exact (AList.mem_insert _).2 (.inr ha)

theorem size_erase_lt (h : k ∈ m) : size (m.erase k) < size m :=
  size_lt_of_forall (fun _ ha => (AList.mem_erase.1 ha).2) h fun hk => (AList.mem_erase.1 hk).1 rfl

end Insert

end UnorderedMap

end LiteCode
