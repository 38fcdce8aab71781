import Mathlib.Data.List.Nodup
import Mathlib.Order.Lattice

/-!
# Sorted maps

`std::map`: a finite map whose entries are kept in the order of their keys. A loop over the map
visits them in that order.

* `SortedMap`: the entries, sorted by key, so that no key occurs twice;
* `SortedMap.find?`, `SortedMap.assign`: looking a key up, and `m[k] = v`;
* `find?_eq_some_iff`: the entries are what is found; `find?_assign`: what an assignment changes.
-/

namespace LiteCode

universe u v

/-- A map from `κ` to `β`. -/
structure SortedMap (κ : Type u) (β : Type v) [LinearOrder κ] where
  entries : List (κ × β)
  sorted : entries.Pairwise fun p q => p.1 < q.1

namespace SortedMap

variable {κ : Type u} {β : Type v} [LinearOrder κ] (m : SortedMap κ β) {k k' : κ} {v : β}

/-- A map without entries. -/
def empty : SortedMap κ β := ⟨[], .nil⟩

/-- The value of a key. -/
def find? (k : κ) : Option β := (m.entries.find? fun p => p.1 = k).map Prod.snd

/-- The entries after `m[k] = v`. -/
def assigned (k : κ) (v : β) (l : List (κ × β)) : List (κ × β) :=
  l.filter (fun p => p.1 < k) ++ (k, v) :: l.filter fun p => k < p.1

theorem sorted_assigned (k : κ) (v : β) :
    (assigned k v m.entries).Pairwise fun p q => p.1 < q.1 := by
  refine List.pairwise_append.2
    ⟨m.sorted.filter _, List.pairwise_cons.2 ⟨?_, m.sorted.filter _⟩, ?_⟩
  · intro p hp
    simpa using (List.mem_filter.1 hp).2
  · intro p hp q hq
    have hpk : p.1 < k := by simpa using (List.mem_filter.1 hp).2
    rcases List.mem_cons.1 hq with rfl | hq
    · exact hpk
    · exact lt_trans hpk (by simpa using (List.mem_filter.1 hq).2)

/-- `m[k] = v`. -/
def assign (k : κ) (v : β) : SortedMap κ β := ⟨assigned k v m.entries, m.sorted_assigned k v⟩

variable {m}

theorem mem_assign {p : κ × β} :
    p ∈ (m.assign k v).entries ↔ p = (k, v) ∨ p ∈ m.entries ∧ p.1 ≠ k := by
  simp only [assign, assigned, List.mem_append, List.mem_filter, List.mem_cons, decide_eq_true_eq,
    ne_iff_lt_or_gt]
  tauto

/-- A key has one value. -/
theorem eq_of_mem {p q : κ × β} (hp : p ∈ m.entries) (hq : q ∈ m.entries) (h : p.1 = q.1) :
    p = q := by
  have hnodup : (m.entries.map Prod.fst).Nodup :=
    List.pairwise_map.2 (m.sorted.imp fun hlt => ne_of_lt hlt)
  exact List.inj_on_of_nodup_map hnodup hp hq h

theorem find?_eq_some_iff : m.find? k = some v ↔ (k, v) ∈ m.entries := by
  rw [find?, Option.map_eq_some_iff]
  constructor
  · rintro ⟨⟨k', v'⟩, hfind, rfl⟩
    have hk : k' = k := by simpa using List.find?_some hfind
    rw [← hk]
    exact List.mem_of_find?_eq_some hfind
  · intro hmem
    have hsome : (m.entries.find? fun p => p.1 = k).isSome :=
      List.find?_isSome.2 ⟨(k, v), hmem, by simp⟩
    obtain ⟨p, hp⟩ := Option.isSome_iff_exists.1 hsome
    have hk : p.1 = k := by simpa using List.find?_some hp
    exact ⟨p, hp, congrArg Prod.snd (eq_of_mem (List.mem_of_find?_eq_some hp) hmem hk)⟩

/-- An assignment changes the value of its key only. -/
theorem find?_assign : (m.assign k v).find? k' = if k' = k then some v else m.find? k' := by
  ext w
  rw [find?_eq_some_iff, mem_assign]
  by_cases hk : k' = k
  · simp [hk, eq_comm]
  · simp [hk, find?_eq_some_iff]

end SortedMap

end LiteCode
