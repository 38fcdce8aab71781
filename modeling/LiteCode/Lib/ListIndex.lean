import Mathlib.Data.List.Nodup
import Mathlib.Tactic.SplitIfs

/-!
# Lists as tables

A list whose entries are changed in place (`List.set`) or added at its end: what is at an index
afterwards. The entries are the threads or the calls of a system; an index stays that of its entry.

* `getElem?_set_cases`, `getElem?_concat_cases`: an entry after a change is the new one or an old
  one;
* `getElem?_set_of_some`, `getElem?_set_of_ne`, `getElem?_append_of_some`: where the new one and
  the old ones are;
* `countP_set_add`: how many entries have a property;
* `countP_map_key_add`: the same, when the entry is found by a key and not by its index;
* `flatMap_set_perm`: what the entries hold together;
* `forall_mem_concat`, `nodup_map_concat`: what holds of a table still holds with a new entry;
* `mem_of_find?_key`, `exists_find?_key_iff`, `find?_key_eq_some_iff`: the entry with a key, and
  `findIdx?_key_eq_some_iff`: its index;
* `nodup_eraseDups`, `filter_eraseDups`: the entries without repetitions;
* `filterMap_of_nodup`: what a function makes of the entries, if it makes something of one only.
-/

namespace LiteCode

variable {α : Type*} {l : List α} {j k : Nat} {v x y : α}

/-- The entry that is set. -/
theorem getElem?_set_of_some (hk : l[k]? = some v) : (l.set k y)[k]? = some y :=
  List.getElem?_set_self (List.getElem?_eq_some_iff.1 hk).1

/-- An entry that is different from the one that is set. -/
theorem getElem?_set_of_ne (hk : l[k]? = some v) (hj : l[j]? = some x) (hne : v ≠ x) :
    (l.set k y)[j]? = some x := by
  rw [List.getElem?_set_ne, hj]
  rintro rfl
  exact hne (Option.some.inj (hk.symm.trans hj))

/-- An entry is the one that was set, or was there before. -/
theorem getElem?_set_cases (h : (l.set k y)[j]? = some x) :
    (j = k ∧ x = y) ∨ (j ≠ k ∧ l[j]? = some x) := by
  rw [List.getElem?_set] at h
  split_ifs at h with hkj hlt
  · exact .inl ⟨hkj.symm, (Option.some.inj h).symm⟩
  · exact .inr ⟨Ne.symm hkj, h⟩

/-- The entries stay where they are when others are added. -/
theorem getElem?_append_of_some {l' : List α} (hk : l[k]? = some v) : (l ++ l')[k]? = some v := by
  rw [List.getElem?_append_left (List.getElem?_eq_some_iff.1 hk).1, hk]

/-- An entry was there before, or is the one that was added. -/
theorem getElem?_concat_cases (h : (l ++ [y])[k]? = some x) :
    l[k]? = some x ∨ k = l.length ∧ x = y := by
  rw [List.getElem?_append] at h
  split_ifs at h with hk
  · exact .inl h
  · obtain ⟨hlt, he⟩ := List.getElem?_eq_some_iff.1 h
    rw [List.length_singleton] at hlt
    rw [List.getElem_singleton] at he
    exact .inr ⟨by omega, he.symm⟩

/-- Setting an entry counts the new one in place of the old one. -/
theorem countP_set_add {p : α → Bool} (hk : l[k]? = some v) :
    (l.set k y).countP p + (if p v then 1 else 0) = l.countP p + if p y then 1 else 0 := by
  obtain ⟨hlt, rfl⟩ := List.getElem?_eq_some_iff.1 hk
  rw [List.countP_set hlt]
  by_cases hv : p l[k]
  · have : 0 < l.countP p := List.countP_pos_iff.2 ⟨_, List.getElem_mem hlt, hv⟩
    rw [if_pos hv]
    omega
  · rw [if_neg hv]
    omega

/-- Changing the entry of a key counts the new one in place of the old one. -/
theorem countP_map_key_add {κ : Type*} [DecidableEq κ] {key : α → κ} {g : α → α} {p : α → Bool}
    (hn : (l.map key).Nodup) (hx : x ∈ l) :
    (l.map fun y => if key y = key x then g y else y).countP p + (if p x then 1 else 0) =
      l.countP p + if p (g x) then 1 else 0 := by
  induction l with
  | nil => cases hx
  | cons z l ih =>
    rw [List.map_cons, List.nodup_cons] at hn
    rw [List.map_cons, List.countP_cons, List.countP_cons]
    rcases List.mem_cons.1 hx with rfl | hx
    · -- the other entries have other keys
      have hsame : ∀ y ∈ l, (if key y = key x then g y else y) = id y := by
        intro y hy
        have hne : key y ≠ key x := fun he => hn.1 (he ▸ List.mem_map_of_mem hy)
        rw [if_neg hne, id_eq]
      rw [List.map_congr_left hsame, List.map_id, if_pos rfl]
      omega
    · have hne : key z ≠ key x := fun he => hn.1 (he ▸ List.mem_map_of_mem hx)
      have := ih hn.2 hx
      rw [if_neg hne]
      omega

/-- Setting an entry puts what the new one holds in place of what the old one held. -/
theorem flatMap_set_perm {β : Type*} {f : α → List β} (hk : l[k]? = some v) :
    ((l.set k y).flatMap f ++ f v).Perm (l.flatMap f ++ f y) := by
  induction l generalizing k with
  | nil => cases hk
  | cons a l ih =>
    cases k with
    | zero =>
      cases hk
      simp only [List.set_cons_zero, List.flatMap_cons, List.append_assoc]
      calc (f y ++ (l.flatMap f ++ f v)).Perm (l.flatMap f ++ f v ++ f y) :=
            List.perm_append_comm
        List.Perm _ (f v ++ l.flatMap f ++ f y) := List.perm_append_comm.append_right _
        _ = f v ++ (l.flatMap f ++ f y) := List.append_assoc _ _ _
    | succ k =>
      simp only [List.set_cons_succ, List.flatMap_cons, List.append_assoc]
      exact (ih hk).append_left _

/-! ## An entry at the end -/

section Concat

theorem forall_mem_concat {p : α → Prop} (hl : ∀ x ∈ l, p x) (hy : p y) : ∀ x ∈ l ++ [y], p x :=
  List.forall_mem_append.2 ⟨hl, List.forall_mem_singleton.2 hy⟩

variable {κ : Type*} {key : α → κ}

/-- The keys stay distinct when the new one is not there. -/
theorem nodup_map_concat (hl : (l.map key).Nodup) (hy : ∀ x ∈ l, key x ≠ key y) :
    ((l ++ [y]).map key).Nodup := by
  rw [List.map_append, List.map_singleton, ← List.concat_eq_append]
  refine hl.concat fun hmem => ?_
  obtain ⟨x, hx, he⟩ := List.mem_map.1 hmem
  exact hy x hx he

end Concat

/-! ## Keys -/

section Keys

variable {κ : Type*} [BEq κ] [LawfulBEq κ] {key : α → κ} {a : κ}

/-- What is found is an entry with the key. -/
theorem mem_of_find?_key (h : (l.find? fun r => key r == a) = some x) : x ∈ l ∧ key x = a := by
  have hkey := List.find?_some h
  exact ⟨List.mem_of_find?_eq_some h, beq_iff_eq.1 hkey⟩

theorem find?_key_eq_none_iff : (l.find? fun r => key r == a) = none ↔ a ∉ l.map key := by
  simp only [List.find?_eq_none, beq_iff_eq, List.mem_map, not_exists, not_and]

theorem exists_find?_key_iff :
    (∃ x, (l.find? fun r => key r == a) = some x) ↔ ∃ x ∈ l, key x = a := by
  rw [← Option.ne_none_iff_exists', ne_eq, find?_key_eq_none_iff, not_not, List.mem_map]

/-- Where the keys are distinct, the entry with a key is the only one. -/
theorem find?_key_eq_some_iff (hl : (l.map key).Nodup) :
    (l.find? fun r => key r == a) = some x ↔ x ∈ l ∧ key x = a := by
  refine ⟨mem_of_find?_key, fun ⟨hx, hkey⟩ => ?_⟩
  obtain ⟨y, hy⟩ := exists_find?_key_iff.2 ⟨x, hx, hkey⟩
  obtain ⟨hmem, hkey'⟩ := mem_of_find?_key hy
  rw [hy, List.inj_on_of_nodup_map hl hmem hx (hkey'.trans hkey.symm)]

/-- The index of the entry with a key. -/
theorem findIdx?_key_eq_some_iff (hl : (l.map key).Nodup) :
    (l.findIdx? fun r => key r == a) = some k ↔ ∃ x, l[k]? = some x ∧ key x = a := by
  rw [List.findIdx?_eq_some_iff_getElem]
  constructor
  · rintro ⟨hk, hkey, -⟩
    exact ⟨l[k], List.getElem?_eq_getElem hk, beq_iff_eq.1 hkey⟩
  · rintro ⟨x, hx, rfl⟩
    obtain ⟨hk, rfl⟩ := List.getElem?_eq_some_iff.1 hx
    refine ⟨hk, beq_self_eq_true _, fun j hj hkey => ?_⟩
    -- distinct indices have distinct keys
    have hlt : j < (l.map key).length := by rw [List.length_map]; omega
    have hlt' : k < (l.map key).length := by rw [List.length_map]; omega
    have hsame : (l.map key)[j] = (l.map key)[k] := by
      rw [List.getElem_map, List.getElem_map]
      exact beq_iff_eq.1 hkey
    exact Nat.ne_of_lt hj (hl.getElem_inj_iff.1 hsame)

end Keys

/-! ## Repetitions -/

section Repetitions

variable [BEq α] [LawfulBEq α]

/-- An entry is kept once. -/
theorem nodup_eraseDups (l : List α) : l.eraseDups.Nodup := by
  induction hlen : l.length using Nat.strongRecOn generalizing l with
  | ind n ih =>
    cases l with
    | nil => exact List.nodup_nil
    | cons x l =>
      have hshort : (l.filter fun y => !y == x).length < n := by
        rw [← hlen, List.length_cons]
        exact Nat.lt_succ_of_le (List.length_filter_le _ l)
      rw [List.eraseDups_cons, List.nodup_cons]
      refine ⟨fun hx => ?_, ih _ hshort _ rfl⟩
      simpa using (List.mem_filter.1 (List.mem_eraseDups.1 hx)).2

/-- Entries may be left out before repetitions are, or after. -/
theorem filter_eraseDups (p : α → Bool) (l : List α) :
    l.eraseDups.filter p = (l.filter p).eraseDups := by
  induction hlen : l.length using Nat.strongRecOn generalizing l with
  | ind n ih =>
    cases l with
    | nil => rfl
    | cons x l =>
      have hshort : (l.filter fun y => !y == x).length < n := by
        rw [← hlen, List.length_cons]
        exact Nat.lt_succ_of_le (List.length_filter_le _ l)
      have hrest := ih _ hshort _ rfl
      rw [List.eraseDups_cons]
      by_cases hx : p x
      · rw [List.filter_cons_of_pos hx, List.filter_cons_of_pos hx, List.eraseDups_cons, hrest,
          List.filter_comm]
      · -- the entries that are left out with `x` are left out by `p`
        rw [List.filter_cons_of_neg hx, List.filter_cons_of_neg hx, hrest, List.filter_filter]
        congr 1
        refine List.filter_congr fun y _ => ?_
        by_cases hy : p y
        · have hne : y ≠ x := fun h => hx (h ▸ hy)
          simp [hy, hne]
        · simp [hy]

end Repetitions

/-- A function that is `none` but at `x`, on a list without repetitions. -/
theorem filterMap_of_nodup {β : Type*} {f : α → Option β} (hn : l.Nodup)
    (hx : x ∉ l → f x = none) (h : ∀ y, y ≠ x → f y = none) :
    l.filterMap f = (f x).toList := by
  induction l with
  | nil => rw [hx (List.not_mem_nil), List.filterMap_nil, Option.toList_none]
  | cons y l ih =>
    rw [List.nodup_cons] at hn
    by_cases hy : y = x
    · subst hy
      have hrest : l.filterMap f = [] :=
        List.filterMap_eq_nil_iff.2 fun z hz => h z fun he => hn.1 (he ▸ hz)
      rw [List.filterMap_cons, hrest]
      cases f y <;> rfl
    · rw [List.filterMap_cons, h y hy]
      exact ih hn.2 fun hm => hx fun hc => hm (List.mem_of_ne_of_mem (Ne.symm hy) hc)

end LiteCode
