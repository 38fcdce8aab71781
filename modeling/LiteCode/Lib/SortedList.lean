import Mathlib.Data.List.Forall2
import Mathlib.Data.List.Sort

/-!
# Sorted lists

A list that is sorted by a strict order shows the order by its indices: what stands before an entry
is what is less than it. So the neighbours of an entry in the list are its neighbours in the order,
and the index is the number of the lesser entries. A list that is read in pages is put together from
them.

* `pairwise_insertionSort_of_total`: sorting by an order with no ties gives a strictly sorted list;
* `insertionSort_eq_reverse`: sorting a list that is in the opposite order;
* `pairwise_iff_of_pairwise`: when it is sorted by another order as well;
* `countP_of_getElem?`: the index as a number of entries;
* `IsPred`: the neighbour of an element in an order; `IsPred.unique`, `isPred_getElem?` and
  `isSucc_getElem?`: there is one at most, and in a sorted list it stands next to the element;
* `flatMap_pages`: the pages one after the other;
* `forall₂_mergeSort`: two lists that are alike entry by entry stay so when they are sorted.
-/

namespace LiteCode

variable {α : Type*} {lt : α → α → Prop} {l : List α} {a b : α} {k : Nat}

/-! ## Indices -/

/-- In a sorted list the lesser entries are those before. -/
theorem lt_getElem?_iff (hasymm : ∀ a b, lt a b → ¬lt b a) (hl : l.Pairwise lt) {i j : Nat}
    (hi : l[i]? = some a) (hj : l[j]? = some b) : lt a b ↔ i < j := by
  obtain ⟨hilt, rfl⟩ := List.getElem?_eq_some_iff.1 hi
  obtain ⟨hjlt, rfl⟩ := List.getElem?_eq_some_iff.1 hj
  have hsorted := List.pairwise_iff_getElem.1 hl
  constructor
  · intro h
    rcases Nat.lt_trichotomy i j with hij | rfl | hij
    · exact hij
    · exact absurd h (hasymm _ _ h)
    · exact absurd h (hasymm _ _ (hsorted j i hjlt hilt hij))
  · exact hsorted i j hilt hjlt

/-- A sorted list is in another order too if the one order implies the other. -/
theorem pairwise_iff_of_pairwise {R : α → α → Prop} (hasymm : ∀ a b, lt a b → ¬lt b a)
    (hl : l.Pairwise lt) : l.Pairwise R ↔ ∀ a ∈ l, ∀ b ∈ l, lt a b → R a b := by
  constructor
  · intro h a ha b hb hlt
    obtain ⟨i, hi⟩ := List.getElem?_of_mem ha
    obtain ⟨j, hj⟩ := List.getElem?_of_mem hb
    have hij := (lt_getElem?_iff hasymm hl hi hj).1 hlt
    obtain ⟨hilt, rfl⟩ := List.getElem?_eq_some_iff.1 hi
    obtain ⟨hjlt, rfl⟩ := List.getElem?_eq_some_iff.1 hj
    exact List.pairwise_iff_getElem.1 h i j hilt hjlt hij
  · intro h
    exact hl.imp_of_mem fun ha hb => h _ ha _ hb

/-- The index of an entry is the number of the lesser ones. -/
theorem countP_of_getElem? [DecidableRel lt] (hasymm : ∀ a b, lt a b → ¬lt b a)
    (hl : l.Pairwise lt) (hk : l[k]? = some a) : l.countP (fun b => lt b a) = k := by
  obtain ⟨hklt, rfl⟩ := List.getElem?_eq_some_iff.1 hk
  have hsplit : l.countP (fun b => lt b l[k]) =
      (l.take k).countP (fun b => lt b l[k]) + (l.drop k).countP (fun b => lt b l[k]) := by
    rw [← List.countP_append, List.take_append_drop]
  have hbefore : (l.take k).countP (fun b => lt b l[k]) = (l.take k).length := by
    refine List.countP_eq_length.2 fun b hb => decide_eq_true ?_
    obtain ⟨i, hi⟩ := List.getElem?_of_mem hb
    have hik : i < k := by
      have := (List.getElem?_eq_some_iff.1 hi).1
      rw [List.length_take] at this
      omega
    rw [List.getElem?_take_of_lt hik] at hi
    exact (lt_getElem?_iff hasymm hl hi hk).2 hik
  have hafter : (l.drop k).countP (fun b => lt b l[k]) = 0 := by
    refine List.countP_eq_zero.2 fun b hb h => ?_
    obtain ⟨i, hi⟩ := List.getElem?_of_mem hb
    rw [List.getElem?_drop] at hi
    have := (lt_getElem?_iff hasymm hl hi hk).1 (of_decide_eq_true h)
    omega
  rw [hsplit, hbefore, hafter, List.length_take]
  omega

/-! ## Neighbours -/

/-- `o` is the element of `S` right before `a`; there is none if no element of `S` is less. -/
def IsPred (lt : α → α → Prop) (S : α → Prop) (a : α) : Option α → Prop
  | none => ∀ b, S b → ¬lt b a
  | some q => S q ∧ lt q a ∧ ∀ b, S b → lt b a → b = q ∨ lt b q

/-- There is one neighbour at most. -/
theorem IsPred.unique {S : α → Prop} (hasymm : ∀ a b, lt a b → ¬lt b a) {o p : Option α}
    (h : IsPred lt S a o) (hp : IsPred lt S a p) : o = p := by
  cases o with
  | none =>
    cases p with
    | none => rfl
    | some r => exact absurd hp.2.1 (h r hp.1)
  | some q =>
    cases p with
    | none => exact absurd h.2.1 (hp q h.1)
    | some r =>
      rcases h.2.2 r hp.1 hp.2.1 with heq | hlt
      · exact congrArg some heq.symm
      · rcases hp.2.2 q h.1 h.2.1 with heq | hgt
        · exact congrArg some heq
        · exact absurd hgt (hasymm _ _ hlt)

/-- The neighbour before stands before. -/
theorem isPred_getElem? (hasymm : ∀ a b, lt a b → ¬lt b a) (hl : l.Pairwise lt)
    (hk : l[k]? = some a) : IsPred lt (· ∈ l) a (if k = 0 then none else l[k - 1]?) := by
  obtain ⟨hklt, -⟩ := List.getElem?_eq_some_iff.1 hk
  split_ifs with hzero
  · intro b hb h
    obtain ⟨i, hi⟩ := List.getElem?_of_mem hb
    have := (lt_getElem?_iff hasymm hl hi hk).1 h
    omega
  · have hqlt : k - 1 < l.length := by omega
    have hq : l[k - 1]? = some l[k - 1] := List.getElem?_eq_getElem hqlt
    rw [hq]
    refine ⟨List.getElem_mem _, (lt_getElem?_iff hasymm hl hq hk).2 (by omega), fun b hb h => ?_⟩
    obtain ⟨i, hi⟩ := List.getElem?_of_mem hb
    have hik := (lt_getElem?_iff hasymm hl hi hk).1 h
    by_cases hlast : i = k - 1
    · left
      subst hlast
      rw [hq] at hi
      exact (Option.some.inj hi).symm
    · exact .inr ((lt_getElem?_iff hasymm hl hi hq).2 (by omega))

/-- The neighbour behind stands behind. -/
theorem isSucc_getElem? (hasymm : ∀ a b, lt a b → ¬lt b a) (hl : l.Pairwise lt)
    (hk : l[k]? = some a) : IsPred (fun b c => lt c b) (· ∈ l) a l[k + 1]? := by
  cases hnext : l[k + 1]? with
  | none =>
    intro b hb h
    obtain ⟨i, hi⟩ := List.getElem?_of_mem hb
    have hki := (lt_getElem?_iff hasymm hl hk hi).1 h
    have := (List.getElem?_eq_some_iff.1 hi).1
    rw [List.getElem?_eq_none_iff] at hnext
    omega
  | some q =>
    refine ⟨List.mem_of_getElem? hnext, (lt_getElem?_iff hasymm hl hk hnext).2 (by omega),
      fun b hb h => ?_⟩
    obtain ⟨i, hi⟩ := List.getElem?_of_mem hb
    have hki := (lt_getElem?_iff hasymm hl hk hi).1 h
    by_cases hfirst : i = k + 1
    · left
      subst hfirst
      rw [hnext] at hi
      exact (Option.some.inj hi).symm
    · exact .inr ((lt_getElem?_iff hasymm hl hnext hi).2 (by omega))

/-! ## Sorting -/

/-- Sorting by an order that tells distinct keys apart gives a strictly sorted list. -/
theorem pairwise_insertionSort_of_total {κ : Type*} {key : α → κ} {le : α → α → Prop}
    [DecidableRel le] [Std.Total le] [IsTrans α le]
    (hle : ∀ a b, le a b → key a ≠ key b → lt a b) (hnodup : (l.map key).Nodup) :
    (l.insertionSort le).Pairwise lt := by
  have hkeys : (l.insertionSort le).Pairwise fun a b => key a ≠ key b := by
    have hperm := ((List.perm_insertionSort le l).map key).nodup_iff.2 hnodup
    exact List.pairwise_map.1 hperm
  exact (List.pairwise_insertionSort le l).imp₂ (fun a b => hle a b) hkeys

/-- An entry that goes before none of a list is put at its end. -/
theorem orderedInsert_eq_concat {R : α → α → Prop} [DecidableRel R] (h : ∀ b ∈ l, ¬R a b) :
    l.orderedInsert R a = l ++ [a] := by
  induction l with
  | nil => rfl
  | cons b l ih =>
    rw [List.orderedInsert, if_neg (h b List.mem_cons_self), ih fun c hc =>
      h c (List.mem_cons_of_mem _ hc)]
    rfl

/-- A list in which nothing goes before what follows it is sorted by turning it round. -/
theorem insertionSort_eq_reverse {R : α → α → Prop} [DecidableRel R]
    (h : l.Pairwise fun a b => ¬R a b) : l.insertionSort R = l.reverse := by
  induction h with
  | nil => rfl
  | cons ha _ ih =>
    rw [List.insertionSort_cons, ih, List.reverse_cons]
    exact orderedInsert_eq_concat fun b hb => ha b (List.mem_reverse.1 hb)

/-! ## Pages -/

/-- The pages of a list, one after the other. -/
theorem flatMap_pages (l : List α) (size n : Nat) :
    ((List.range n).flatMap fun i => (l.drop (i * size)).take size) = l.take (n * size) := by
  induction n with
  | zero => simp
  | succ n ih =>
    rw [List.range_succ, List.flatMap_append, ih, List.flatMap_singleton, Nat.succ_mul,
      List.take_add]

/-! ## Sorting two lists -/

/-- Two lists that are alike entry by entry, in orders that agree on these, stay so when they are
    sorted. -/
theorem forall₂_mergeSort {β : Type*} {R : α → β → Prop} {le : α → α → Bool} {le' : β → β → Bool}
    {l' : List β} (h : List.Forall₂ R l l')
    (hle : ∀ {a b : α} {a' b' : β}, R a a' → R b b' → le a b = le' a' b') :
    List.Forall₂ R (l.mergeSort le) (l'.mergeSort le') := by
  obtain ⟨hlength, hzip⟩ := List.forall₂_iff_zip.1 h
  have hfst : (l.zip l').map Prod.fst = l := List.map_fst_zip hlength.le
  have hsnd : (l.zip l').map Prod.snd = l' := List.map_snd_zip hlength.ge
  -- both are sorted as the list of the pairs is
  have hleft : ((l.zip l').mergeSort fun x y => le x.1 y.1).map Prod.fst = l.mergeSort le := by
    rw [List.map_mergeSort (s := le) fun _ _ _ _ => rfl, hfst]
  have hright : ((l.zip l').mergeSort fun x y => le x.1 y.1).map Prod.snd = l'.mergeSort le' := by
    rw [List.map_mergeSort (s := le') fun x hx y hy => hle (hzip hx) (hzip hy), hsnd]
  rw [← hleft, ← hright, List.forall₂_map_left_iff, List.forall₂_map_right_iff, List.forall₂_same]
  exact fun x hx => hzip (List.mem_mergeSort.1 hx)

end LiteCode
