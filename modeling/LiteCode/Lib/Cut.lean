import Mathlib.Data.List.TakeWhile

/-!
# Texts cut at a separator

A reader of a text looks for the first separator and goes on with what stands before and after it.

* `takeWhile_ne_append`, `dropWhile_ne_append`: a text cut at the first of one character;
  `exists_append_of_mem`: every text with that character is of this form;
* `cutAt`: a text cut at the first place where a pattern stands; `cutAt_append`: the pattern is
  found where its first character is.
-/

namespace LiteCode

variable {α : Type*} [DecidableEq α] {x : α} {a d l : List α}

/-! ## One character -/

theorem forall_ne_of_notMem (ha : x ∉ a) : ∀ y ∈ a, decide (y ≠ x) = true :=
  fun _ hy => decide_eq_true fun h => ha (h ▸ hy)

theorem takeWhile_ne_append (ha : x ∉ a) : (a ++ x :: d).takeWhile (· ≠ x) = a := by
  rw [List.takeWhile_append_of_pos (forall_ne_of_notMem ha), List.takeWhile_cons_of_neg (by simp),
    List.append_nil]

theorem dropWhile_ne_append (ha : x ∉ a) : (a ++ x :: d).dropWhile (· ≠ x) = x :: d := by
  rw [List.dropWhile_append_of_pos (forall_ne_of_notMem ha), List.dropWhile_cons_of_neg (by simp)]

theorem takeWhile_ne_of_notMem (ha : x ∉ a) : a.takeWhile (· ≠ x) = a :=
  List.takeWhile_eq_self_iff.2 (forall_ne_of_notMem ha)

theorem dropWhile_ne_of_notMem (ha : x ∉ a) : a.dropWhile (· ≠ x) = [] :=
  List.dropWhile_eq_nil_iff.2 (forall_ne_of_notMem ha)

/-- What stands before and after the first separator, if there is one. -/
theorem cut_cases (x : α) (l : List α) : x ∉ l ∨ ∃ a d, l = a ++ x :: d ∧ x ∉ a := by
  by_cases hx : x ∈ l
  · obtain ⟨a, d, h, ha⟩ := List.eq_append_cons_of_mem hx
    exact .inr ⟨a, d, h, ha⟩
  · exact .inl hx

/-! ## A pattern -/

variable {pat p q s : List α}

/-- What stands before and after the first place where the pattern is. -/
def cutAt (pat : List α) : List α → Option (List α × List α)
  | [] => if pat = [] then some ([], []) else none
  | c :: t =>
    if pat.isPrefixOf (c :: t) then some ([], (c :: t).drop pat.length)
    else (cutAt pat t).map fun r => (c :: r.1, r.2)

theorem eq_append_of_cutAt (h : cutAt pat s = some (p, q)) : s = p ++ (pat ++ q) := by
  induction s generalizing p with
  | nil =>
    rw [cutAt] at h
    split at h
    · next hpat =>
      cases h
      rw [hpat]
      rfl
    · cases h
  | cons c t ih =>
    rw [cutAt] at h
    split at h
    · next hpat =>
      cases h
      exact (List.prefix_iff_eq_append.1 (List.isPrefixOf_iff_prefix.1 hpat)).symm
    · obtain ⟨⟨p', q'⟩, hcut, hp⟩ := Option.map_eq_some_iff.1 h
      cases hp
      rw [ih hcut]
      rfl

/-- The pattern is found where its first character is. -/
theorem cutAt_append (hp : x ∉ p) : cutAt (x :: pat) (p ++ (x :: pat ++ q)) = some (p, q) := by
  induction p with
  | nil =>
    have h : (x :: pat).isPrefixOf (x :: pat ++ q) = true :=
      List.isPrefixOf_iff_prefix.2 (List.prefix_append _ _)
    rw [List.nil_append]
    rw [List.cons_append] at h ⊢
    rw [cutAt, if_pos h, ← List.cons_append, List.drop_left]
  | cons c p ih =>
    have hne : x ≠ c := fun h => hp (h ▸ List.mem_cons_self)
    have h : (x :: pat).isPrefixOf (c :: (p ++ (x :: pat ++ q))) = false := by
      simp [List.isPrefixOf, hne]
    rw [List.cons_append, cutAt, if_neg (by rw [h]; exact Bool.false_ne_true),
      ih fun hx => hp (List.mem_cons_of_mem _ hx)]
    rfl

end LiteCode
