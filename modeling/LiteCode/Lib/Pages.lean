import Mathlib.Data.List.Basic

/-!
# Pages of a list that grows in front

A list is read page by page, at multiples of the size of a page, while other entries are put in
front of it. What was read then moves back, so that an entry may be on two pages. But no entry is
passed over: it is on a page, or still behind all of them.

* `page`: the page with a number;
* `Ahead`: an entry that has not been read, which stands behind the pages, all of them full;
* `Ahead.grow`, `Ahead.read`: it stays there when the list grows, and the next page has it or leaves
  it there; `not_ahead`: there is no such entry once a page was not full.
-/

namespace LiteCode.Pages

universe u

variable {α : Type u} {n : Nat} {pages : List (List α)} {l l' : List α} {x : α}

/-- The page `k` of a list, with `n` entries to a page. -/
def page (n k : Nat) (l : List α) : List α := (l.drop (k * n)).take n

/-- An entry stands behind the pages that were read, and these were full. -/
def Ahead (n : Nat) (pages : List (List α)) (l : List α) (x : α) : Prop :=
  x ∈ l.drop (pages.length * n) ∧ ∀ p ∈ pages, p.length = n

theorem ahead_nil (h : x ∈ l) : Ahead n [] l x := ⟨by simpa using h, by simp⟩

/-- Behind an index there is at least what was there before the list grew. -/
theorem mem_drop_of_suffix {k : Nat} (hl : l <:+ l') (h : x ∈ l.drop k) : x ∈ l'.drop k := by
  obtain ⟨new, rfl⟩ := hl
  rw [List.drop_append]
  rcases Nat.le_total k new.length with hk | hk
  · rw [Nat.sub_eq_zero_of_le hk, List.drop_zero]
    exact List.mem_append_right _ (List.mem_of_mem_drop h)
  · refine List.mem_append_right _ ?_
    have hle : k - new.length ≤ k := Nat.sub_le _ _
    exact List.drop_subset_drop_left l hle h

theorem Ahead.grow (h : Ahead n pages l x) (hl : l <:+ l') : Ahead n pages l' x :=
  ⟨mem_drop_of_suffix hl h.1, h.2⟩

/-- The next page has the entry, or is full and leaves it behind. -/
theorem Ahead.read (h : Ahead n pages l x) :
    x ∈ page n pages.length l ∨ Ahead n (pages ++ [page n pages.length l]) l x := by
  obtain ⟨hmem, hfull⟩ := h
  rw [← List.take_append_drop n (l.drop (pages.length * n)), List.mem_append] at hmem
  refine hmem.imp id fun hmem => ⟨?_, ?_⟩
  · rwa [List.length_append, List.length_singleton, Nat.add_mul, Nat.one_mul, ← List.drop_drop]
  · intro p hp
    rcases List.mem_append.1 hp with hp | hp
    · exact hfull p hp
    · rw [List.mem_singleton.1 hp, page, List.length_take]
      have hpos := List.length_pos_of_mem hmem
      rw [List.length_drop] at hpos
      omega

theorem not_ahead {p : List α} (hp : p ∈ pages) (h : p.length < n) : ¬Ahead n pages l x :=
  fun hx => absurd (hx.2 p hp) (Nat.ne_of_lt h)

end LiteCode.Pages
