import Mathlib.Data.List.DropRight

/-!
# Texts as lines

A text is cut at a separator into lines: those that end with one, and what follows the last one,
a line without an end. Tools that edit a text line by line keep a missing end as it is.

* `lines`, `unlines`: the lines of a text, and back (`unlines_lines`, `lines_unlines`);
* `editLines`: every line is replaced, or deleted with its end. Two texts give the same result iff
  their lines do (`editLines_eq_iff`);
* `squeeze`: every run of a kind of characters is replaced by one character.
-/

namespace LiteCode

variable {α : Type*}

section Lines

variable [DecidableEq α] (nl : α)

/-- The lines that end with `nl`, without it, and what follows the last one. -/
def lines : List α → List (List α) × List α
  | [] => ([], [])
  | c :: t =>
    match lines t with
    | ([], tail) => if c = nl then ([[]], tail) else ([], c :: tail)
    | (l :: ls, tail) => if c = nl then ([] :: l :: ls, tail) else ((c :: l) :: ls, tail)

/-- The text with these lines. -/
def unlines (p : List (List α) × List α) : List α := p.1.flatMap (· ++ [nl]) ++ p.2

/-- The lines have no separator of their own. -/
structure Unbroken (p : List (List α) × List α) : Prop where
  lines : ∀ l ∈ p.1, nl ∉ l
  tail : nl ∉ p.2

/-- Every line is replaced, or deleted with its end. There is no last line after the last end. -/
def editLines (f : List α → Option (List α)) (t : List α) : List α :=
  let (ls, tail) := lines nl t
  unlines nl (ls.filterMap f, if tail.isEmpty then [] else (f tail).getD [])

variable {nl} {t : List α} {p : List (List α) × List α}

/-! ## Cutting a text -/

omit [DecidableEq α] in
@[simp]
theorem unlines_nil (tail : List α) : unlines nl ([], tail) = tail := rfl

omit [DecidableEq α] in
@[simp]
theorem unlines_cons (l : List α) (ls : List (List α)) (tail : List α) :
    unlines nl (l :: ls, tail) = l ++ nl :: unlines nl (ls, tail) := by
  simp [unlines]

/-- A separator begins a new line. -/
theorem lines_nl (t : List α) : lines nl (nl :: t) = ([] :: (lines nl t).1, (lines nl t).2) := by
  rw [lines]
  split
  · next he => rw [he, if_pos rfl]
  · next he => rw [he, if_pos rfl]

/-- Another character goes to the first line, or to the last one if that is the only one. -/
theorem lines_cons_cases {c : α} (hc : c ≠ nl) (t : List α) :
    (∃ tail, lines nl t = ([], tail) ∧ lines nl (c :: t) = ([], c :: tail)) ∨
      ∃ l ls tail, lines nl t = (l :: ls, tail) ∧
        lines nl (c :: t) = ((c :: l) :: ls, tail) := by
  rw [lines]
  split
  · next tail he => exact .inl ⟨tail, he, if_neg hc⟩
  · next l ls tail he => exact .inr ⟨l, ls, tail, he, if_neg hc⟩

/-- The lines make up the text. -/
theorem unlines_lines (nl : α) (t : List α) : unlines nl (lines nl t) = t := by
  induction t with
  | nil => rfl
  | cons c t ih =>
    by_cases hc : c = nl
    · subst hc
      rw [lines_nl, unlines_cons, ih]
      rfl
    · rcases lines_cons_cases hc t with ⟨tail, he, hct⟩ | ⟨l, ls, tail, he, hct⟩
      · rw [he, unlines_nil] at ih
        rw [hct, unlines_nil, ih]
      · rw [he, unlines_cons] at ih
        rw [hct, unlines_cons, List.cons_append, ih]

/-- No line has a separator in it. -/
theorem unbroken_lines (nl : α) (t : List α) : Unbroken nl (lines nl t) := by
  induction t with
  | nil => exact ⟨fun l hl => absurd hl List.not_mem_nil, List.not_mem_nil⟩
  | cons c t ih =>
    by_cases hc : c = nl
    · subst hc
      rw [lines_nl]
      exact ⟨List.forall_mem_cons.2 ⟨List.not_mem_nil, ih.lines⟩, ih.tail⟩
    · rcases lines_cons_cases hc t with ⟨tail, he, hct⟩ | ⟨l, ls, tail, he, hct⟩
      · rw [he] at ih
        rw [hct]
        exact ⟨ih.lines, List.not_mem_cons_of_ne_of_not_mem (Ne.symm hc) ih.tail⟩
      · rw [he] at ih
        obtain ⟨hl, hls⟩ := List.forall_mem_cons.1 ih.lines
        rw [hct]
        have hcl := List.not_mem_cons_of_ne_of_not_mem (Ne.symm hc) hl
        exact ⟨List.forall_mem_cons.2 ⟨hcl, hls⟩, ih.tail⟩

/-- A line at the beginning. -/
theorem lines_append {l : List α} (h : nl ∉ l) (t : List α) :
    lines nl (l ++ nl :: t) = (l :: (lines nl t).1, (lines nl t).2) := by
  induction l with
  | nil => exact lines_nl t
  | cons c l ih =>
    rw [List.mem_cons, not_or] at h
    rw [List.cons_append, lines, ih h.2]
    exact if_neg (Ne.symm h.1)

/-- A text without separators is a tail. -/
theorem lines_of_not_mem (h : nl ∉ t) : lines nl t = ([], t) := by
  induction t with
  | nil => rfl
  | cons c t ih =>
    rw [List.mem_cons, not_or] at h
    rw [lines, ih h.2]
    exact if_neg (Ne.symm h.1)

/-- Unbroken lines are read back. -/
theorem lines_unlines (h : Unbroken nl p) : lines nl (unlines nl p) = p := by
  obtain ⟨ls, tail⟩ := p
  induction ls with
  | nil => exact lines_of_not_mem h.tail
  | cons l ls ih =>
    rw [unlines_cons, lines_append (h.lines l List.mem_cons_self),
      ih ⟨fun m hm => h.lines m (List.mem_cons_of_mem _ hm), h.tail⟩]

/-! ## Editing the lines -/

/-- An edit that brings in no separator, and makes no line out of nothing. -/
structure Edits (nl : α) (f : List α → Option (List α)) : Prop where
  unbroken : ∀ l l', nl ∉ l → f l = some l' → nl ∉ l'
  nil : (f []).getD [] = []

variable {f : List α → Option (List α)}

omit [DecidableEq α] in
theorem Edits.not_mem_getD (h : Edits nl f) {l : List α} (hl : nl ∉ l) : nl ∉ (f l).getD [] := by
  cases hf : f l with
  | none => exact List.not_mem_nil
  | some l' => exact h.unbroken l l' hl hf

/-- The edited text, line by line. -/
theorem editLines_eq (h : Edits nl f) (t : List α) :
    editLines nl f t = unlines nl ((lines nl t).1.filterMap f, (f (lines nl t).2).getD []) := by
  change unlines nl (_, if (lines nl t).2.isEmpty then [] else _) = _
  split_ifs with ht
  · rw [List.isEmpty_iff.1 ht, h.nil]
  · rfl

/-- The lines of the edited text are the edited lines. -/
theorem lines_editLines (h : Edits nl f) (t : List α) :
    lines nl (editLines nl f t) = ((lines nl t).1.filterMap f, (f (lines nl t).2).getD []) := by
  have hu := unbroken_lines nl t
  rw [editLines_eq h]
  refine lines_unlines ⟨fun l' hl' => ?_, h.not_mem_getD hu.tail⟩
  obtain ⟨l, hl, hf⟩ := List.mem_filterMap.1 hl'
  exact h.unbroken l l' (hu.lines l hl) hf

/-- Two texts are edited alike exactly if their lines are. -/
theorem editLines_eq_iff (h : Edits nl f) (s t : List α) :
    editLines nl f s = editLines nl f t ↔
      (lines nl s).1.filterMap f = (lines nl t).1.filterMap f ∧
        (f (lines nl s).2).getD [] = (f (lines nl t).2).getD [] := by
  rw [← Prod.mk.injEq, ← lines_editLines h s, ← lines_editLines h t]
  constructor
  · exact congrArg _
  · intro he
    rw [← unlines_lines nl (editLines nl f s), he, unlines_lines]

end Lines

/-! ## Runs of characters -/

/-- Every run of characters of a kind is replaced by `c`; `run` tells that the text before ends
    with such a run. -/
def squeeze (p : α → Bool) (c : α) : Bool → List α → List α
  | _, [] => []
  | run, d :: t =>
    if p d then (if run then [] else [c]) ++ squeeze p c true t else d :: squeeze p c false t

variable {q : α → Bool} {c : α} {t : List α}

/-- Squeezing brings in nothing but the one character. -/
theorem mem_squeeze {run : Bool} {d : α} (h : d ∈ squeeze q c run t) : d = c ∨ d ∈ t := by
  induction t generalizing run with
  | nil => exact .inr h
  | cons e t ih =>
    rw [squeeze] at h
    split_ifs at h with he hr
    · exact (ih h).imp_right (List.mem_cons_of_mem _)
    · rcases List.mem_cons.1 h with h | h
      · exact .inl h
      · exact (ih h).imp_right (List.mem_cons_of_mem _)
    · rcases List.mem_cons.1 h with h | h
      · exact .inr (h ▸ List.mem_cons_self)
      · exact (ih h).imp_right (List.mem_cons_of_mem _)

/-- Characters of another kind stay. -/
theorem mem_squeeze_of_not {run : Bool} {d : α} (hd : q d = false) (h : d ∈ t) :
    d ∈ squeeze q c run t := by
  induction t generalizing run with
  | nil => exact h
  | cons e t ih =>
    rw [squeeze]
    rcases List.mem_cons.1 h with rfl | h
    · simp [hd]
    · split_ifs <;> simp [ih h]

/-- Within a run everything of it goes. -/
theorem squeeze_true_of_forall (h : ∀ d ∈ t, q d) : squeeze q c true t = [] := by
  induction t with
  | nil => rfl
  | cons e t ih =>
    rw [squeeze, if_pos (h e List.mem_cons_self), ih fun d hd => h d (List.mem_cons_of_mem _ hd)]
    rfl

/-- A run at the end of a text that has a character of another kind before it. -/
theorem squeeze_append {run : Bool} {l : List α} (hl : l ≠ []) (hlast : q (l.getLast hl) = false)
    (ht : ∀ d ∈ t, q d) :
    squeeze q c run (l ++ t) = squeeze q c run l ++ if t.isEmpty then [] else [c] := by
  induction l generalizing run with
  | nil => exact absurd rfl hl
  | cons e l ih =>
    rw [List.cons_append, squeeze, squeeze]
    cases l with
    | nil =>
      rw [List.getLast_singleton] at hlast
      cases t with
      | nil => simp [hlast, squeeze]
      | cons d t =>
        rw [List.forall_mem_cons] at ht
        simp [hlast, squeeze, ht.1, squeeze_true_of_forall ht.2]
    | cons d l =>
      rw [List.getLast_cons (List.cons_ne_nil d l)] at hlast
      rw [ih _ hlast, ih _ hlast]
      split_ifs <;> simp

end LiteCode
