import LiteCode.Judge.Compare

/-!
# The strictness of the comparators

The comparators of texts should be ordered: what `exact` accepts is accepted by `ignore_trailing`,
and what that accepts by `ignore_all_whitespace`. The second step fails: a run of blanks at the end
of a line is removed by one, but only folded into a space by the other.

* `foldLine_eq`: the folded line is that of the line without the blanks at its end, with a space
  after it if there were any;
* `compareIgnoreTrailing_iff`: the lines are the same up to the blanks at their ends;
* `ordered_iff`: the comparators are ordered on two texts iff these differ in more than the blanks
  at the ends of lines, or a line with text ends in a blank in both or in neither.
-/

namespace LiteCode.Judge

/-- There is more than whitespace in the line. -/
def hasText (l : Bytes) : Bool := l.any fun b => !isSpace b

/-- The lines of a file, with the one after the last newline, which may be empty. -/
def eachLine (t : Bytes) : List Bytes := (lines 0x0A t).1 ++ [(lines 0x0A t).2]

/-- The lines are the same, up to the blanks at their ends. -/
def UpToTrailing (a b : Bytes) : Prop := (eachLine a).map rstrip = (eachLine b).map rstrip

/-- A line with text ends in a blank in both files or in neither. -/
def SameEnds (a b : Bytes) : Prop :=
  ∀ p ∈ (eachLine a).zip (eachLine b), hasText p.1 → endsInBlank p.1 = endsInBlank p.2

/-- What is accepted is accepted by the comparators that are less strict. -/
def Ordered (a b : Bytes) : Prop :=
  (compareExact a b = true → compareIgnoreTrailing a b = true) ∧
    (compareIgnoreTrailing a b = true → compareIgnoreAllWhitespace a b = true)

instance (a b : Bytes) : Decidable (UpToTrailing a b) := inferInstanceAs (Decidable (_ = _))

instance (a b : Bytes) : Decidable (SameEnds a b) := inferInstanceAs (Decidable (∀ p ∈ _, _))

instance (a b : Bytes) : Decidable (Ordered a b) := inferInstanceAs (Decidable (_ ∧ _))

/-! ## One line -/

variable {l l' : Bytes}

theorem isSpace_of_isBlank {b : UInt8} (h : isBlank b = true) : isSpace b = true := by
  rw [isBlank, Bool.or_eq_true, beq_iff_eq, beq_iff_eq] at h
  rcases h with rfl | rfl <;> rfl

theorem hasText_iff : hasText l = true ↔ ∃ b ∈ l, isSpace b = false := by
  simp [hasText]

/-- The text of a line is not at the blanks at its end. -/
theorem hasText_rstrip (l : Bytes) : hasText (rstrip l) = hasText l := by
  have hl : rstrip l ++ l.rtakeWhile isBlank = l := List.rdropWhile_append_rtakeWhile ..
  have hblank : ∀ b ∈ l.rtakeWhile isBlank, isSpace b = true :=
    fun b hb => isSpace_of_isBlank (List.mem_rtakeWhile_imp hb)
  rw [Bool.eq_iff_iff, hasText_iff, hasText_iff]
  constructor
  · rintro ⟨b, hb, hs⟩
    exact ⟨b, (List.rdropWhile_prefix isBlank l).subset hb, hs⟩
  · rintro ⟨b, hb, hs⟩
    rw [← hl, List.mem_append] at hb
    rcases hb with hb | hb
    · exact ⟨b, hb, hs⟩
    · rw [hblank b hb] at hs
      cases hs

theorem endsInBlank_iff (hl : l ≠ []) : endsInBlank l = isBlank (l.getLast hl) := by
  rw [endsInBlank, List.getLast?_eq_some_getLast hl, Option.any_some]

theorem isEmpty_rtakeWhile (l : Bytes) : (l.rtakeWhile isBlank).isEmpty = !endsInBlank l := by
  rw [Bool.eq_iff_iff, List.isEmpty_iff, List.rtakeWhile_eq_nil_iff]
  by_cases hl : l = []
  · subst hl
    simp [endsInBlank]
  · simp [hl, endsInBlank_iff hl]

/-- Folding keeps the text of a line, and brings in no text. -/
theorem hasText_squeeze (l : Bytes) : hasText (squeeze isBlank 0x20 false l) = hasText l := by
  rw [Bool.eq_iff_iff, hasText_iff, hasText_iff]
  constructor
  · rintro ⟨b, hb, hs⟩
    rcases mem_squeeze hb with rfl | hb
    · cases hs
    · exact ⟨b, hb, hs⟩
  · rintro ⟨b, hb, hs⟩
    refine ⟨b, mem_squeeze_of_not ?_ hb, hs⟩
    by_contra hblank
    rw [isSpace_of_isBlank (by simpa using hblank)] at hs
    cases hs

theorem foldLine_eq (l : Bytes) : foldLine l = if hasText l then
    some (squeeze isBlank 0x20 false (rstrip l) ++ if endsInBlank l then [0x20] else [])
    else none := by
  have hall : ((squeeze isBlank 0x20 false l).all isSpace : Bool) = !hasText l := by
    rw [← hasText_squeeze, hasText, ← List.not_all_eq_any_not, Bool.not_not]
  rw [foldLine, hall]
  cases ht : hasText l with
  | false => rfl
  | true =>
    rw [← hasText_rstrip, hasText_iff] at ht
    obtain ⟨b, hb, -⟩ := ht
    have hne : rstrip l ≠ [] := List.ne_nil_of_mem hb
    -- the blanks at the end come after a byte that is none
    have hlast : isBlank ((rstrip l).getLast hne) = false :=
      Bool.eq_false_iff.2 (List.rdropWhile_last_not isBlank l hne)
    have hblank : ∀ d ∈ l.rtakeWhile isBlank, isBlank d = true :=
      fun _ hd => List.mem_rtakeWhile_imp hd
    have hsq : squeeze isBlank 0x20 false (rstrip l ++ l.rtakeWhile isBlank) = _ :=
      squeeze_append hne hlast hblank
    rw [rstrip, List.rdropWhile_append_rtakeWhile, isEmpty_rtakeWhile] at hsq
    rw [hsq]
    cases endsInBlank l <;> rfl

/-- Two lines that are the same up to the blanks at their ends. -/
theorem foldLine_eq_iff (h : rstrip l = rstrip l') :
    foldLine l = foldLine l' ↔ (hasText l → endsInBlank l = endsInBlank l') := by
  have ht : hasText l = hasText l' := by rw [← hasText_rstrip l, h, hasText_rstrip]
  rw [foldLine_eq, foldLine_eq, h, ht]
  cases hasText l' with
  | false => simp
  | true => cases endsInBlank l <;> cases endsInBlank l' <;> simp

/-! ## The lines of a file -/

theorem edits_rstrip : Edits 0x0A fun l => some (rstrip l) where
  unbroken := by
    rintro l _ hl ⟨⟩ hmem
    exact hl ((List.rdropWhile_prefix isBlank l).subset hmem)
  nil := rfl

theorem edits_foldLine : Edits 0x0A foldLine where
  unbroken := by
    intro l l' hl hf hmem
    rw [foldLine] at hf
    split_ifs at hf
    cases hf
    rcases mem_squeeze hmem with h | h
    · cases h
    · exact hl h
  nil := rfl

/-- The lines of two files correspond, and so do their last ones. -/
theorem upToTrailing_iff (a b : Bytes) : UpToTrailing a b ↔
    (lines 0x0A a).1.map rstrip = (lines 0x0A b).1.map rstrip ∧
      rstrip (lines 0x0A a).2 = rstrip (lines 0x0A b).2 := by
  rw [UpToTrailing, eachLine, eachLine, List.map_append, List.map_append]
  constructor
  · intro h
    obtain ⟨h₁, h₂⟩ := List.append_inj' h rfl
    exact ⟨h₁, List.singleton_inj.1 h₂⟩
  · rintro ⟨h₁, h₂⟩
    rw [h₁, List.map_singleton, List.map_singleton, h₂]

theorem compareIgnoreTrailing_iff (a b : Bytes) :
    compareIgnoreTrailing a b = true ↔ UpToTrailing a b := by
  rw [compareIgnoreTrailing, beq_iff_eq, rstripLines, rstripLines, editLines_eq_iff edits_rstrip,
    upToTrailing_iff, List.filterMap_eq_map']
  rfl

theorem filterMap_foldLine_iff {ls ls' : List Bytes} (h : ls.map rstrip = ls'.map rstrip) :
    ls.filterMap foldLine = ls'.filterMap foldLine ↔
      ∀ p ∈ ls.zip ls', hasText p.1 → endsInBlank p.1 = endsInBlank p.2 := by
  induction ls generalizing ls' with
  | nil =>
    rw [List.map_nil, eq_comm, List.map_eq_nil_iff] at h
    simp [h]
  | cons l ls ih =>
    cases ls' with
    | nil => cases h
    | cons l' ls' =>
      obtain ⟨hl, hls⟩ := List.cons.inj h
      have ht : (foldLine l).isSome = (foldLine l').isSome := by
        rw [foldLine_eq, foldLine_eq, ← hasText_rstrip l, ← hasText_rstrip l', hl]
        cases hasText (rstrip l') <;> rfl
      rw [List.zip_cons_cons, List.forall_mem_cons, ← ih hls, ← foldLine_eq_iff hl]
      -- both lines are deleted or both are kept
      cases hf : foldLine l <;> cases hf' : foldLine l' <;> simp_all

/-- Of two files that are the same up to the blanks at the ends of their lines. -/
theorem compareIgnoreAllWhitespace_iff {a b : Bytes} (h : UpToTrailing a b) :
    compareIgnoreAllWhitespace a b = true ↔ SameEnds a b := by
  rw [upToTrailing_iff] at h
  obtain ⟨hls, htail⟩ := h
  have hlen : (lines 0x0A a).1.length = (lines 0x0A b).1.length := by
    simpa using congrArg List.length hls
  have htext : hasText (lines 0x0A a).2 = hasText (lines 0x0A b).2 := by
    rw [← hasText_rstrip, htail, hasText_rstrip]
  have hget : (foldLine (lines 0x0A a).2).getD [] = (foldLine (lines 0x0A b).2).getD [] ↔
      foldLine (lines 0x0A a).2 = foldLine (lines 0x0A b).2 := by
    rw [foldLine_eq, foldLine_eq, htext]
    cases hasText (lines 0x0A b).2 <;> simp
  rw [compareIgnoreAllWhitespace, beq_iff_eq, foldLines, foldLines,
    editLines_eq_iff edits_foldLine, filterMap_foldLine_iff hls, hget, foldLine_eq_iff htail,
    SameEnds, eachLine, eachLine, List.zip_append hlen, List.forall_mem_append]
  simp

theorem compareIgnoreTrailing_self (a : Bytes) : compareIgnoreTrailing a a = true :=
  beq_self_eq_true _

/-- The comparators are ordered on two texts iff these differ in more than the blanks at the ends
    of lines, or a line with text ends in a blank in both or in neither. -/
theorem ordered_iff (a b : Bytes) : Ordered a b ↔ ¬UpToTrailing a b ∨ SameEnds a b := by
  have hexact : compareExact a b = true → compareIgnoreTrailing a b = true := by
    intro h
    rw [beq_iff_eq.1 h]
    exact compareIgnoreTrailing_self b
  rw [Ordered, and_iff_right hexact, compareIgnoreTrailing_iff]
  constructor
  · intro h
    by_cases hu : UpToTrailing a b
    · exact .inr ((compareIgnoreAllWhitespace_iff hu).1 (h hu))
    · exact .inl hu
  · rintro (hn | hs) hu
    · exact absurd hu hn
    · exact (compareIgnoreAllWhitespace_iff hu).2 hs

/-- Two blanks after a word are ignored at the end of a line, but not with all whitespace. -/
theorem hello_not_ordered : ¬Ordered (bytes "hello  \n") (bytes "hello\n") := by
  decide +kernel

end LiteCode.Judge
