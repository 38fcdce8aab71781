import Mathlib.Data.List.Infix
import Mathlib.Tactic.SplitIfs
import LiteCode.Lib.Utf8

/-!
# Making a text fit for JSON

`sanitize_utf8` of `src/routes/solution_routes.h` puts a `?` for every byte that is not part of a
UTF-8 character. It looks at the upper bits of the bytes only, so that what it takes for a
character may be none: an overlong form, a surrogate, or a code point above U+10FFFF.

* `tailLength`, `sanitizeUtf8`: the decoder; `Kept`: the byte sequences that it keeps;
* `Loose`: the sequences that it keeps though they are no characters;
* `run_kept`: a sequence that it keeps is one character, or is loose;
* `sanitizeUtf8_of_wellFormed`: a well-formed text stays as it is;
* `sanitizeUtf8_sanitizeUtf8`: a second pass changes nothing;
* `wellFormed_sanitizeUtf8_iff`: the result is well-formed exactly if the text has nothing loose.
-/

namespace LiteCode.SolutionRoutes

open Utf8

/-- `(b & 0xC0) == 0x80`. -/
def IsContinuation (b : UInt8) : Prop := b &&& 0xC0 = 0x80

instance (b : UInt8) : Decidable (IsContinuation b) := inferInstanceAs (Decidable (_ = _))

/-- The number of continuation bytes after the byte `c`, by its upper bits; `none` for a
    continuation byte and for an invalid lead byte. -/
def tailLength (c : UInt8) : Option Nat :=
  if c < 0x80 then some 0
  else if c &&& 0xE0 = 0xC0 then some 1
  else if c &&& 0xF0 = 0xE0 then some 2
  else if c &&& 0xF8 = 0xF0 then some 3
  else none

/-- The bytes at the head of `l` are `n` continuation bytes. -/
def Continued (n : Nat) (l : Bytes) : Prop := n ≤ l.length ∧ ∀ b ∈ l.take n, IsContinuation b

instance (n : Nat) (l : Bytes) : Decidable (Continued n l) :=
  inferInstanceAs (Decidable (_ ∧ _))

/-- `sanitize_utf8`. -/
def sanitizeUtf8 : Bytes → Bytes
  | [] => []
  | c :: l =>
    match tailLength c with
    | some n =>
      if Continued n l then c :: l.take n ++ sanitizeUtf8 (l.drop n)
      else 0x3F :: sanitizeUtf8 l
    | none => 0x3F :: sanitizeUtf8 l
  termination_by s => s.length
  decreasing_by all_goals grind

/-! ## What it keeps -/

/-- The sequence is one that the decoder keeps: a lead byte and its continuation bytes. -/
inductive Kept : Bytes → Prop
  | mk {c : UInt8} {l : Bytes} : tailLength c = some l.length → (∀ b ∈ l, IsContinuation b) →
      Kept (c :: l)

/-- The sequence looks like a character and is none: an overlong form, a surrogate, or a code
    point above U+10FFFF. -/
def Loose : Bytes → Prop
  | [c, b] => (c = 0xC0 ∨ c = 0xC1) ∧ IsContinuation b
  | [c, b, d] => (c = 0xE0 ∧ b < 0xA0 ∨ c = 0xED ∧ 0xA0 ≤ b) ∧
      IsContinuation b ∧ IsContinuation d
  | [c, b, d, e] => (c = 0xF0 ∧ b < 0x90 ∨ c = 0xF4 ∧ 0x90 ≤ b ∨ 0xF5 ≤ c ∧ c < 0xF8) ∧
      IsContinuation b ∧ IsContinuation d ∧ IsContinuation e
  | _ => False

instance : DecidablePred Loose
  | [c, b] => inferInstanceAs (Decidable ((c = 0xC0 ∨ c = 0xC1) ∧ IsContinuation b))
  | [c, b, d] => inferInstanceAs (Decidable ((c = 0xE0 ∧ b < 0xA0 ∨ c = 0xED ∧ 0xA0 ≤ b) ∧
      IsContinuation b ∧ IsContinuation d))
  | [c, b, d, e] => inferInstanceAs (Decidable
      ((c = 0xF0 ∧ b < 0x90 ∨ c = 0xF4 ∧ 0x90 ≤ b ∨ 0xF5 ≤ c ∧ c < 0xF8) ∧
        IsContinuation b ∧ IsContinuation d ∧ IsContinuation e))
  | [] | [_] | _ :: _ :: _ :: _ :: _ :: _ => inferInstanceAs (Decidable False)

/-- Nothing in the text is loose. -/
def Tight (s : Bytes) : Prop := ∀ u, u <:+: s → ¬Loose u

/-! ## Bytes -/

/-- A statement about all bytes is one about all words of 8 bits. -/
theorem forall_byte {p : UInt8 → Prop} (h : ∀ x : BitVec 8, p ⟨x⟩) (b : UInt8) : p b :=
  h b.toBitVec

theorem isContinuation_iff (b : UInt8) : IsContinuation b ↔ 0x80 ≤ b ∧ b ≤ 0xBF := by
  revert b
  exact forall_byte (by decide +kernel)

theorem tailLength_eq (c : UInt8) : tailLength c =
    if c < 0x80 then some 0 else if c < 0xC0 then none else if c < 0xE0 then some 1
    else if c < 0xF0 then some 2 else if c < 0xF8 then some 3 else none := by
  revert c
  exact forall_byte (by decide +kernel)

/-- The decoder asks for as many continuation bytes as a character with this first byte has. -/
theorem tailLength_of_lead {c : UInt8} {q : State} (h : lead c = some q) :
    tailLength c = some q.owed := by
  have hall : ∀ c : UInt8, ∀ q ∈ lead c, tailLength c = some q.owed :=
    forall_byte (by decide +kernel)
  exact hall c q h

/-- What leads two bytes. -/
theorem lead_two {c : UInt8} (hc : tailLength c = some 1) :
    lead c = if c = 0xC0 ∨ c = 0xC1 then none else some ⟨1, 0x80, 0xBF⟩ := by
  have hall : ∀ c : UInt8, tailLength c = some 1 →
      lead c = if c = 0xC0 ∨ c = 0xC1 then none else some ⟨1, 0x80, 0xBF⟩ :=
    forall_byte (by decide +kernel)
  exact hall c hc

/-- What leads three bytes. -/
theorem lead_three {c : UInt8} (hc : tailLength c = some 2) :
    lead c = some ⟨2, if c = 0xE0 then 0xA0 else 0x80, if c = 0xED then 0x9F else 0xBF⟩ := by
  have hall : ∀ c : UInt8, tailLength c = some 2 →
      lead c = some ⟨2, if c = 0xE0 then 0xA0 else 0x80, if c = 0xED then 0x9F else 0xBF⟩ :=
    forall_byte (by decide +kernel)
  exact hall c hc

/-- What leads four bytes. -/
theorem lead_four {c : UInt8} (hc : tailLength c = some 3) :
    lead c = if 0xF5 ≤ c ∧ c < 0xF8 then none
      else some ⟨3, if c = 0xF0 then 0x90 else 0x80, if c = 0xF4 then 0x8F else 0xBF⟩ := by
  have hall : ∀ c : UInt8, tailLength c = some 3 →
      lead c = if 0xF5 ≤ c ∧ c < 0xF8 then none
        else some ⟨3, if c = 0xF0 then 0x90 else 0x80, if c = 0xF4 then 0x8F else 0xBF⟩ :=
    forall_byte (by decide +kernel)
  exact hall c hc

theorem tailLength_le {c : UInt8} {n : Nat} (h : tailLength c = some n) : n ≤ 3 := by
  have hall : ∀ c : UInt8, ∀ n ∈ tailLength c, n ≤ 3 := forall_byte (by decide +kernel)
  exact hall c n h

/-- A continuation byte leads nothing. -/
theorem tailLength_of_isContinuation {b : UInt8} (h : IsContinuation b) : tailLength b = none := by
  rw [isContinuation_iff] at h
  rw [tailLength_eq]
  grind

/-! ## One sequence -/

/-- A sequence of more than one byte that the decoder keeps is a character if its first byte leads
    one and its second byte is in the range that this byte gives. -/
theorem run_kept_cons {c b : UInt8} {l : Bytes} (hn : tailLength c = some (l.length + 1))
    (hl : ∀ d ∈ l, IsContinuation d) : run start (c :: b :: l) =
      (lead c).bind fun q => if q.lo ≤ b ∧ b ≤ q.hi then some start else none := by
  rw [run, show Utf8.step start c = lead c from rfl]
  cases hq : lead c with
  | none => rfl
  | some q =>
    have howed : q.owed = l.length + 1 := Option.some.inj ((tailLength_of_lead hq).symm.trans hn)
    exact run_of_owed howed fun d hd => (isContinuation_iff d).1 (hl d hd)

/-- A continuation byte in the range that a lead byte gives: `low` and `high` are the lead bytes
    that make it narrower, from below or from above. -/
theorem ite_second {low high : Prop} [Decidable low] [Decidable high] {b m m' : UInt8}
    {x y : Option State} (hb : 0x80 ≤ b) (hb' : b ≤ 0xBF) (hne : low → ¬high) :
    (if (if low then m else 0x80) ≤ b ∧ b ≤ (if high then m' else 0xBF) then x else y) =
      if low ∧ b < m ∨ high ∧ m' < b then y else x := by
  by_cases hlow : low
  · have hhigh := hne hlow
    simp only [hlow, hhigh, if_true, if_false, hb', and_true, true_and, false_and, or_false]
    by_cases h : b < m
    · rw [if_pos h, if_neg (UInt8.not_le.2 h)]
    · rw [if_neg h, if_pos (UInt8.not_lt.1 h)]
  · simp only [hlow, if_false, hb, true_and, false_and, false_or]
    by_cases hhigh : high
    · simp only [hhigh, if_true, true_and]
      by_cases h : m' < b
      · rw [if_pos h, if_neg (UInt8.not_le.2 h)]
      · rw [if_neg h, if_pos (UInt8.not_lt.1 h)]
    · simp only [hhigh, if_false, false_and, hb', if_true]

/-- A sequence that the decoder keeps is one character, or is loose. -/
theorem run_kept {u : Bytes} (hu : Kept u) :
    run start u = if Loose u then none else some start := by
  obtain @⟨c, l, hn, hl⟩ := hu
  cases l with
  | nil =>
    have hc : c < 0x80 := by
      rw [tailLength_eq] at hn
      grind
    simp [run, step_start_of_lt hc, Loose]
  | cons b l =>
    rw [run_kept_cons hn fun d hd => hl d (List.mem_cons_of_mem _ hd)]
    have hcont := hl b List.mem_cons_self
    obtain ⟨hb, hb'⟩ := (isContinuation_iff b).1 hcont
    -- Two, three or four bytes: no lead asks for more (`tailLength_le`).
    rcases l with - | ⟨d, - | ⟨e, - | ⟨e', l⟩⟩⟩
    · rw [lead_two hn]
      simp only [Loose, hcont, and_true]
      split_ifs with hc
      · rfl
      · exact if_pos ⟨hb, hb'⟩
    · have hloose : Loose [c, b, d] ↔ c = 0xE0 ∧ b < 0xA0 ∨ c = 0xED ∧ 0x9F < b := by
        have hlt : 0xA0 ≤ b ↔ 0x9F < b := by grind
        simp only [Loose, hcont, hl d (by simp), and_true, hlt]
      rw [lead_three hn, Option.bind_some, ite_second hb hb' (by rintro rfl; decide)]
      exact if_congr hloose.symm rfl rfl
    · have hloose : Loose [c, b, d, e] ↔
          (c = 0xF0 ∧ b < 0x90 ∨ c = 0xF4 ∧ 0x8F < b) ∨ 0xF5 ≤ c ∧ c < 0xF8 := by
        have hlt : 0x90 ≤ b ↔ 0x8F < b := by grind
        simp only [Loose, hcont, hl d (by simp), hl e (by simp), and_true, hlt, or_assoc]
      rw [lead_four hn]
      by_cases hlarge : 0xF5 ≤ c ∧ c < 0xF8
      · rw [if_pos hlarge, if_pos (hloose.2 (.inr hlarge))]
        rfl
      · rw [if_neg hlarge, Option.bind_some, ite_second hb hb' (by rintro rfl; decide)]
        exact if_congr (hloose.trans (or_iff_left hlarge)).symm rfl rfl
    · have hle := tailLength_le hn
      simp only [List.length_cons] at hle
      omega

theorem kept_of_loose {u : Bytes} (h : Loose u) : Kept u := by
  match u with
  | [c, b] =>
    refine .mk ?_ (by simpa using h.2)
    rw [tailLength_eq]
    have hc := h.1
    grind
  | [c, b, d] =>
    refine .mk ?_ (by simpa using h.2)
    rw [tailLength_eq]
    have hc := h.1
    grind
  | [c, b, d, e] =>
    refine .mk ?_ (by simpa using h.2)
    rw [tailLength_eq]
    have hc := h.1
    grind

/-- At most one sequence at the head of a text is one that the decoder keeps. -/
theorem kept_unique {u v s : Bytes} (hu : Kept u) (hv : Kept v) (h : v <+: u ++ s) : v = u := by
  obtain @⟨c, l, hn, -⟩ := hu
  obtain @⟨d, m, hm, -⟩ := hv
  obtain ⟨rfl, htail⟩ := List.cons_prefix_cons.1 h
  have hlen : m.length = l.length := Option.some.inj (hm.symm.trans hn)
  have hle := List.prefix_of_prefix_length_le htail (List.prefix_append l s) (Nat.le_of_eq hlen)
  rw [hle.eq_of_length hlen]

/-- The first character of a well-formed text is a sequence that the decoder keeps. -/
theorem exists_kept_of_wellFormed {c : UInt8} {l : Bytes} (h : WellFormed (c :: l)) :
    ∃ u, u <+: c :: l ∧ Kept u := by
  obtain ⟨q, hq, h⟩ := Option.bind_eq_some_iff.1 h
  have hlo : 0x80 ≤ q.lo := by
    rcases good_of_step hq with rfl | hgood
    · decide
    · exact hgood.2
  obtain ⟨hlen, hl⟩ := continuation_of_run hlo (hi_le_of_step hq) h
  refine ⟨c :: l.take q.owed, ?_, .mk ?_ fun b hb => (isContinuation_iff b).2 (hl b hb)⟩
  · exact List.cons_prefix_cons.2 ⟨rfl, List.take_prefix _ _⟩
  · rw [tailLength_of_lead (show lead c = some q from hq), List.length_take, Nat.min_eq_left hlen]

/-! ## The decoder, sequence by sequence -/

@[simp] theorem sanitizeUtf8_nil : sanitizeUtf8 [] = [] := by rw [sanitizeUtf8]

theorem sanitizeUtf8_kept {u : Bytes} (hu : Kept u) (s : Bytes) :
    sanitizeUtf8 (u ++ s) = u ++ sanitizeUtf8 s := by
  obtain @⟨c, l, hn, hl⟩ := hu
  have hcont : Continued l.length (l ++ s) := by
    refine ⟨by simp, ?_⟩
    rwa [List.take_left]
  rw [List.cons_append, sanitizeUtf8, hn]
  simp only [hcont, if_true, List.take_left, List.drop_left]

theorem sanitizeUtf8_drop {c : UInt8} {l : Bytes} (h : ∀ u, u <+: c :: l → ¬Kept u) :
    sanitizeUtf8 (c :: l) = 0x3F :: sanitizeUtf8 l := by
  rw [sanitizeUtf8]
  cases hn : tailLength c with
  | none => rfl
  | some n =>
    refine if_neg fun hcont => ?_
    refine h (c :: l.take n) (List.cons_prefix_cons.2 ⟨rfl, List.take_prefix _ _⟩) (.mk ?_ hcont.2)
    rw [hn, List.length_take, Nat.min_eq_left hcont.1]

/-- A text is read sequence by sequence: one that is kept, or one byte that is dropped. -/
theorem sanitize_induction {P : Bytes → Prop} (nil : P [])
    (kept : ∀ u s, Kept u → P s → P (u ++ s))
    (drop : ∀ c l, (∀ u, u <+: c :: l → ¬Kept u) → P l → P (c :: l)) (s : Bytes) : P s := by
  induction hlen : s.length using Nat.strongRecOn generalizing s with
  | ind n ih =>
    cases s with
    | nil => exact nil
    | cons c l =>
      subst hlen
      by_cases h : ∃ u, u <+: c :: l ∧ Kept u
      · obtain ⟨u, ⟨s, hs⟩, hu⟩ := h
        have hshort : s.length < (c :: l).length := by
          obtain ⟨-, -⟩ := hu
          rw [← hs, List.length_append, List.length_cons]
          omega
        exact hs ▸ kept u s hu (ih _ hshort s rfl)
      · exact drop c l (fun u hu hkept => h ⟨u, hu, hkept⟩) (ih _ (by simp) l rfl)

/-- A question mark is a sequence of its own. -/
theorem kept_question : Kept [0x3F] := .mk (by decide) (List.forall_mem_nil _)

/-- A second pass changes nothing. -/
theorem sanitizeUtf8_sanitizeUtf8 (s : Bytes) : sanitizeUtf8 (sanitizeUtf8 s) = sanitizeUtf8 s := by
  induction s using sanitize_induction with
  | nil => simp
  | kept u s hu ih => rw [sanitizeUtf8_kept hu, sanitizeUtf8_kept hu, ih]
  | drop c l h ih =>
    rw [sanitizeUtf8_drop h]
    exact (sanitizeUtf8_kept kept_question _).trans (congrArg _ ih)

/-- A sequence that is kept, before a text: it has to be a character. -/
theorem wellFormed_kept {u : Bytes} (hu : Kept u) (s : Bytes) :
    WellFormed (u ++ s) ↔ ¬Loose u ∧ WellFormed s := by
  rw [WellFormed, run_append, run_kept hu]
  split_ifs with h
  · simp [h]
  · simp [h, WellFormed]

/-- A well-formed text stays as it is. -/
theorem sanitizeUtf8_of_wellFormed {s : Bytes} (h : WellFormed s) : sanitizeUtf8 s = s := by
  induction s using sanitize_induction with
  | nil => simp
  | kept u s hu ih => rw [sanitizeUtf8_kept hu, ih ((wellFormed_kept hu s).1 h).2]
  | drop c l hdrop =>
    obtain ⟨u, hu, hkept⟩ := exists_kept_of_wellFormed h
    exact absurd hkept (hdrop u hu)

/-! ## Where nothing is loose -/

theorem tight_cons (c : UInt8) (l : Bytes) :
    Tight (c :: l) ↔ (∀ u, u <+: c :: l → ¬Loose u) ∧ Tight l := by
  simp only [Tight, List.infix_cons_iff, or_imp, forall_and]

/-- Nothing loose starts with a continuation byte. -/
theorem tight_continuation {l : Bytes} (hl : ∀ b ∈ l, IsContinuation b) (s : Bytes) :
    Tight (l ++ s) ↔ Tight s := by
  induction l with
  | nil => rfl
  | cons b l ih =>
    have hb := tailLength_of_isContinuation (hl b List.mem_cons_self)
    rw [List.cons_append, tight_cons, ih fun d hd => hl d (List.mem_cons_of_mem _ hd)]
    refine and_iff_right fun u hu hloose => ?_
    obtain @⟨c, m, hm, -⟩ := kept_of_loose hloose
    obtain ⟨rfl, -⟩ := List.cons_prefix_cons.1 hu
    exact absurd (hb.symm.trans hm) nofun

theorem tight_kept {u : Bytes} (hu : Kept u) (s : Bytes) :
    Tight (u ++ s) ↔ ¬Loose u ∧ Tight s := by
  have hhead : (∀ v, v <+: u ++ s → ¬Loose v) ↔ ¬Loose u := by
    constructor
    · exact fun h => h u (List.prefix_append u s)
    · intro h v hv hloose
      exact h (kept_unique hu (kept_of_loose hloose) hv ▸ hloose)
  obtain @⟨c, l, -, hl⟩ := hu
  rw [List.cons_append, tight_cons, tight_continuation hl, ← List.cons_append, hhead]

theorem tight_drop {c : UInt8} {l : Bytes} (h : ∀ u, u <+: c :: l → ¬Kept u) :
    Tight (c :: l) ↔ Tight l := by
  rw [tight_cons]
  exact and_iff_right fun u hu hloose => h u hu (kept_of_loose hloose)

/-- The result is well-formed exactly if the text has nothing loose. -/
theorem wellFormed_sanitizeUtf8_iff (s : Bytes) : WellFormed (sanitizeUtf8 s) ↔ Tight s := by
  induction s using sanitize_induction with
  | nil =>
    rw [sanitizeUtf8_nil]
    refine iff_of_true rfl fun u hu hloose => ?_
    rw [List.infix_nil.1 hu] at hloose
    exact hloose
  | kept u s hu ih => rw [sanitizeUtf8_kept hu, wellFormed_kept hu, tight_kept hu, ih]
  | drop c l h ih =>
    rw [sanitizeUtf8_drop h, tight_drop h, ← ih]
    exact (wellFormed_kept kept_question _).trans (and_iff_right (by decide))

/-! ## The projection -/

/-- The pass projects `s` onto the well-formed texts: its result is one, a second pass changes
    nothing, and neither does the first if `s` is well-formed. -/
structure Projected (s : Bytes) : Prop where
  wellFormed : WellFormed (sanitizeUtf8 s)
  identity : WellFormed s → sanitizeUtf8 s = s
  idempotent : sanitizeUtf8 (sanitizeUtf8 s) = sanitizeUtf8 s

/-- The pass projects exactly the texts in which nothing is loose. -/
theorem sanitizeUtf8_projects_iff (s : Bytes) : Projected s ↔ Tight s := by
  rw [← wellFormed_sanitizeUtf8_iff]
  exact ⟨fun h => h.wellFormed,
    fun h => ⟨h, sanitizeUtf8_of_wellFormed, sanitizeUtf8_sanitizeUtf8 s⟩⟩

/-- The overlong form of `/` is kept. -/
theorem overlong_kept : sanitizeUtf8 [0xC0, 0xAF] = [0xC0, 0xAF] ∧ ¬Projected [0xC0, 0xAF] := by
  have hkept : Kept [0xC0, 0xAF] := .mk (by decide) (List.forall_mem_singleton.2 rfl)
  have hfixed : sanitizeUtf8 [0xC0, 0xAF] = [0xC0, 0xAF] := by
    simpa using sanitizeUtf8_kept hkept []
  refine ⟨hfixed, fun h => ?_⟩
  have hwell := h.wellFormed
  rw [hfixed] at hwell
  revert hwell
  decide

end LiteCode.SolutionRoutes
