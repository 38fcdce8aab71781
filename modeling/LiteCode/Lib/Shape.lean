import Mathlib.Algebra.Order.Group.Nat
import Mathlib.Order.Interval.Set.Basic

/-!
# Shapes of texts

A name that stands in an address or in a unique column has a *shape*: bounds of its length, a class
of characters, and characters that stand at neither end. A program checks them in turn, the length
first, then the ends, then the characters one after the other, and returns at the first that is
wrong.

* `fault_eq_none_iff`: a text without a fault is one of the shape; `ite_eq_fault`: three checks in
  turn find its first fault;
* `not_infix_of_mem_texts`, `any_eq_false_of_mem_texts`: what a text does not contain;
* `Validator.agree`: the validators of a shape, which accept its texts and no others, all give the
  same answer;
* `forIn_return`: a loop that returns at the first element it refuses.
-/

namespace LiteCode

variable {α β : Type*}

/-- A shape of texts. -/
structure Shape (α : Type*) where
  min : ℕ
  max : ℕ
  /-- What stands at neither end. -/
  edge : α → Bool
  /-- What a text is made of. -/
  char : α → Bool

namespace Shape

/-- What is wrong with a text. -/
inductive Fault
  | length
  | edge
  | char
  deriving DecidableEq, Repr

variable {σ : Shape α} {s : List α}

/-- The texts of a shape. -/
def texts (σ : Shape α) : Set (List α) :=
  {s | s.length ∈ Set.Icc σ.min σ.max ∧ (∀ c ∈ s.head?, ¬σ.edge c) ∧
    (∀ c ∈ s.getLast?, ¬σ.edge c) ∧ ∀ c ∈ s, σ.char c}

/-- The first rule that a text breaks. -/
def fault (σ : Shape α) (s : List α) : Option Fault :=
  if s.length < σ.min ∨ σ.max < s.length then some .length
  else if s.head?.any σ.edge || s.getLast?.any σ.edge then some .edge
  else if s.all σ.char then none
  else some .char

/-- Three checks in turn, each in a form of its own, read the first fault off a text. -/
theorem ite_eq_fault {p q r : Prop} [Decidable p] [Decidable q] [Decidable r] (σ : Shape α)
    (f : Option Fault → β) (hp : p ↔ s.length < σ.min ∨ σ.max < s.length)
    (hq : q ↔ (s.head?.any σ.edge || s.getLast?.any σ.edge) = true)
    (hr : r ↔ s.all σ.char = true) :
    (if p then f (some .length) else if q then f (some .edge)
      else if r then f none else f (some .char)) = f (σ.fault s) := by
  simp only [fault, hp, hq, hr]
  split_ifs
  · rfl
  · rfl
  · rfl
  · rfl

theorem mem_texts_iff : s ∈ σ.texts ↔ (σ.min ≤ s.length ∧ s.length ≤ σ.max) ∧
    (∀ c ∈ s.head?, ¬σ.edge c) ∧ (∀ c ∈ s.getLast?, ¬σ.edge c) ∧ ∀ c ∈ s, σ.char c :=
  Iff.rfl

theorem any_eq_false_iff {o : Option α} {p : α → Bool} : o.any p = false ↔ ∀ c ∈ o, ¬p c := by
  cases o with
  | none => simp
  | some c => simp

/-- A text without a fault is one of the shape. -/
theorem fault_eq_none_iff : σ.fault s = none ↔ s ∈ σ.texts := by
  rw [fault, mem_texts_iff]
  by_cases hlen : s.length < σ.min ∨ σ.max < s.length
  · rw [if_pos hlen]
    exact iff_of_false (Option.some_ne_none _) fun h => by omega
  rw [if_neg hlen]
  have hlen' : σ.min ≤ s.length ∧ s.length ≤ σ.max := by omega
  by_cases hedge : (s.head?.any σ.edge || s.getLast?.any σ.edge) = true
  · rw [if_pos hedge]
    refine iff_of_false (Option.some_ne_none _) fun h => absurd hedge ?_
    rw [any_eq_false_iff.2 h.2.1, any_eq_false_iff.2 h.2.2.1]
    decide
  rw [if_neg hedge]
  rw [Bool.not_eq_true, Bool.or_eq_false_iff, any_eq_false_iff, any_eq_false_iff] at hedge
  by_cases hchar : s.all σ.char = true
  · rw [if_pos hchar]
    exact ⟨fun _ => ⟨hlen', hedge.1, hedge.2, List.all_eq_true.1 hchar⟩, fun _ => rfl⟩
  · rw [if_neg hchar]
    exact iff_of_false (Option.some_ne_none _) fun h => hchar (List.all_eq_true.2 h.2.2.2)

theorem isNone_fault_iff : (σ.fault s).isNone = true ↔ s ∈ σ.texts := by
  rw [Option.isNone_iff_eq_none, fault_eq_none_iff]

theorem ne_nil_of_mem_texts (h : s ∈ σ.texts) (hmin : 0 < σ.min) : s ≠ [] := by
  rintro rfl
  exact absurd h.1.1 (not_le.2 hmin)

theorem notMem_of_mem_texts {c : α} (h : s ∈ σ.texts) (hc : σ.char c = false) : c ∉ s := by
  intro hmem
  have hok : σ.char c = true := h.2.2.2 c hmem
  rw [hc] at hok
  cases hok

/-- A pattern with a character of another class is nowhere in a text. -/
theorem not_infix_of_mem_texts {pat : List α} {c : α} (h : s ∈ σ.texts) (hmem : c ∈ pat)
    (hc : σ.char c = false) : ¬pat <:+: s :=
  fun hpat => notMem_of_mem_texts h hc (hpat.mem hmem)

/-- A search for characters of another class finds none. -/
theorem any_eq_false_of_mem_texts {bad : α → Bool} (h : s ∈ σ.texts)
    (hbad : ∀ c, σ.char c = true → bad c = false) : s.any bad = false := by
  rw [List.any_eq_false]
  intro c hc
  rw [hbad c (h.2.2.2 c hc)]
  exact Bool.false_ne_true

/-! ## Validators -/

/-- A check that accepts the texts of a shape and no others. -/
structure Validator (σ : Shape α) where
  accepts : List α → Bool
  accepts_iff : ∀ s, accepts s = true ↔ s ∈ σ.texts

/-- The validators of a shape give the same answer. -/
theorem Validator.agree (v w : Validator σ) (s : List α) : v.accepts s = w.accepts s :=
  Bool.eq_iff_iff.2 ((v.accepts_iff s).trans (w.accepts_iff s).symm)

end Shape

/-! ## Loops that return -/

/-- A loop that returns `r` at the first element that is not `ok`, with what follows it. -/
theorem forIn_return {β γ : Type} (ok : α → Bool) (r : β) (s : List α)
    (next : Option β × Unit → Id γ) :
    (do
      let t ← forIn s (none, ()) fun c _ =>
        if (!ok c) = true then pure (ForInStep.done (some r, ()))
        else pure (ForInStep.yield (none, ()))
      next t) = if s.all ok then next (none, ()) else next (some r, ()) := by
  induction s with
  | nil => rfl
  | cons c s ih =>
    rw [List.forIn_cons]
    cases h : ok c with
    | true => simpa [h] using ih
    | false => simp [h]

end LiteCode
