import Mathlib.Data.List.Basic
import Mathlib.Data.List.Infix

/-!
# Patterns with wildcards

The patterns of the operator `LIKE`: a character for any text, one for any character, and one that
takes the meaning from the character behind it. At the end of a pattern the last one stands for
itself. Other characters match those of the same weight.

* `Wildcards`: the three characters; `tokens`: a pattern, read from left to right;
* `Matches`: the texts of a pattern;
* `unescape`: what a pattern without wildcards stands for, `tokens_append_many`;
* `isLike_surround_iff`: a pattern between two wildcards for any text. It asks for a text inside,
  unless the second wildcard has lost its meaning.
-/

namespace LiteCode.Like

variable {α ω : Type*}

/-- The characters of a pattern that do not stand for themselves. -/
structure Wildcards (α : Type*) where
  many : α
  one : α
  escape : α
  many_ne_one : many ≠ one
  many_ne_escape : many ≠ escape
  one_ne_escape : one ≠ escape

/-- A part of a pattern. -/
inductive Token (α : Type*)
  | many
  | one
  | lit (a : α)
  deriving DecidableEq, Repr

section

variable [DecidableEq α] (w : Wildcards α)

/-- The parts of a pattern. -/
def tokens : List α → List (Token α)
  | [] => []
  | [c] =>
    if c = w.escape then [.lit c]
    else if c = w.many then [.many] else if c = w.one then [.one] else [.lit c]
  | c :: d :: p =>
    if c = w.escape then .lit d :: tokens p
    else if c = w.many then .many :: tokens (d :: p)
    else if c = w.one then .one :: tokens (d :: p)
    else .lit c :: tokens (d :: p)

/-- The text of a pattern without wildcards, and whether an escape is left over at its end. -/
def unescape : List α → List α × Bool
  | [] => ([], false)
  | [c] => if c = w.escape then ([], true) else ([c], false)
  | c :: d :: p =>
    if c = w.escape then (d :: (unescape p).1, (unescape p).2)
    else (c :: (unescape (d :: p)).1, (unescape (d :: p)).2)

end

/-- The texts of a pattern. -/
def Matches (weight : α → ω) : List (Token α) → List α → Prop
  | [], s => s = []
  | .lit _ :: _, [] => False
  | .lit a :: ts, b :: s => weight b = weight a ∧ Matches weight ts s
  | .one :: _, [] => False
  | .one :: ts, _ :: s => Matches weight ts s
  | .many :: ts, s => ∃ u ∈ s.tails, Matches weight ts u

instance decidableMatches [DecidableEq ω] (weight : α → ω) :
    ∀ (ts : List (Token α)) (s : List α), Decidable (Matches weight ts s)
  | [], s => inferInstanceAs (Decidable (s = []))
  | .lit _ :: _, [] => inferInstanceAs (Decidable False)
  | .lit a :: ts, b :: s =>
    have := decidableMatches weight ts s
    inferInstanceAs (Decidable (weight b = weight a ∧ Matches weight ts s))
  | .one :: _, [] => inferInstanceAs (Decidable False)
  | .one :: ts, _ :: s => decidableMatches weight ts s
  | .many :: ts, s =>
    have := decidableMatches weight ts
    inferInstanceAs (Decidable (∃ u ∈ s.tails, Matches weight ts u))

/-- `text LIKE pattern`. -/
def IsLike [DecidableEq α] (w : Wildcards α) (weight : α → ω) (s p : List α) : Prop :=
  Matches weight (tokens w p) s

instance [DecidableEq α] [DecidableEq ω] (w : Wildcards α) (weight : α → ω) (s p : List α) :
    Decidable (IsLike w weight s p) :=
  decidableMatches _ _ _

variable {w : Wildcards α} {weight : α → ω} {p s t : List α} {ts : List (Token α)}

/-! ## The texts of some patterns -/

/-- Characters that stand for themselves are at the beginning of the text. -/
theorem matches_lits_append_iff :
    Matches weight (t.map .lit ++ ts) s ↔
      ∃ a u, a.map weight = t.map weight ∧ a ++ u = s ∧ Matches weight ts u := by
  induction t generalizing s with
  | nil => simp
  | cons c t ih =>
    cases s with
    | nil => simp [Matches]
    | cons b s =>
      simp only [List.map_cons, List.cons_append, Matches, ih]
      constructor
      · rintro ⟨hb, a, u, ha, rfl, hu⟩
        exact ⟨b :: a, u, by rw [List.map_cons, hb, ha], rfl, hu⟩
      · rintro ⟨a, u, ha, hs, hu⟩
        cases a with
        | nil => simp at ha
        | cons d a =>
          obtain ⟨hd, ha⟩ := List.cons.inj ha
          obtain ⟨rfl, rfl⟩ := List.cons.inj hs
          exact ⟨hd, a, u, ha, rfl, hu⟩

/-- A wildcard at the end admits any rest. -/
theorem matches_lits_many_iff :
    Matches weight (t.map .lit ++ [.many]) s ↔ t.map weight <+: s.map weight := by
  rw [matches_lits_append_iff]
  constructor
  · rintro ⟨a, u, ha, rfl, -⟩
    exact ⟨u.map weight, by rw [← ha, List.map_append]⟩
  · rintro ⟨l, hl⟩
    obtain ⟨a, u, rfl, ha, -⟩ := List.append_eq_map_iff.1 hl
    exact ⟨a, u, ha, rfl, [], (List.mem_tails _ _).2 (List.nil_suffix), rfl⟩

theorem matches_lits_iff :
    Matches weight (t.map .lit) s ↔ t.map weight = s.map weight := by
  rw [← List.append_nil (t.map Token.lit), matches_lits_append_iff]
  constructor
  · rintro ⟨a, u, ha, rfl, rfl⟩
    rw [List.append_nil, ha]
  · intro h
    exact ⟨s, [], h.symm, List.append_nil s, rfl⟩

/-- A text somewhere inside. -/
theorem matches_inside_iff :
    Matches weight (.many :: (t.map .lit ++ [.many])) s ↔ t.map weight <:+: s.map weight := by
  simp only [Matches, matches_lits_many_iff, List.mem_tails]
  rw [List.infix_iff_prefix_suffix]
  constructor
  · rintro ⟨u, hu, ht⟩
    exact ⟨_, ht, hu.map weight⟩
  · rintro ⟨l, hl, hs⟩
    obtain ⟨u, hu, rfl⟩ := List.suffix_map_iff.1 hs
    exact ⟨u, hu, hl⟩

/-- A text at the end. -/
theorem matches_end_iff :
    Matches weight (.many :: t.map .lit) s ↔ t.map weight <:+ s.map weight := by
  simp only [Matches, matches_lits_iff, List.mem_tails]
  constructor
  · rintro ⟨u, hu, ht⟩
    rw [ht]
    exact hu.map weight
  · intro h
    obtain ⟨u, hu, ht⟩ := List.suffix_map_iff.1 h
    exact ⟨u, hu, ht⟩

/-! ## Reading a pattern -/

/-- A wildcard behind a pattern without wildcards, which takes its meaning if an escape is left
    over. -/
theorem tokens_append_many [DecidableEq α] (hp : ∀ c ∈ p, c ≠ w.many ∧ c ≠ w.one) :
    tokens w (p ++ [w.many]) =
      if (unescape w p).2 then ((unescape w p).1 ++ [w.many]).map .lit
      else (unescape w p).1.map .lit ++ [.many] := by
  fun_induction unescape w p with
  | case1 => simp [tokens, w.many_ne_escape]
  | case2 => simp [tokens]
  | case3 c hc =>
    have := hp c (List.mem_singleton_self c)
    simp [tokens, hc, this, w.many_ne_escape]
  | case4 d p ih =>
    have ih := ih fun c hc => hp c (List.mem_cons_of_mem _ (List.mem_cons_of_mem _ hc))
    rw [List.cons_append, List.cons_append, tokens, if_pos rfl, ih]
    split <;> rfl
  | case5 c d p hc ih =>
    have ih := ih fun c hc => hp c (List.mem_cons_of_mem _ hc)
    obtain ⟨hmany, hone⟩ := hp c List.mem_cons_self
    rw [List.cons_append] at ih
    rw [List.cons_append, List.cons_append, tokens, if_neg hc, if_neg hmany, if_neg hone, ih]
    split <;> rfl

/-- A pattern without escapes stands for itself. -/
theorem unescape_of_notMem [DecidableEq α] (hp : w.escape ∉ p) : unescape w p = (p, false) := by
  fun_induction unescape w p with
  | case1 => rfl
  | case2 => simp at hp
  | case3 => rfl
  | case4 => simp at hp
  | case5 c d p hc ih => rw [ih fun h => hp (List.mem_cons_of_mem _ h)]

/-- An escape is not a part of the text. -/
theorem length_unescape_lt [DecidableEq α] (hp : w.escape ∈ p) :
    (unescape w p).1.length < p.length := by
  have hle (p : List α) : (unescape w p).1.length ≤ p.length := by
    fun_induction unescape w p <;> simp <;> omega
  fun_induction unescape w p with
  | case1 => simp at hp
  | case2 => simp
  | case3 c hc => exact absurd (List.mem_singleton.1 hp).symm hc
  | case4 d p ih =>
    have := hle p
    simp
    omega
  | case5 c d p hc ih =>
    have hp := (List.mem_cons.1 hp).resolve_left (Ne.symm hc)
    exact Nat.succ_lt_succ (ih hp)

theorem tokens_many_cons [DecidableEq α] (hp : p ≠ []) :
    tokens w (w.many :: p) = .many :: tokens w p := by
  obtain ⟨c, p, rfl⟩ := List.exists_cons_of_ne_nil hp
  rw [tokens, if_neg w.many_ne_escape, if_pos rfl]

/-- What is looked for in a text: a part of it, or, with an escape left over, its end. -/
def Finds [DecidableEq α] (w : Wildcards α) (weight : α → ω) (p s : List α) : Prop :=
  if (unescape w p).2 then ((unescape w p).1 ++ [w.many]).map weight <:+ s.map weight
  else (unescape w p).1.map weight <:+: s.map weight

instance [DecidableEq α] [DecidableEq ω] (w : Wildcards α) (weight : α → ω) (p s : List α) :
    Decidable (Finds w weight p s) := by
  unfold Finds
  infer_instance

/-- A pattern between two wildcards for any text. -/
theorem isLike_surround_iff [DecidableEq α] (hp : ∀ c ∈ p, c ≠ w.many ∧ c ≠ w.one) :
    IsLike w weight s (w.many :: (p ++ [w.many])) ↔ Finds w weight p s := by
  have hne : p ++ [w.many] ≠ [] := List.append_ne_nil_of_right_ne_nil _ (List.cons_ne_nil _ _)
  rw [IsLike, tokens_many_cons hne, tokens_append_many hp, Finds]
  split_ifs
  · exact matches_end_iff
  · exact matches_inside_iff

/-- Without escapes, it is looked for as it is. -/
theorem finds_of_notMem [DecidableEq α] (hp : w.escape ∉ p) :
    Finds w weight p s ↔ p.map weight <:+: s.map weight := by
  rw [Finds, unescape_of_notMem hp, if_neg nofun]

end LiteCode.Like
