import Mathlib.Algebra.Order.Field.Basic
import Mathlib.Tactic.Linarith
import Mathlib.Tactic.Ring

/-!
# Token buckets

A bucket of capacity `C` that is refilled at the rate `r`, over an ordered field. A call takes one
token if there is one; the calls so far are a history of times and answers.

* `IsLevel C r t₀ h t x`: at the time `t`, `x` is what the history `h` leaves of a bucket that was
  full at `t₀`, namely the least of `C + r (t - s)` minus the calls allowed since `s`, for all `s`
  from `t₀` on. Refilling (`IsLevel.refill`) and taking (`IsLevel.take`) keep it, so that a call is
  allowed by the level iff it is allowed by all intervals (`IsLevel.one_le_iff`).
* `Bounded C r h t x`: a bucket with `x` tokens and the last refill at `t` keeps every interval
  within its rate, if it does not refill more than time has passed (`Bounded.refill`) and no token
  is taken that a refill would have wasted (`Bounded.take`).
-/

namespace LiteCode.TokenBucket

variable {K : Type*} [LinearOrder K]

/-- Calls with their times and whether they were allowed, the last one at the end. -/
abbrev History (K : Type*) := List (K × Bool)

/-- The number of calls that were allowed at the time `s` or later. -/
def since (h : History K) (s : K) : ℕ := h.countP fun p => p.2 && decide (s ≤ p.1)

/-- The number of calls that were allowed from `a` to `b`. -/
def within (h : History K) (a b : K) : ℕ :=
  h.countP fun p => p.2 && decide (a ≤ p.1) && decide (p.1 ≤ b)

/-- Every call was made at the time `t` or before. -/
def Until (h : History K) (t : K) : Prop := ∀ p ∈ h, p.1 ≤ t

variable {C r t₀ t t' s x : K} {h : History K}

/-! ## Counting calls -/

/-- A grant counts from the time on at which it was made. -/
theorem since_take (hs : s ≤ t) : since (h ++ [(t, true)]) s = since h s + 1 := by
  simp [since, List.countP_append, hs]

/-- A denial does not count. -/
theorem since_deny : since (h ++ [(t, false)]) s = since h s := by
  simp [since, List.countP_append]

/-- Nothing is allowed after the last call. -/
theorem since_eq_zero (hu : Until h t) (hs : t < s) : since h s = 0 := by
  rw [since, List.countP_eq_zero]
  intro p hp
  have := hu p hp
  simp [not_le.2 (this.trans_lt hs)]

/-- What was over then is over later. -/
theorem Until.mono (hu : Until h t) (ht : t ≤ t') : Until h t' := fun p hp => (hu p hp).trans ht

/-- The history goes on. -/
theorem Until.snoc (hu : Until h t) (ht : t ≤ t') (ok : Bool) : Until (h ++ [(t', ok)]) t' := by
  intro p hp
  rcases List.mem_append.1 hp with hp | hp
  · exact (hu p hp).trans ht
  · rw [List.mem_singleton.1 hp]

/-- In a history in the order of time, the calls of an interval are those since its begin, in the
    part up to its end. -/
theorem within_eq_since (hh : h.Pairwise fun p q => p.1 ≤ q.1) (a b : K) :
    ∃ h₁ h₂, h = h₁ ++ h₂ ∧ Until h₁ b ∧ within h a b = since h₁ a := by
  induction h with
  | nil => exact ⟨[], [], rfl, nofun, rfl⟩
  | cons p h ih =>
    obtain ⟨hp, hh⟩ := List.pairwise_cons.1 hh
    rcases le_or_gt p.1 b with hb | hb
    · obtain ⟨h₁, h₂, rfl, hu, hw⟩ := ih hh
      refine ⟨p :: h₁, h₂, rfl, List.forall_mem_cons.2 ⟨hb, hu⟩, ?_⟩
      simp only [within, since, List.countP_cons, hb, decide_true, Bool.and_true] at hw ⊢
      rw [hw]
    · -- all calls from here on are after the end
      refine ⟨[], p :: h, rfl, nofun, ?_⟩
      rw [within, List.countP_eq_zero.2]
      · rfl
      · intro q hq
        have : b < q.1 := by
          rcases List.mem_cons.1 hq with rfl | hq
          · exact hb
          · exact hb.trans_le (hp q hq)
        simp [not_le.2 this]

/-! ## The level -/

variable [Field K]

/-- `x` is the least of what the intervals from `s` to `t` leave. -/
structure IsLevel (C r t₀ : K) (h : History K) (t x : K) : Prop where
  le : ∀ s, t₀ ≤ s → s ≤ t → x + since h s ≤ C + r * (t - s)
  attained : ∃ s, t₀ ≤ s ∧ s ≤ t ∧ x + since h s = C + r * (t - s)

/-- A full bucket. -/
theorem isLevel_nil : IsLevel C r t₀ [] t₀ C where
  le s hs hs' := by simp [since, le_antisymm hs' hs]
  attained := ⟨t₀, le_refl _, le_refl _, by simp [since]⟩

/-- A denial keeps the level. -/
theorem IsLevel.deny (hl : IsLevel C r t₀ h t x) : IsLevel C r t₀ (h ++ [(t, false)]) t x where
  le s hs hs' := by
    rw [since_deny]
    exact hl.le s hs hs'
  attained := by
    obtain ⟨s, hs, hs', he⟩ := hl.attained
    exact ⟨s, hs, hs', by rw [since_deny, he]⟩

/-- The calls since any `a`, with the tokens that are left, are within the rate up to `t`. -/
def Bounded (C r : K) (h : History K) (t x : K) : Prop :=
  ∀ a, since h a = 0 ∨ since h a + x ≤ C + r * (t - a)

theorem bounded_nil : Bounded C r [] t x := fun _ => .inl rfl

/-- It keeps the bound, too. -/
theorem Bounded.deny (hb : Bounded C r h t x) : Bounded C r (h ++ [(t', false)]) t x := by
  intro a
  rw [since_deny]
  exact hb a

variable [IsStrictOrderedRing K]

/-- The level rises with time, up to the capacity. -/
theorem IsLevel.refill (hl : IsLevel C r t₀ h t x) (hr : 0 ≤ r) (hu : Until h t) (ht₀ : t₀ ≤ t)
    (ht : t ≤ t') : IsLevel C r t₀ h t' (min C (x + r * (t' - t))) := by
  constructor
  · intro s hs hs'
    rcases le_or_gt s t with hst | hst
    · have := hl.le s hs hst
      have := min_le_right C (x + r * (t' - t))
      have : r * (t' - s) = r * (t' - t) + r * (t - s) := by ring
      linarith
    · rw [since_eq_zero hu hst, Nat.cast_zero, add_zero]
      have := mul_nonneg hr (sub_nonneg.2 hs')
      have := min_le_left C (x + r * (t' - t))
      linarith
  · rcases le_total C (x + r * (t' - t)) with hC | hC
    · -- full again: the empty interval
      rw [min_eq_left hC]
      rcases ht.lt_or_eq with hlt | rfl
      · exact ⟨t', ht₀.trans ht, le_refl _, by simp [since_eq_zero hu hlt]⟩
      · obtain ⟨s, hs, hs', he⟩ := hl.attained
        have hx := hl.le t ht₀ (le_refl _)
        have hz : (0 : K) ≤ since h t := Nat.cast_nonneg _
        rw [sub_self, mul_zero, add_zero] at hx hC
        exact ⟨t, ht₀, le_refl _, by rw [sub_self, mul_zero, add_zero]; linarith⟩
    · rw [min_eq_right hC]
      obtain ⟨s, hs, hs', he⟩ := hl.attained
      refine ⟨s, hs, hs'.trans ht, ?_⟩
      have : r * (t' - s) = r * (t' - t) + r * (t - s) := by ring
      linarith

/-- A grant lowers it by one. -/
theorem IsLevel.take (hl : IsLevel C r t₀ h t x) : IsLevel C r t₀ (h ++ [(t, true)]) t (x - 1) := by
  constructor
  · intro s hs hs'
    have := hl.le s hs hs'
    rw [since_take hs', Nat.cast_add, Nat.cast_one]
    linarith
  · obtain ⟨s, hs, hs', he⟩ := hl.attained
    refine ⟨s, hs, hs', ?_⟩
    rw [since_take hs', Nat.cast_add, Nat.cast_one]
    linarith

/-- There is a token iff every interval has room for one more call. -/
theorem IsLevel.one_le_iff (hl : IsLevel C r t₀ h t x) :
    1 ≤ x ↔ ∀ s, t₀ ≤ s → s ≤ t → (since h s : K) + 1 ≤ C + r * (t - s) := by
  constructor
  · intro hx s hs hs'
    have := hl.le s hs hs'
    linarith
  · intro hall
    obtain ⟨s, hs, hs', he⟩ := hl.attained
    have := hall s hs hs'
    linarith

/-! ## Bounds -/

/-- A refill that adds no more than its share keeps the bound. -/
theorem Bounded.refill {x' : K} (hb : Bounded C r h t x) (hx : x' ≤ x + r * (t' - t)) :
    Bounded C r h t' x' := by
  intro a
  rcases hb a with hz | hle
  · exact .inl hz
  · right
    have : r * (t' - a) = r * (t' - t) + r * (t - a) := by ring
    linarith

/-- Take a token at `t'`, when a refill at `t'` would not have filled the bucket. -/
theorem Bounded.take (hb : Bounded C r h t x) (hr : 0 ≤ r) (hu : Until h t')
    (hroom : x + r * (t' - t) ≤ C) : Bounded C r (h ++ [(t', true)]) t (x - 1) := by
  intro a
  rcases le_or_gt a t' with ha | ha
  · right
    rw [since_take ha, Nat.cast_add, Nat.cast_one]
    rcases hb a with hz | hle
    · have := mul_le_mul_of_nonneg_left (sub_le_sub_right ha t) hr
      have : r * (t - a) = -(r * (a - t)) := by ring
      rw [hz, Nat.cast_zero]
      linarith
    · linarith
  · left
    refine since_eq_zero (t := t') (fun p hp => ?_) ha
    rcases List.mem_append.1 hp with hp | hp
    · exact hu p hp
    · rw [List.mem_singleton.1 hp]

/-- The bound on the calls since `a`, for an interval that ends after the last refill. -/
theorem Bounded.since_le {b : K} (hb : Bounded C r h t x) (hx : 0 ≤ x) (hr : 0 ≤ r) (hC : 0 ≤ C)
    (ht : t ≤ b) {a : K} (hab : a ≤ b) : (since h a : K) ≤ C + r * (b - a) := by
  rcases hb a with hz | hle
  · rw [hz, Nat.cast_zero]
    exact add_nonneg hC (mul_nonneg hr (sub_nonneg.2 hab))
  · have : r * (t - a) ≤ r * (b - a) := mul_le_mul_of_nonneg_left (sub_le_sub_right ht a) hr
    linarith

end LiteCode.TokenBucket
