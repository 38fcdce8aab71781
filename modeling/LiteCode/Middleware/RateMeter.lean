import Mathlib.Data.List.Induction
import Mathlib.Data.Rat.Cast.Order
import Mathlib.Tactic.FieldSimp
import LiteCode.Lib.TokenBucket
import LiteCode.Middleware.RateLimit

/-!
# Metering

A bucket with a fixed quota, called at times that do not go back. Its tokens stay between zero and
its capacity, and the answers are those of an exact token bucket if all calls are made at whole
milliseconds (`isLevel_ready`).

Otherwise a call within a millisecond after the last refill takes a token without a refill, and
the time before it is paid out later, even if it would have been wasted on a full bucket. This is
less than a millisecond: intervals are within the rate nevertheless if that gives at most one token
(`Quota.Slow`), and may be exceeded if it gives more (`burst_exceeds`).

* `consume_meters`: all of this, for the calls of one quota and key in a run of any calls.
-/

namespace LiteCode.RateLimiter

/-- The history of some answers. -/
def history (l : List (Int × Bool)) : TokenBucket.History ℚ := l.map fun p => (p.1, p.2)

/-- The tokens that a quota gives for a nanosecond. -/
def Quota.rate (q : Quota) : ℚ := q.capacity / (q.window * 1000000000)

/-- What a nanosecond less than a millisecond gives is at most one token. -/
def Quota.Slow (q : Quota) : Prop := 999999 * q.capacity ≤ 1000000000 * q.window

/-- The times are whole milliseconds. -/
def Whole (l : List Int) : Prop := ∀ t ∈ l, (1000000 : Int) ∣ t

namespace Bucket

open TokenBucket

section Meter

variable {q : Quota} {b : Bucket} {now t t₀ : Int} {h : History ℚ} {l : List Int}

theorem answers_append (q : Quota) (b : Bucket) (l₁ l₂ : List Int) :
    answers q b (l₁ ++ l₂) = answers q b l₁ ++ answers q (after q b l₁) l₂ := by
  induction l₁ generalizing b with
  | nil => rfl
  | cons t l ih =>
    rw [List.cons_append, answers, ih, answers]
    rfl

theorem after_append (q : Quota) (b : Bucket) (l : List Int) (now : Int) :
    after q b (l ++ [now]) = ((after q b l).consume q now).2 := by
  rw [after, List.foldl_append]
  rfl

/-- A bucket of the quota, with an amount of tokens that is possible at the time `t`. -/
structure Fits (q : Quota) (t : Int) (b : Bucket) : Prop where
  capacity : b.capacity = q.capacity
  window : b.window = q.window
  nonneg : 0 ≤ b.tokens
  le : b.tokens ≤ q.capacity
  last : b.lastRefill ≤ t

theorem Fits.mono (hb : b.Fits q t) (h : t ≤ now) : b.Fits q now :=
  { hb with last := hb.last.trans h }

theorem reinit_of_eq (hc : b.capacity = q.capacity) (hw : b.window = q.window) (now : Int) :
    b.reinit q now = b := by
  simp [Bucket.reinit, hc, hw]

theorem Fits.reinit (hb : b.Fits q t) (now : Int) : b.reinit q now = b :=
  reinit_of_eq hb.capacity hb.window now

/-! ### Refills -/

/-- Within a millisecond nothing is refilled. -/
theorem refill_of_lt (h : now - b.lastRefill < 1000000) : b.refill q now = b := by
  have hms : ¬0 < milliseconds (now - b.lastRefill) := by
    rw [milliseconds]
    rcases lt_or_ge (now - b.lastRefill) 0 with hneg | hnonneg
    · rw [← Int.neg_sub, Int.neg_tdiv, Int.tdiv_eq_ediv_of_nonneg (by omega)]
      omega
    · rw [Int.tdiv_eq_ediv_of_nonneg hnonneg]
      omega
  rw [Bucket.refill]
  exact if_neg fun hc => hms hc.1

/-- After a millisecond or more there is a refill. -/
theorem refill_of_ge (hC : 1 ≤ q.capacity) (hW : 1 ≤ q.window)
    (h : 1000000 ≤ now - b.lastRefill) : b.refill q now = { b with
      tokens := min (q.capacity : ℚ)
        (b.tokens + ((now - b.lastRefill) / 1000000 : Int) / (q.window * 1000) * q.capacity)
      lastRefill := now } := by
  have hms : milliseconds (now - b.lastRefill) = (now - b.lastRefill) / 1000000 :=
    Int.tdiv_eq_ediv_of_nonneg (by omega)
  have hcond : 0 < (now - b.lastRefill) / 1000000 ∧ 0 < q.windowMs ∧ 0 < q.capacity := by
    rw [Quota.windowMs]
    omega
  rw [Bucket.refill, hms, if_pos hcond, Quota.windowMs]
  push_cast
  rfl

/-- Without a capacity or a window nothing is refilled. -/
theorem refill_of_not (h : ¬(1 ≤ q.capacity ∧ 1 ≤ q.window)) : b.refill q now = b := by
  refine if_neg fun hc => h ⟨hc.2.2, ?_⟩
  have := hc.2.1
  rw [Quota.windowMs] at this
  omega

/-- A refill: nothing within a millisecond, and otherwise at most what the time gives, with equality
    if it is whole milliseconds. -/
theorem refill_cases (b : Bucket) (now : Int) (hC : 1 ≤ q.capacity) (hW : 1 ≤ q.window) :
    (now - b.lastRefill < 1000000 ∧ b.refill q now = b) ∨
      1000000 ≤ now - b.lastRefill ∧ ∃ e : ℚ, 0 ≤ e ∧ e ≤ now - b.lastRefill ∧
        ((1000000 : Int) ∣ now - b.lastRefill → e = now - b.lastRefill) ∧
        b.refill q now = { b with
          tokens := min (q.capacity : ℚ) (b.tokens + q.rate * e), lastRefill := now } := by
  rcases lt_or_ge (now - b.lastRefill) 1000000 with hlt | hge
  · exact .inl ⟨hlt, refill_of_lt hlt⟩
  · refine .inr ⟨hge, ((now - b.lastRefill) / 1000000 * 1000000 : ℤ), ?_, ?_, fun hd => ?_, ?_⟩
    · exact Int.cast_nonneg (by omega)
    · rw [← Int.cast_sub, Int.cast_le]
      omega
    · rw [← Int.cast_sub, Int.cast_inj]
      omega
    · have hW' : (q.window : ℚ) ≠ 0 := by
        rw [Int.cast_ne_zero]
        omega
      have hgain : ((now - b.lastRefill) / 1000000 : ℤ) / (q.window * 1000 : ℚ) * q.capacity =
          q.rate * ((now - b.lastRefill) / 1000000 * 1000000 : ℤ) := by
        rw [Quota.rate, Int.cast_mul]
        push_cast
        field_simp
        ring
      rw [refill_of_ge hC hW hge, hgain]

theorem rate_nonneg (hC : 1 ≤ q.capacity) (hW : 1 ≤ q.window) : 0 ≤ q.rate := by
  have hC' : (0 : ℚ) ≤ q.capacity := Int.cast_nonneg (by omega)
  have hW' : (0 : ℚ) ≤ q.window := Int.cast_nonneg (by omega)
  exact div_nonneg hC' (mul_nonneg hW' (by norm_num))

theorem Fits.refill (hb : b.Fits q now) (hC : 1 ≤ q.capacity) (hW : 1 ≤ q.window) :
    (b.refill q now).Fits q now := by
  have hC' : (0 : ℚ) ≤ q.capacity := Int.cast_nonneg (by omega)
  rcases refill_cases b now hC hW with ⟨-, he⟩ | ⟨-, e, he, -, -, heq⟩
  · rwa [he]
  · rw [heq]
    have := mul_nonneg (rate_nonneg hC hW) he
    exact ⟨hb.capacity, hb.window, le_min hC' (by linarith [hb.nonneg]), min_le_left _ _,
      le_refl _⟩

/-- A new bucket is full. -/
theorem reinit_new (hC : 1 ≤ q.capacity) (now : Int) :
    ({} : Bucket).reinit q now = ⟨q.capacity, q.window, q.capacity, now⟩ := by
  rw [Bucket.reinit, if_pos]
  left
  dsimp only
  omega

theorem fits_full (hC : 1 ≤ q.capacity) (now : Int) :
    (⟨q.capacity, q.window, q.capacity, now⟩ : Bucket).Fits q now :=
  ⟨rfl, rfl, Int.cast_nonneg (by omega), le_refl _, le_refl _⟩

/-- The bucket at the moment of taking a token. -/
def ready (q : Quota) (now : Int) (b : Bucket) : Bucket := refill q now (reinit q now b)

theorem ready_new (hC : 1 ≤ q.capacity) (now : Int) :
    ({} : Bucket).ready q now = ⟨q.capacity, q.window, q.capacity, now⟩ := by
  have hz : milliseconds (now - now) = 0 := by
    rw [sub_self]
    rfl
  rw [ready, reinit_new hC, Bucket.refill]
  exact if_neg fun h => absurd h.1 (by rw [hz]; exact lt_irrefl _)

theorem Fits.ready_eq (hb : b.Fits q t) (now : Int) : b.ready q now = b.refill q now := by
  rw [ready, hb.reinit]

theorem consume_allowed (q : Quota) (now : Int) (b : Bucket) :
    (b.consume q now).1.allowed = decide (1 ≤ (b.ready q now).tokens) := by
  rw [consume, take, ← ready]
  split_ifs with h <;> simp [h]

theorem consume_bucket (q : Quota) (now : Int) (b : Bucket) :
    (b.consume q now).2 = if 1 ≤ (b.ready q now).tokens then
      { b.ready q now with tokens := (b.ready q now).tokens - 1 } else b.ready q now := by
  rw [consume, take, ← ready]
  split_ifs <;> rfl

/-- The bucket after a call at `t`: one token below its capacity, or without a token. -/
structure Metered (q : Quota) (t : Int) (b : Bucket) : Prop extends Fits q t b where
  low : b.tokens ≤ q.capacity - 1 ∨ b.tokens < 1

theorem metered_consume (h : (b.ready q now).Fits q now) : Metered q now (b.consume q now).2 := by
  rw [consume_bucket]
  split_ifs with hone
  · exact ⟨⟨h.capacity, h.window, sub_nonneg.2 hone, by linarith [h.le], h.last⟩,
      .inl (by linarith [h.le])⟩
  · exact ⟨h, .inr (not_le.1 hone)⟩

/-- The bucket at any call of a run in the order of time. -/
theorem fits_ready (hC : 1 ≤ q.capacity) (hW : 1 ≤ q.window)
    (hl : (l ++ [now]).Pairwise (· ≤ ·)) : ((after q {} l).ready q now).Fits q now := by
  induction l using List.reverseRecOn generalizing now with
  | nil =>
    rw [after, List.foldl_nil, ready_new hC]
    exact fits_full hC now
  | append_singleton l t ih =>
    obtain ⟨hl, -, hle⟩ := List.pairwise_append.1 hl
    have hb := metered_consume (ih hl)
    rw [← after_append] at hb
    have hfits := hb.toFits.mono (hle t (by simp) now (by simp))
    rw [hfits.ready_eq]
    exact hfits.refill hC hW

theorem metered_after (hC : 1 ≤ q.capacity) (hW : 1 ≤ q.window)
    (hl : (l ++ [t]).Pairwise (· ≤ ·)) : Metered q t (after q {} (l ++ [t])) := by
  rw [after_append]
  exact metered_consume (fits_ready hC hW hl)

theorem map_fst_answers (q : Quota) (b : Bucket) (l : List Int) :
    (answers q b l).map Prod.fst = l := by
  induction l generalizing b with
  | nil => rfl
  | cons t l ih => rw [answers, List.map_cons, ih]

/-- The calls of a run are in the order of time. -/
theorem until_history (q : Quota) (b : Bucket) (hl : (l ++ [now]).Pairwise (· ≤ ·)) :
    Until (history (answers q b l)) (now : ℚ) := by
  intro p hp
  obtain ⟨⟨t, ok⟩, ht, rfl⟩ := List.mem_map.1 hp
  have hmem : t ∈ l := map_fst_answers q b l ▸ List.mem_map_of_mem ht
  exact Int.cast_le.2 ((List.pairwise_append.1 hl).2.2 t hmem now (by simp))

theorem history_answers_append (q : Quota) (b : Bucket) (l : List Int) (now : Int) :
    history (answers q b (l ++ [now])) = history (answers q b l) ++
      [((now : ℚ), decide (1 ≤ ((after q b l).ready q now).tokens))] := by
  rw [answers_append, history, List.map_append, ← consume_allowed]
  rfl

/-- The last refill was at one of the calls. -/
theorem lastRefill_mem (hC : 1 ≤ q.capacity) (hW : 1 ≤ q.window)
    (hl : (l ++ [now]).Pairwise (· ≤ ·)) :
    ((after q {} l).ready q now).lastRefill ∈ l ++ [now] := by
  induction l using List.reverseRecOn generalizing now with
  | nil =>
    rw [after, List.foldl_nil, ready_new hC]
    exact List.mem_singleton_self now
  | append_singleton l t ih =>
    obtain ⟨hl', -, hle⟩ := List.pairwise_append.1 hl
    have hb := metered_after hC hW hl'
    have hfits := hb.toFits.mono (hle t (by simp) now (by simp))
    rw [hfits.ready_eq]
    rcases refill_cases (after q {} (l ++ [t])) now hC hW with ⟨-, he⟩ | ⟨-, e, -, -, -, he⟩
    · have hlast : (after q {} (l ++ [t])).lastRefill =
          ((after q {} l).ready q t).lastRefill := by
        rw [after_append, consume_bucket]
        split_ifs <;> rfl
      rw [he, hlast]
      exact List.mem_append_left _ (ih hl')
    · rw [he]
      simp

/-! ### Bounds -/

/-- The bucket is bounded, and a token that it has fits under its capacity. -/
def Roomy (q : Quota) (h : History ℚ) (now : Int) (b : Bucket) : Prop :=
  Bounded (q.capacity : ℚ) q.rate h b.lastRefill b.tokens ∧
    (1 ≤ b.tokens → b.tokens + q.rate * (now - b.lastRefill) ≤ q.capacity)

theorem Roomy.consume (hC : 1 ≤ q.capacity) (hW : 1 ≤ q.window) (hu : Until h (now : ℚ))
    (hb : Roomy q h now (b.ready q now)) :
    Bounded (q.capacity : ℚ) q.rate (h ++ [((now : ℚ), decide (1 ≤ (b.ready q now).tokens))])
      (b.consume q now).2.lastRefill (b.consume q now).2.tokens := by
  rw [consume_bucket]
  split_ifs with hone
  · rw [decide_eq_true hone]
    exact hb.1.take (rate_nonneg hC hW) hu (hb.2 hone)
  · rw [decide_eq_false hone]
    exact hb.1.deny

/-- Less than a millisecond gives at most one token to a slow quota. -/
theorem rate_mul_le (hW : 1 ≤ q.window) (hC : 1 ≤ q.capacity) (hs : q.Slow) {d : Int}
    (hd : d < 1000000) : q.rate * d ≤ 1 := by
  have hW' : (0 : ℚ) < q.window * 1000000000 :=
    mul_pos (Int.cast_pos.2 (by omega)) (by norm_num)
  have hd' : (d : ℚ) ≤ 999999 := by exact_mod_cast Int.le_sub_one_of_lt hd
  have hs' : (999999 : ℚ) * q.capacity ≤ 1000000000 * q.window := by exact_mod_cast hs
  have := mul_le_mul_of_nonneg_left hd' (rate_nonneg hC hW)
  refine this.trans ?_
  rw [Quota.rate, div_mul_eq_mul_div, div_le_one hW']
  linarith

/-- A run of calls at whole milliseconds, or for a slow quota, is bounded. -/
theorem roomy_ready (hC : 1 ≤ q.capacity) (hW : 1 ≤ q.window)
    (hmode : Whole (l ++ [now]) ∨ q.Slow) (hl : (l ++ [now]).Pairwise (· ≤ ·)) :
    Roomy q (history (answers q {} l)) now ((after q {} l).ready q now) := by
  induction l using List.reverseRecOn generalizing now with
  | nil =>
    rw [after, List.foldl_nil, ready_new hC]
    exact ⟨bounded_nil, fun _ => by simp⟩
  | append_singleton l t ih =>
    obtain ⟨hl', -, hle⟩ := List.pairwise_append.1 hl
    have hmode' : Whole (l ++ [t]) ∨ q.Slow :=
      hmode.imp_left fun h a ha => h a (List.mem_append_left _ ha)
    have hbound := (ih hmode' hl').consume hC hW (until_history q {} hl')
    rw [← history_answers_append, ← after_append] at hbound
    have hb := metered_after hC hW hl'
    have hfits := hb.toFits.mono (hle t (by simp) now (by simp))
    have hmem := lastRefill_mem hC hW hl
    rw [hfits.ready_eq] at hmem ⊢
    rcases refill_cases (after q {} (l ++ [t])) now hC hW with ⟨hlt, he⟩ | ⟨-, e, -, hle, -, he⟩
    · rw [he] at hmem ⊢
      refine ⟨hbound, fun hone => ?_⟩
      rcases hmode with hw | hs
      · -- no time has passed
        obtain ⟨x, hx⟩ := hw _ hmem
        obtain ⟨y, hy⟩ := hw now (by simp)
        have hsame : (after q {} (l ++ [t])).lastRefill = now := by
          have := hfits.last
          omega
        rw [hsame, sub_self, mul_zero, add_zero]
        exact hb.le
      · have := rate_mul_le hW hC hs hlt
        rw [Int.cast_sub] at this
        rcases hb.low with hlow | hlow
        · linarith
        · exact absurd hone (not_le.2 hlow)
    · rw [he]
      refine ⟨hbound.refill ((min_le_right _ _).trans ?_), fun _ => ?_⟩
      · have := mul_le_mul_of_nonneg_left hle (rate_nonneg hC hW)
        linarith
      · rw [sub_self, mul_zero, add_zero]
        exact min_le_left _ _

/-- The calls allowed in an interval of a bounded run. -/
theorem within_le (hC : 1 ≤ q.capacity) (hW : 1 ≤ q.window) (hmode : Whole l ∨ q.Slow)
    (hl : l.Pairwise (· ≤ ·)) {a b : ℚ} (hab : a ≤ b) :
    (within (history (answers q {} l)) a b : ℚ) ≤ q.capacity + q.rate * (b - a) := by
  have hC' : (0 : ℚ) ≤ q.capacity := Int.cast_nonneg (by omega)
  have hsorted : (history (answers q {} l)).Pairwise fun p p' => p.1 ≤ p'.1 := by
    have := map_fst_answers q {} l ▸ hl
    rw [List.pairwise_map] at this
    rw [history, List.pairwise_map]
    exact this.imp fun h => Int.cast_le.2 h
  obtain ⟨h₁, h₂, he, hu, hw⟩ := within_eq_since hsorted a b
  -- the calls up to the end of the interval
  have hpre : h₁ = history (answers q {} (l.take h₁.length)) := by
    have hlen : (history (answers q {} (l.take h₁.length))).length = h₁.length := by
      have hall : (history (answers q {} l)).length = l.length := by
        rw [history, List.length_map, ← List.length_map (f := Prod.fst), map_fst_answers]
      rw [history, List.length_map, ← List.length_map (f := Prod.fst), map_fst_answers,
        List.length_take, ← hall, he, List.length_append]
      omega
    rw [← List.take_append_drop h₁.length l, answers_append, history, List.map_append] at he
    exact (List.append_inj he hlen).1.symm
  rw [hw]
  rcases List.eq_nil_or_concat (l.take h₁.length) with hnil | ⟨l₁, t, hl₁⟩
  · rw [hpre, hnil]
    simpa [history, answers, since] using
      add_nonneg hC' (mul_nonneg (rate_nonneg hC hW) (sub_nonneg.2 hab))
  · rw [List.concat_eq_append] at hl₁
    have hsub : List.Sublist (l₁ ++ [t]) l := hl₁ ▸ List.take_sublist _ _
    have hmode' : Whole (l₁ ++ [t]) ∨ q.Slow := hmode.imp_left fun h x hx => h x (hsub.subset hx)
    have hl' := hl.sublist hsub
    have hbound := (roomy_ready hC hW hmode' hl').consume hC hW (until_history q {} hl')
    have hb := metered_after hC hW hl'
    rw [← history_answers_append, ← after_append] at hbound
    rw [hpre, hl₁] at hu ⊢
    have htb : (t : ℚ) ≤ b := by
      rw [history_answers_append] at hu
      exact hu _ (List.mem_append_right _ (List.mem_singleton_self _))
    exact hbound.since_le hb.nonneg (rate_nonneg hC hW) hC'
      ((Int.cast_le.2 hb.last).trans htb) hab

/-! ### The level -/

/-- In a run of calls at whole milliseconds, the tokens at a call are what all intervals leave. -/
theorem isLevel_ready (hC : 1 ≤ q.capacity) (hW : 1 ≤ q.window) (hw : Whole (l ++ [now]))
    (hl : (l ++ [now]).Pairwise (· ≤ ·)) (hhead : (l ++ [now]).head? = some t₀) :
    ((after q {} l).ready q now).lastRefill = now ∧
      IsLevel (q.capacity : ℚ) q.rate t₀ (history (answers q {} l)) now
        ((after q {} l).ready q now).tokens := by
  induction l using List.reverseRecOn generalizing now with
  | nil =>
    cases hhead
    rw [after, List.foldl_nil, ready_new hC]
    exact ⟨rfl, isLevel_nil⟩
  | append_singleton l t ih =>
    obtain ⟨hl', -, hle⟩ := List.pairwise_append.1 hl
    have hnow : t ≤ now := hle t (by simp) now (by simp)
    have hhead' : (l ++ [t]).head? = some t₀ := by
      cases l <;> simpa using hhead
    obtain ⟨hlast, hlevel⟩ := ih (fun a ha => hw a (List.mem_append_left _ ha)) hl' hhead'
    have hb := metered_after hC hW hl'
    have hfits := hb.toFits.mono hnow
    have hlast' : (after q {} (l ++ [t])).lastRefill = t := by
      rw [after_append, consume_bucket]
      split_ifs <;> exact hlast
    -- The call before has taken a token, or it was denied.
    have hlevel' : IsLevel (q.capacity : ℚ) q.rate t₀ (history (answers q {} (l ++ [t]))) t
        (after q {} (l ++ [t])).tokens := by
      rw [history_answers_append, after_append, consume_bucket]
      split_ifs with hone
      · rw [decide_eq_true hone]
        exact hlevel.take
      · rw [decide_eq_false hone]
        exact hlevel.deny
    obtain ⟨x, hx⟩ := hw t (by simp)
    obtain ⟨y, hy⟩ := hw now (by simp)
    rw [hfits.ready_eq]
    -- At whole milliseconds a refill loses no fraction of a token.
    rcases refill_cases (after q {} (l ++ [t])) now hC hW with ⟨hlt, he⟩ | ⟨-, e, -, -, heq, he⟩
    · rw [hlast'] at hlt
      obtain rfl : t = now := by omega
      rw [he]
      exact ⟨hlast', hlevel'⟩
    · rw [he]
      refine ⟨rfl, ?_⟩
      rw [heq ⟨y - x, by omega⟩, hlast']
      obtain ⟨s, hs, hs', -⟩ := hlevel'.attained
      have hu : Until (history (answers q {} (l ++ [t]))) (t : ℚ) := by
        rw [history_answers_append]
        exact (until_history q {} hl').snoc (le_refl _) _
      exact hlevel'.refill (rate_nonneg hC hW) hu (hs.trans hs') (Int.cast_le.2 hnow)

/-- A call at whole milliseconds is allowed iff all intervals up to it have room for it. -/
theorem allowed_iff (hC : 1 ≤ q.capacity) (hW : 1 ≤ q.window) (hw : Whole l)
    (hl : l.Pairwise (· ≤ ·)) (hhead : l.head? = some t₀) {pre post : List (Int × Bool)} {ok : Bool}
    (he : answers q {} l = pre ++ (now, ok) :: post) :
    ok = true ↔ ∀ s : ℚ, t₀ ≤ s → s ≤ now →
      (since (history pre) s : ℚ) + 1 ≤ q.capacity + q.rate * (now - s) := by
  -- the calls before it, and after it
  have hsplit : l = pre.map Prod.fst ++ now :: post.map Prod.fst := by
    rw [← map_fst_answers q {} l, he, List.map_append, List.map_cons]
  rw [hsplit, answers_append, answers] at he
  obtain ⟨hpre, hcall⟩ := List.append_inj he (by
    rw [← List.length_map (f := Prod.fst), map_fst_answers, List.length_map])
  obtain ⟨hok, -⟩ := List.cons.inj hcall
  have hok := congrArg Prod.snd hok
  dsimp only at hok
  rw [consume_allowed] at hok
  have hsub : (pre.map Prod.fst ++ [now]).Sublist l := by
    rw [hsplit]
    exact (List.Sublist.refl _).append (by simp)
  have hhead' : (pre.map Prod.fst ++ [now]).head? = some t₀ := by
    rw [hsplit] at hhead
    cases pre <;> simpa using hhead
  have hlevel := (isLevel_ready hC hW (fun a ha => hw a (hsub.subset ha)) (hl.sublist hsub)
    hhead').2
  rw [hpre] at hlevel
  rw [← hok, decide_eq_true_iff, hlevel.one_le_iff]

end Meter

end Bucket

/-! ## Runs -/

open TokenBucket

/-- The calls of one quota and key, in a run whose clock does not go back and that does not prune
    their bucket:

    * the tokens stay between zero and the capacity;
    * the answers are those to these calls alone;
    * they are within the rate in every interval, if the calls are made at whole milliseconds or
      less than a millisecond gives at most one token;
    * in the first case, a call is allowed iff every interval since the first call has room for
      it. -/
theorem consume_meters (q : Quota) (key : Bytes) (l : List Call) (hC : 1 ≤ q.capacity)
    (hW : 1 ≤ q.window) (hq : 0x7C ∉ q.name) (hclock : (l.map (·.now)).Pairwise (· ≤ ·))
    (hnames : ∀ c ∈ l, 0x7C ∉ c.quota.name) (hfix : ∀ c ∈ l, c.Is q.name key → c.quota = q)
    (hsp : Spared (composite q.name key) ∅ l) :
    (∀ b, (run ∅ l).lookup (composite q.name key) = some b →
      0 ≤ b.tokens ∧ b.tokens ≤ q.capacity) ∧
    log q.name key ∅ l = log q.name key ∅ (l.filter fun c => c.Is q.name key) ∧
    (Whole (times q.name key l) ∨ q.Slow → ∀ a b : ℚ, a ≤ b →
      (within (history (log q.name key ∅ l)) a b : ℚ) ≤ q.capacity + q.rate * (b - a)) ∧
    (Whole (times q.name key l) → ∀ (t₀ t : Int) (ok : Bool) (pre post : List (Int × Bool)),
      (times q.name key l).head? = some t₀ → log q.name key ∅ l = pre ++ (t, ok) :: post →
      (ok = true ↔ ∀ s : ℚ, t₀ ≤ s → s ≤ t →
        (since (history pre) s : ℚ) + 1 ≤ q.capacity + q.rate * (t - s))) := by
  obtain ⟨hlog, hrun, hnil⟩ := log_eq hq hsp hnames hfix
  have hsorted : (times q.name key l).Pairwise (· ≤ ·) :=
    hclock.sublist (List.filter_sublist.map _)
  rw [AList.lookup_empty, Option.getD_none] at hlog hrun
  refine ⟨fun b hb => ?_, log_eq_alone hq hsp hnames hfix, fun hmode a b hab => ?_,
    fun hw t₀ t ok pre post hhead he => ?_⟩
  · rcases List.eq_nil_or_concat (times q.name key l) with hz | ⟨l', t, hl'⟩
    · rw [hnil hz] at hb
      cases hb
    · rw [List.concat_eq_append] at hl'
      rw [hb, Option.getD_some, hl'] at hrun
      have := Bucket.metered_after hC hW (hl' ▸ hsorted)
      rw [← hrun] at this
      exact ⟨this.nonneg, this.le⟩
  · rw [hlog]
    exact Bucket.within_le hC hW hmode hsorted hab
  · exact Bucket.allowed_iff hC hW hw hsorted hhead (hlog ▸ he)

/-- A call at a time, the table being visited as it is listed. -/
def callAt (q : Quota) (key : Bytes) (now : Int) : Call := ⟨q, key, now, .listed Bytes Bucket⟩

/-- Two calls in a second. -/
def twoPerSecond : Quota := ⟨bytes "auth.login", 2, 1⟩

/-- Three calls of one key with one of another key in between: two of the three are allowed. -/
theorem consume_meters_login :
    (within (history (log twoPerSecond.name (bytes "u1") ∅
      [callAt twoPerSecond (bytes "u1") 0, callAt twoPerSecond (bytes "u2") 0,
        callAt twoPerSecond (bytes "u1") 0, callAt twoPerSecond (bytes "u1") 1000000]))
      0 1000000 : ℚ)
      ≤ 2 + twoPerSecond.rate * (1000000 - 0) :=
  (consume_meters twoPerSecond (bytes "u1") _ (by decide) (by decide) (by decide) (by decide)
    (by simp [callAt]; decide) (by simp [callAt]) (by decide +kernel)).2.2.1
      (.inr (show (_ : Int) ≤ _ by decide)) 0 1000000 (by norm_num)

/-! ## Bursts -/

section Burst

variable {q : Quota} {b : Bucket} {now : Int} {n : Nat}

/-- A bucket within a millisecond of its last refill allows as many calls as it has tokens. -/
theorem answers_replicate (hb : b.Fits q now) (hC : 1 ≤ q.capacity) (hW : 1 ≤ q.window)
    (hlt : now - b.lastRefill < 1000000) (hn : n ≤ b.tokens) :
    b.answers q (.replicate n now) = .replicate n (now, true) ∧
      b.after q (.replicate n now) = { b with tokens := b.tokens - n } := by
  induction n generalizing b with
  | zero => exact ⟨rfl, by simp [Bucket.after]⟩
  | succ n ih =>
    have hready : b.ready q now = b := by
      rw [hb.ready_eq]
      rcases Bucket.refill_cases b now hC hW with ⟨-, he⟩ | ⟨hge, -⟩
      · exact he
      · exact absurd hlt (not_lt.2 hge)
    rw [Nat.cast_add, Nat.cast_one] at hn
    have hone : 1 ≤ (b.ready q now).tokens := by
      rw [hready]
      have : (0 : ℚ) ≤ n := Nat.cast_nonneg n
      linarith
    have hnext : (b.consume q now).2 = { b with tokens := b.tokens - 1 } := by
      rw [Bucket.consume_bucket, if_pos hone, hready]
    have hfits : (b.consume q now).2.Fits q now :=
      (Bucket.metered_consume (by rwa [hready])).toFits
    obtain ⟨ha, he⟩ := ih hfits (by rw [hnext]; exact hlt) (by rw [hnext]; linarith)
    rw [List.replicate_succ, List.replicate_succ]
    constructor
    · rw [Bucket.answers, ha, Bucket.consume_allowed, decide_eq_true hone]
    · refine he.trans ?_
      rw [hnext]
      simp only [Bucket.mk.injEq, true_and, and_true]
      push_cast
      ring

/-- A window gives the capacity. -/
theorem rate_mul_window (hW : 1 ≤ q.window) : q.rate * (q.window * 1000000000) = q.capacity := by
  have hW' : (q.window : ℚ) ≠ 0 := by
    rw [Int.cast_ne_zero]
    omega
  rw [Quota.rate]
  field_simp

/-- One call at the time 0, those that are left a nanosecond before a millisecond has passed, and
    as many as possible after the window. -/
def burst (q : Quota) : List Int :=
  0 :: (.replicate (q.capacity.toNat - 1) 999999 ++
    q.window * 1000000000 :: .replicate (q.capacity.toNat - 1) (q.window * 1000000000))

theorem pairwise_burst (hW : 1 ≤ q.window) : (burst q).Pairwise (· ≤ ·) := by
  have hlate : 999999 ≤ q.window * 1000000000 := by omega
  simp only [burst, List.pairwise_cons, List.pairwise_append, List.mem_append, List.mem_cons,
    List.mem_replicate, List.pairwise_replicate]
  refine ⟨fun t ht => ?_, .inr (le_refl _), ⟨fun t ht => ht.2.ge, .inr (le_refl _)⟩,
    fun a ha b hb => ?_⟩
  · rcases ht with ht | ht | ht <;> omega
  · rcases hb with hb | hb <;> omega

/-- All calls of a burst are allowed. -/
theorem answers_burst (hC : 1 ≤ q.capacity) (hW : 1 ≤ q.window) :
    Bucket.answers q {} (burst q) = (burst q).map fun t => (t, true) := by
  have hC' : (1 : ℚ) ≤ q.capacity := by exact_mod_cast hC
  have hn : ((q.capacity.toNat - 1 : ℕ) : ℚ) = q.capacity - 1 := by
    have : ((q.capacity.toNat - 1 : ℕ) : ℤ) = q.capacity - 1 := by omega
    exact_mod_cast congrArg (Int.cast : ℤ → ℚ) this
  -- a call to a full bucket
  have hfull : ∀ {b : Bucket} {now : Int},
      b.ready q now = ⟨q.capacity, q.window, q.capacity, now⟩ →
        (b.consume q now).1.allowed = true ∧
          (b.consume q now).2 = ⟨q.capacity, q.window, q.capacity - 1, now⟩ := by
    intro b now h
    rw [Bucket.consume_allowed, Bucket.consume_bucket, h]
    simp [hC']
  have hleft : ∀ last now : Int, last ≤ now →
      (⟨q.capacity, q.window, q.capacity - 1, last⟩ : Bucket).Fits q now := fun last now h =>
    ⟨rfl, rfl, by dsimp only; linarith, by dsimp only; linarith, h⟩
  obtain ⟨hfirst, hafter⟩ := hfull (Bucket.ready_new hC 0)
  obtain ⟨hrest, hempty⟩ := answers_replicate (hleft 0 999999 (by norm_num)) hC hW
    (by norm_num) (n := q.capacity.toNat - 1) hn.le
  have hzero : (⟨q.capacity, q.window, 0, 0⟩ : Bucket).Fits q (q.window * 1000000000) :=
    ⟨rfl, rfl, le_refl _, by dsimp only; linarith, by dsimp only; omega⟩
  -- the window is over: the bucket is full again
  have hagain : (⟨q.capacity, q.window, 0, 0⟩ : Bucket).ready q (q.window * 1000000000) =
      ⟨q.capacity, q.window, q.capacity, q.window * 1000000000⟩ := by
    rw [hzero.ready_eq]
    rcases Bucket.refill_cases ⟨q.capacity, q.window, 0, 0⟩
        (q.window * 1000000000) hC hW with ⟨hlt, -⟩ | ⟨-, e, -, -, heq, he⟩
    · dsimp only at hlt
      omega
    · rw [he, heq ⟨q.window * 1000, by dsimp only; ring⟩]
      simp [rate_mul_window hW]
  obtain ⟨hlast, hafter'⟩ := hfull hagain
  obtain ⟨hmore, -⟩ := answers_replicate (hleft _ (q.window * 1000000000) (le_refl _)) hC hW
    (by dsimp only; omega) (n := q.capacity.toNat - 1) hn.le
  rw [hn, sub_self] at hempty
  rw [burst, Bucket.answers, hfirst, hafter, Bucket.answers_append, hrest, hempty, Bucket.answers,
    hlast, hafter', hmore]
  simp

/-- The interval of a burst without its first call: one call less than twice the capacity. -/
theorem within_burst (hC : 1 ≤ q.capacity) (hW : 1 ≤ q.window) :
    within (history (Bucket.answers q {} (burst q))) 999999 (q.window * 1000000000) =
      2 * q.capacity.toNat - 1 := by
  have hW' : (1 : ℚ) ≤ q.window := by exact_mod_cast hW
  have hlate : (999999 : ℚ) ≤ q.window * 1000000000 := by linarith
  have hcount : within (history ((burst q).map fun t => (t, true))) 999999
      (q.window * 1000000000) = q.capacity.toNat - 1 + (q.capacity.toNat - 1 + 1) := by
    simp [history, burst, within, List.countP_append, List.countP_replicate, hlate]
  rw [answers_burst hC hW, hcount]
  omega

/-- If less than a millisecond gives more than one token, a burst exceeds the rate. -/
theorem burst_exceeds (hC : 1 ≤ q.capacity) (hW : 1 ≤ q.window) (hs : ¬ q.Slow) :
    q.capacity + q.rate * (q.window * 1000000000 - 999999) <
      (within (history (Bucket.answers q {} (burst q))) 999999 (q.window * 1000000000) : ℚ) := by
  have hW' : (0 : ℚ) < q.window * 1000000000 :=
    mul_pos (Int.cast_pos.2 (by omega)) (by norm_num)
  have hgain : 1 < q.rate * 999999 := by
    have hs' : (1000000000 : ℚ) * q.window < 999999 * q.capacity := by exact_mod_cast not_le.1 hs
    rw [Quota.rate, div_mul_eq_mul_div, one_lt_div hW']
    linarith
  have hcount : ((2 * q.capacity.toNat - 1 : ℕ) : ℚ) = 2 * q.capacity - 1 := by
    have : ((2 * q.capacity.toNat - 1 : ℕ) : ℤ) = 2 * q.capacity - 1 := by omega
    exact_mod_cast congrArg (Int.cast : ℤ → ℚ) this
  rw [within_burst hC hW, hcount, mul_sub, rate_mul_window hW]
  linarith

end Burst

/-- Two thousand calls in a second. -/
def twoThousand : Quota := ⟨bytes "sample.run", 2000, 1⟩

/-- A run of calls of one key, in the order of time, that exceeds the rate in an interval. -/
theorem rate_exceeded : ∃ l : List Call, (l.map (·.now)).Pairwise (· ≤ ·) ∧
    (∀ c ∈ l, 0x7C ∉ c.quota.name) ∧ (∀ c ∈ l, c.quota = twoThousand) ∧
    Spared (composite twoThousand.name (bytes "u1")) ∅ l ∧
    2000 + (1000000000 - 999999) * 2000 / 1000000000 < (within (history
      (log twoThousand.name (bytes "u1") ∅ l)) 999999 1000000000 : ℚ) := by
  have hsp : Spared (composite twoThousand.name (bytes "u1")) ∅
      ((burst twoThousand).map (callAt twoThousand (bytes "u1"))) := by
    refine spared_alone (fun a ha => absurd ha (AList.notMem_empty a)) fun c hc => ?_
    obtain ⟨t, -, rfl⟩ := List.mem_map.1 hc
    rfl
  have hquota : ∀ c ∈ (burst twoThousand).map (callAt twoThousand (bytes "u1")),
      c.quota = twoThousand := fun c hc => by
    obtain ⟨t, -, rfl⟩ := List.mem_map.1 hc
    rfl
  have hname : 0x7C ∉ twoThousand.name := by decide
  refine ⟨(burst twoThousand).map (callAt twoThousand (bytes "u1")), ?_,
    fun c hc => hquota c hc ▸ hname, hquota, hsp, ?_⟩
  · rw [List.map_map]
    simpa [Function.comp_def, callAt] using pairwise_burst (q := twoThousand) (by decide)
  · have htimes : times twoThousand.name (bytes "u1")
        ((burst twoThousand).map (callAt twoThousand (bytes "u1"))) = burst twoThousand := by
      simp [times, List.filter_map, Function.comp_def, callAt, Call.Is]
    rw [(log_eq hname hsp (fun c hc => hquota c hc ▸ hname) fun c hc _ => hquota c hc).1, htimes]
    have := burst_exceeds (q := twoThousand) (by decide) (by decide)
      (show ¬ (_ : Int) ≤ _ by decide)
    simp only [twoThousand, Quota.rate, Int.cast_one, Int.cast_ofNat, one_mul] at this
    refine lt_of_eq_of_lt (by norm_num) this

end LiteCode.RateLimiter
