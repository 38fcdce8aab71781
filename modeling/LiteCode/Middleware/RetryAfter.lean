import Mathlib.Data.Rat.Floor
import LiteCode.Middleware.RateMeter

/-!
# Waiting for a token

A rejected call is told after how many seconds to come again. The source rounds the time that the
missing part of a token needs by adding 0.999 and cutting, so that a time with less than a
millisecond over whole seconds is cut to these: the bucket is then still short of a token.

* `Bucket.deficit`: the time that is needed, in seconds; `RoundsUp`: it is not cut;
* `Bucket.retry_iff`: a bucket that is left alone allows the retry iff this is so;
* `retryAfter_sufficient_iff`: the same of a key in a run of calls for other keys.
-/

namespace LiteCode.RateLimiter

/-- The nanoseconds of some seconds. -/
def seconds (s : Int) : Int := s * 1000000000

/-- The seconds that the bucket needs until it has one token. -/
def Bucket.deficit (q : Quota) (now : Int) (b : Bucket) : ℚ :=
  (1 - (b.ready q now).tokens) * q.window / q.capacity

/-- The seconds that are announced are not less than the time that is needed: this is at most one
    second, or whole seconds, or a millisecond or more over whole seconds. -/
def RoundsUp (need : ℚ) : Prop := need ≤ 1 ∨ Int.fract need = 0 ∨ 1 / 1000 ≤ Int.fract need

instance (need : ℚ) : Decidable (RoundsUp need) := inferInstanceAs (Decidable (_ ∨ _ ∨ _))

/-! ## Rounding -/

variable {q : Quota} {b : Bucket} {now t : Int}

theorem trunc_of_nonneg {x : ℚ} (hx : 0 ≤ x) : trunc x = ⌊x⌋ := by
  rw [trunc, Int.tdiv_eq_ediv_of_nonneg (Rat.num_nonneg.2 hx), Rat.floor_def']

theorem le_max_floor_iff (need : ℚ) :
    need ≤ (max 1 ⌊need + 999 / 1000⌋ : ℤ) ↔ RoundsUp need := by
  have hsum : need + 999 / 1000 = ⌊need⌋ + (Int.fract need + 999 / 1000) := by
    linarith [Int.floor_add_fract need]
  have hpos := Int.fract_nonneg need
  have hlt := Int.fract_lt_one need
  have hneed := Int.floor_add_fract need
  rw [hsum, Int.floor_intCast_add, Int.cast_max, le_max_iff, RoundsUp, Int.cast_one, Int.cast_add]
  refine or_congr_right ?_
  rcases lt_or_ge (Int.fract need) (1 / 1000) with hf | hf
  · have hfloor : ⌊Int.fract need + 999 / 1000⌋ = 0 := by
      rw [Int.floor_eq_iff, Int.cast_zero]
      constructor <;> linarith
    rw [hfloor, Int.cast_zero, add_zero, or_iff_left (not_le.2 hf)]
    constructor
    · intro h
      linarith
    · intro h
      linarith
  · have hfloor : ⌊Int.fract need + 999 / 1000⌋ = 1 := by
      rw [Int.floor_eq_iff, Int.cast_one]
      constructor <;> linarith
    rw [hfloor, Int.cast_one]
    exact iff_of_true (by linarith) (.inr hf)

namespace Bucket

/-- What a rejected call is told, if its quota has a window. -/
theorem retryAfter_eq (hC : 1 ≤ q.capacity) (hW : 1 ≤ q.window)
    (hrej : (b.consume q now).1.allowed = false) :
    (b.consume q now).1.retryAfter = max 1 ⌊b.deficit q now + 999 / 1000⌋ := by
  rw [consume_allowed, decide_eq_false_iff_not] at hrej
  have hC' : (0 : ℚ) < q.capacity := Int.cast_pos.2 (by omega)
  have hW' : (0 : ℚ) < q.window := Int.cast_pos.2 (by omega)
  have hneed : (1 - (b.ready q now).tokens) * ((q.windowMs : ℚ) / q.capacity) / 1000 =
      b.deficit q now := by
    rw [deficit, Quota.windowMs]
    push_cast
    field_simp
  have hnonneg : 0 ≤ b.deficit q now + 999 / 1000 := by
    have : 0 < 1 - (b.ready q now).tokens := sub_pos.2 (not_le.1 hrej)
    have : 0 ≤ b.deficit q now := by
      rw [deficit]
      positivity
    linarith
  rw [consume, take, ← ready, if_neg hrej]
  change max 1 (trunc (_ / 1000 + 999 / 1000)) = _
  rw [hneed, trunc_of_nonneg hnonneg]

/-- After it has been made ready, less than a millisecond has passed since the last refill. -/
theorem ready_last (hC : 1 ≤ q.capacity) (hW : 1 ≤ q.window) (hlast : b.lastRefill ≤ now) :
    (b.ready q now).lastRefill ≤ now ∧ now - (b.ready q now).lastRefill < 1000000 := by
  have hreinit : (b.reinit q now).lastRefill ≤ now := by
    rw [reinit]
    split_ifs
    · exact le_refl _
    · exact hlast
  rw [ready]
  rcases lt_or_ge (now - (b.reinit q now).lastRefill) 1000000 with hlt | hge
  · rw [refill_of_lt hlt]
    exact ⟨hreinit, hlt⟩
  · rw [refill_of_ge hC hW hge]
    exact ⟨le_refl _, by dsimp only; omega⟩

theorem ready_quota (q : Quota) (now : Int) (b : Bucket) :
    (b.ready q now).capacity = q.capacity ∧ (b.ready q now).window = q.window := by
  have hreinit : (b.reinit q now).capacity = q.capacity ∧ (b.reinit q now).window = q.window := by
    rw [reinit]
    split_ifs with h
    · exact ⟨rfl, rfl⟩
    · rw [not_or, not_not, not_not] at h
      exact h
  rw [ready, Bucket.refill]
  split_ifs <;> exact hreinit

/-- A bucket that is made ready once more is only refilled. -/
theorem ready_ready (q : Quota) (now t : Int) (b : Bucket) :
    (b.ready q now).ready q t = (b.ready q now).refill q t := by
  obtain ⟨hc, hw⟩ := ready_quota q now b
  rw [ready, reinit_of_eq hc hw]

/-- The tokens of a bucket after whole seconds. -/
theorem tokens_after (hC : 1 ≤ q.capacity) (hW : 1 ≤ q.window) (hlast : b.lastRefill ≤ now)
    {r : Int} (hr : 1 ≤ r) : (((b.ready q now).ready q (now + seconds r)).tokens : ℚ) =
      min (q.capacity : ℚ) ((b.ready q now).tokens + r * q.capacity / q.window) := by
  obtain ⟨hle, hlt⟩ := ready_last hC hW hlast
  -- the part of a millisecond since the last refill is cut
  have hms : (now + seconds r - (b.ready q now).lastRefill) / 1000000 = r * 1000 := by
    rw [seconds]
    omega
  have hge : 1000000 ≤ now + seconds r - (b.ready q now).lastRefill := by
    rw [seconds]
    omega
  have hW' : (q.window : ℚ) ≠ 0 := by
    rw [Int.cast_ne_zero]
    omega
  have hgain : ((r * 1000 : ℤ) : ℚ) / (q.window * 1000) * q.capacity =
      r * q.capacity / q.window := by
    push_cast
    field_simp
  rw [ready_ready, refill_of_ge hC hW hge, hms, hgain]

/-- A bucket that has rejected a call and is left alone allows the next one after the time that was
    announced iff its quota has a window and this time was not cut. -/
theorem retry_iff (hC : 1 ≤ q.capacity) (hlast : b.lastRefill ≤ now)
    (hrej : (b.consume q now).1.allowed = false) :
    ((b.consume q now).2.consume q
        (now + seconds (b.consume q now).1.retryAfter)).1.allowed = true ↔
      1 ≤ q.window ∧ RoundsUp (b.deficit q now) := by
  have hlow : (b.ready q now).tokens < 1 := by
    rw [consume_allowed, decide_eq_false_iff_not] at hrej
    exact not_le.1 hrej
  have hbucket : (b.consume q now).2 = b.ready q now := by
    rw [consume_bucket, if_neg (not_le.2 hlow)]
  rw [consume_allowed, decide_eq_true_iff, hbucket]
  rcases lt_or_ge q.window 1 with hW | hW
  · rw [ready_ready, refill_of_not fun h => absurd h.2 (not_le.2 hW)]
    exact iff_of_false (not_le.2 hlow) fun h => absurd h.1 (not_le.2 hW)
  · have hC' : (1 : ℚ) ≤ q.capacity := by exact_mod_cast hC
    have hW' : (0 : ℚ) < q.window := Int.cast_pos.2 (by omega)
    rw [retryAfter_eq hC hW hrej, tokens_after hC hW hlast (le_max_left _ _), le_min_iff,
      and_iff_right hC', and_iff_right hW, ← le_max_floor_iff, deficit, div_le_iff₀ (by linarith),
      ← sub_le_iff_le_add', le_div_iff₀ hW']

end Bucket

/-! ## The key in the table -/

variable {m : Buckets} {c c' : Call} {k : Bytes} {l : List Call}

/-- Calls for other keys leave a bucket as it is, if it is there at all. -/
theorem lookup_run (hne : ∀ d ∈ l, d.composite ≠ k) (hk : k ∈ run m l) :
    (run m l).lookup k = m.lookup k := by
  induction l generalizing m with
  | nil => rfl
  | cons d l ih =>
    rw [List.forall_mem_cons] at hne
    have hnext : (run (consume m d).2 l).lookup k = (consume m d).2.lookup k := ih hne.2 hk
    have hmem : k ∈ (consume m d).2 := (UnorderedMap.mem_congr hnext).1 hk
    rw [consume, AList.mem_insert, or_iff_right (Ne.symm hne.1)] at hmem
    exact hnext.trans (lookup_consume_ne (Ne.symm hne.1) fun _ => hmem)

/-- The bucket that a call finds, after the pruning. -/
def found (m : Buckets) (c : Call) : Bucket :=
  ((pruneIfNeeded c.layout m).lookup c.composite).getD {}

theorem consume_fst (m : Buckets) (c : Call) :
    (consume m c).1 = ((found m c).consume c.quota c.now).1 := rfl

theorem lookup_consume (m : Buckets) (c : Call) :
    (consume m c).2.lookup c.composite = some ((found m c).consume c.quota c.now).2 :=
  AList.lookup_insert _

/-- A key without a bucket is allowed a call. -/
theorem allowed_of_not_mem (hC : 1 ≤ c.quota.capacity)
    (h : c.composite ∉ pruneIfNeeded c.layout m) : (consume m c).1.allowed = true := by
  have hnew : found m c = {} := by rw [found, AList.lookup_eq_none.2 h, Option.getD_none]
  have hC' : (1 : ℚ) ≤ c.quota.capacity := by exact_mod_cast hC
  rw [consume_fst, hnew, Bucket.consume_allowed, Bucket.ready_new hC]
  exact decide_eq_true hC'

/-- A rejected call that comes again after the time that it was told, when there were only calls
    for other keys in between, is allowed iff its bucket was pruned, or its quota has a window and
    the time was not cut. -/
theorem retryAfter_sufficient_iff (hC : 1 ≤ c.quota.capacity)
    (hlast : ∀ b, m.lookup c.composite = some b → b.lastRefill ≤ c.now)
    (hrej : (consume m c).1.allowed = false) (hl : ∀ d ∈ l, d.composite ≠ c.composite)
    (hquota : c'.quota = c.quota) (hkey : c'.key = c.key)
    (hnow : c'.now = c.now + seconds (consume m c).1.retryAfter) :
    (consume (run (consume m c).2 l) c').1.allowed = true ↔
      c.composite ∉ pruneIfNeeded c'.layout (run (consume m c).2 l) ∨
        1 ≤ c.quota.window ∧ RoundsUp ((found m c).deficit c.quota c.now) := by
  have hcomp : c'.composite = c.composite := by rw [Call.composite, hquota, hkey, Call.composite]
  by_cases hkept : c.composite ∈ pruneIfNeeded c'.layout (run (consume m c).2 l)
  · have hmem : c.composite ∈ pruneIfNeeded c.layout m := by
      by_contra h
      rw [allowed_of_not_mem hC h] at hrej
      cases hrej
    have hfound : (found m c).lastRefill ≤ c.now := by
      obtain ⟨b, hb⟩ := UnorderedMap.exists_lookup hmem
      rw [found, hb, Option.getD_some]
      rw [lookup_pruneIfNeeded fun _ => hmem] at hb
      exact hlast b hb
    -- the retry finds what the rejected call has left
    have hagain : found (run (consume m c).2 l) c' = ((found m c).consume c.quota c.now).2 := by
      have hrun : c.composite ∈ run (consume m c).2 l :=
        (UnorderedMap.mem_congr (lookup_pruneIfNeeded fun _ => hkept)).1 hkept
      rw [found, hcomp, lookup_pruneIfNeeded fun _ => hkept, lookup_run hl hrun, lookup_consume,
        Option.getD_some]
    rw [consume_fst, hagain, hquota, hnow, consume_fst,
      Bucket.retry_iff hC hfound (consume_fst m c ▸ hrej), or_iff_right (not_not.2 hkept)]
  · refine iff_of_true (allowed_of_not_mem (hquota ▸ hC) ?_) (.inl hkept)
    rw [hcomp]
    exact hkept

/-! ## The clock -/

/-- A call leaves no last refill after it, if it has found none. -/
theorem Bucket.lastRefill_consume_le (hb : b.lastRefill ≤ t) (hnow : now ≤ t) :
    (b.consume q now).2.lastRefill ≤ t := by
  have hready : (b.ready q now).lastRefill ≤ t := by
    rw [ready, Bucket.refill, reinit]
    split_ifs
    · exact hnow
    · exact hnow
    · exact hnow
    · exact hb
  rw [consume_bucket]
  split_ifs <;> exact hready

/-- On a clock that does not go back, no bucket is refilled after now. -/
theorem lastRefill_run_le (ht : 0 ≤ t) (hm : ∀ k b, m.lookup k = some b → b.lastRefill ≤ t)
    (hl : ∀ d ∈ l, d.now ≤ t) : ∀ k b, (run m l).lookup k = some b → b.lastRefill ≤ t := by
  induction l generalizing m with
  | nil => exact hm
  | cons d l ih =>
    rw [List.forall_mem_cons] at hl
    refine ih (fun k b hb => ?_) hl.2
    replace hb : (consume m d).2.lookup k = some b := hb
    have hfound : ∀ k b, (pruneIfNeeded d.layout m).lookup k = some b → b.lastRefill ≤ t := by
      intro k b hb
      have hmem : k ∈ pruneIfNeeded d.layout m :=
        UnorderedMap.mem_of_lookup hb
      rw [lookup_pruneIfNeeded fun _ => hmem] at hb
      exact hm k b hb
    by_cases hk : k = d.composite
    · subst hk
      rw [lookup_consume, Option.some_inj] at hb
      subst hb
      refine Bucket.lastRefill_consume_le ?_ hl.1
      rw [found]
      cases hd : (pruneIfNeeded d.layout m).lookup d.composite with
      | none => exact ht
      | some b => exact hfound _ b hd
    · have hne : (consume m d).2.lookup k = (pruneIfNeeded d.layout m).lookup k :=
        AList.lookup_insert_ne hk
      exact hfound k b (hne.symm.trans hb)

/-! ## Seven calls in a minute -/

/-- Seven calls in a minute. -/
def sevenPerMinute : Quota := ⟨bytes "auth.login", 7, 60⟩

/-- The table after seven calls of `u1` at the time 0. -/
def sevenTaken : Buckets :=
  run ∅ (.replicate 7 (callAt sevenPerMinute (bytes "u1") 0))

/-- A retry that is told 9 s, and needs 8.471 s. -/
theorem retryAfter_sufficient_nine :
    (consume (run (consume sevenTaken (callAt sevenPerMinute (bytes "u1") 100000000)).2
        [callAt sevenPerMinute (bytes "u2") 200000000])
      (callAt sevenPerMinute (bytes "u1") 9100000000)).1.allowed = true ↔
      composite sevenPerMinute.name (bytes "u1") ∉
        pruneIfNeeded (.listed Bytes Bucket)
          (run (consume sevenTaken (callAt sevenPerMinute (bytes "u1") 100000000)).2
            [callAt sevenPerMinute (bytes "u2") 200000000]) ∨
        1 ≤ sevenPerMinute.window ∧
          RoundsUp ((found sevenTaken (callAt sevenPerMinute (bytes "u1") 100000000)).deficit
            sevenPerMinute 100000000) :=
  retryAfter_sufficient_iff (c := callAt sevenPerMinute (bytes "u1") 100000000) (by decide)
    (fun b => lastRefill_run_le (by decide) (fun _ _ hb => absurd hb (by simp))
      (fun d hd => List.eq_of_mem_replicate hd ▸ by decide) _ b)
    (by decide +kernel) (by decide) rfl rfl (by decide +kernel)

/-- A call 571 ms after the bucket was emptied needs 8.0004 s and is told to come again after 8 s,
    when it is rejected again. -/
theorem retryAfter_short :
    (consume sevenTaken (callAt sevenPerMinute (bytes "u1") 571000000)).1.allowed = false ∧
    (consume sevenTaken (callAt sevenPerMinute (bytes "u1") 571000000)).1.retryAfter = 8 ∧
    (consume (consume sevenTaken (callAt sevenPerMinute (bytes "u1") 571000000)).2
      (callAt sevenPerMinute (bytes "u1") (571000000 + seconds 8))).1.allowed = false := by
  decide +kernel

end LiteCode.RateLimiter
