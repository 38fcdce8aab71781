import LiteCode.Lib.Binary64
import LiteCode.Middleware.RetryAfter

/-!
# Tokens as doubles

`consume` of `src/middleware/rate_limit.h` computes with `double`. Here is the same bucket with
every operation rounded, where `LiteCode.Middleware.RateLimit` has rationals. An `int` is a
`double` as it is, but the milliseconds are rounded too.

* `Bucket.consume64`, `consume64`: as in the source;
* `Bucket.Exact`: the amount that a refill leads to needs no rounding, or is the capacity;
* `Bucket.consume64_eq`, `run64_eq`: if the refills are exact, the buckets are those with rationals,
  and so are the answers.
-/

namespace LiteCode.RateLimiter

open Binary64 (Representable)

namespace Bucket

/-- The tokens after a refill. -/
def level (q : Quota) (elapsedMs : Int) (tokens : ℚ) : ℚ :=
  min (q.capacity : ℚ) (tokens + elapsedMs / q.windowMs * q.capacity)

/-- The tokens after a refill, as the source computes them. -/
def level64 (q : Quota) (elapsedMs : Int) (tokens : ℚ) : ℚ :=
  let share := Binary64.round (Binary64.round elapsedMs / Binary64.round q.windowMs)
  let add := Binary64.round (share * q.capacity)
  min (q.capacity : ℚ) (Binary64.round (tokens + add))

def refill64 (q : Quota) (now : Int) (b : Bucket) : Bucket :=
  let elapsedMs := milliseconds (now - b.lastRefill)
  if 0 < elapsedMs ∧ 0 < q.windowMs ∧ 0 < q.capacity then
    { b with
      tokens := level64 q elapsedMs b.tokens
      lastRefill := now }
  else b

/-- Take one token, if there is one. -/
def take64 (q : Quota) (now : Int) (b : Bucket) : Decision × Bucket :=
  let msPerToken := Binary64.round (Binary64.round q.windowMs / q.capacity)
  if 1 ≤ b.tokens then
    let tokens := Binary64.round (b.tokens - 1)
    let missing := Binary64.round (q.capacity - tokens)
    let resetMs := trunc (Binary64.round (Binary64.round (missing * msPerToken) + 1 / 2))
    ({ allowed := true, limit := q.capacity, remaining := trunc tokens, retryAfter := 0,
       resetAt := now + resetMs * 1000000 },
     { b with tokens })
  else
    let needMs := Binary64.round (Binary64.round (1 - b.tokens) * msPerToken)
    let needS := Binary64.round (needMs / 1000)
    ({ allowed := false, limit := q.capacity, remaining := 0,
       retryAfter := max 1 (trunc (Binary64.round (needS + Binary64.round (999 / 1000)))),
       resetAt := now + trunc (Binary64.round (needMs + 1 / 2)) * 1000000 },
     b)

/-- The bucket at the moment of taking a token. -/
def ready64 (q : Quota) (now : Int) (b : Bucket) : Bucket := refill64 q now (reinit q now b)

/-- The part of `consume` that is about one bucket. -/
def consume64 (q : Quota) (now : Int) (b : Bucket) : Decision × Bucket :=
  take64 q now (ready64 q now b)

/-- A refill at this time is exact: the tokens that there are and those that are added make an
    amount that is not rounded, or at least the capacity. -/
def Exact (q : Quota) (now : Int) (b : Bucket) : Prop :=
  let b := b.reinit q now
  let elapsedMs := milliseconds (now - b.lastRefill)
  0 < elapsedMs → 0 < q.windowMs → 0 < q.capacity →
    level64 q elapsedMs b.tokens = level q elapsedMs b.tokens

instance (q : Quota) (now : Int) (b : Bucket) : Decidable (b.Exact q now) :=
  inferInstanceAs (Decidable (_ → _ → _ → _ = _))

end Bucket

/-- `consume`. -/
def consume64 (m : Buckets) (c : Call) : Decision × Buckets :=
  let m := pruneIfNeeded c.layout m
  let (d, b) := ((m.lookup c.composite).getD {}).consume64 c.quota c.now
  (d, m.insert c.composite b)

/-- The table after some calls. -/
def run64 (m : Buckets) (l : List Call) : Buckets := l.foldl (fun m c => (consume64 m c).2) m

/-- What holds at every call of a run. -/
def EachCall (P : Buckets → Call → Prop) : Buckets → List Call → Prop
  | _, [] => True
  | m, c :: l => P m c ∧ EachCall P (consume64 m c).2 l

/-! ## One bucket -/

variable {q : Quota} {now : Int} {b : Bucket}

namespace Bucket

/-- A refill that rounds nothing is that of the rationals. -/
theorem ready64_eq (h : b.Exact q now) : b.ready64 q now = b.ready q now := by
  rw [ready64, ready, refill64, refill]
  split_ifs with hc
  · rw [h hc.1 hc.2.1 hc.2.2]
    rfl
  · rfl

/-- A call is allowed if a whole token is there. -/
theorem consume64_allowed (q : Quota) (now : Int) (b : Bucket) :
    (b.consume64 q now).1.allowed = decide (1 ≤ (b.ready64 q now).tokens) := by
  rw [consume64, take64]
  split_ifs with h <;> simp [h]

/-- An allowed call takes one token, rounded. -/
theorem consume64_bucket (q : Quota) (now : Int) (b : Bucket) :
    (b.consume64 q now).2 = if 1 ≤ (b.ready64 q now).tokens then
      { b.ready64 q now with tokens := Binary64.round ((b.ready64 q now).tokens - 1) }
    else b.ready64 q now := by
  rw [consume64, take64]
  split_ifs <;> rfl

/-- The tokens are a `double`, and no more than an `int` may be. -/
structure Doubled (b : Bucket) : Prop where
  tokens : Representable b.tokens
  le : b.tokens ≤ 2 ^ 53

/-- A new bucket holds doubles. -/
theorem doubled_default : ({} : Bucket).Doubled where
  tokens := ⟨0, 0, by norm_num, by norm_num⟩
  le := by norm_num

/-- A refill does not go over the capacity. -/
theorem level64_le (q : Quota) (elapsedMs : Int) (tokens : ℚ) :
    level64 q elapsedMs tokens ≤ q.capacity := min_le_left _ _

/-- A refill ends in a double. -/
theorem representable_level64 (hC : |q.capacity| ≤ 2 ^ 53) (elapsedMs : Int) (tokens : ℚ) :
    Representable (level64 q elapsedMs tokens) := by
  unfold level64
  rcases min_choice (q.capacity : ℚ) (Binary64.round (tokens + _)) with h | h
  · rw [h]
    exact Binary64.representable_intCast hC
  · rw [h]
    exact Binary64.representable_round _

/-- A refill keeps the bucket in doubles. -/
theorem Doubled.ready64 (hb : b.Doubled) (hC : |q.capacity| ≤ 2 ^ 53) (now : Int) :
    (b.ready64 q now).Doubled := by
  have hle : (q.capacity : ℚ) ≤ 2 ^ 53 := by exact_mod_cast (abs_le.1 hC).2
  have hreinit : (b.reinit q now).Doubled := by
    rw [reinit]
    split_ifs
    · exact ⟨Binary64.representable_intCast hC, hle⟩
    · exact hb
  rw [Bucket.ready64, refill64]
  split_ifs
  · exact ⟨representable_level64 hC _ _, (level64_le _ _ _).trans hle⟩
  · exact hreinit

/-- So does a call. -/
theorem Doubled.consume64 (hb : b.Doubled) (hC : |q.capacity| ≤ 2 ^ 53) (now : Int) :
    (b.consume64 q now).2.Doubled := by
  have hready := hb.ready64 hC now
  rw [consume64_bucket]
  split_ifs with hone
  · have hsub := hready.tokens.sub_one hone hready.le
    refine ⟨Binary64.representable_round _, ?_⟩
    rw [hsub.round_eq]
    linarith [hready.le]
  · exact hready

/-- After an exact refill the answer, and the bucket that is left, are those with rationals. -/
theorem consume64_eq (hb : b.Doubled) (hC : |q.capacity| ≤ 2 ^ 53) (h : b.Exact q now) :
    (b.consume64 q now).1.allowed = (b.consume q now).1.allowed ∧
      (b.consume64 q now).2 = (b.consume q now).2 := by
  have hready := hb.ready64 hC now
  rw [consume64_allowed, consume64_bucket, consume_allowed, consume_bucket]
  rw [ready64_eq h] at hready ⊢
  refine ⟨rfl, ?_⟩
  split_ifs with hone
  · rw [(hready.tokens.sub_one hone hready.le).round_eq]
  · rfl

end Bucket

/-! ## Runs -/

variable {m : Buckets} {c : Call} {k : Bytes} {l : List Call}

/-- The bucket of a key, a new one if there is none. -/
def bucketOf (m : Buckets) (k : Bytes) : Bucket := (m.lookup k).getD {}

/-- A run and one more call. -/
theorem run64_append (m : Buckets) (l : List Call) (c : Call) :
    run64 m (l ++ [c]) = (consume64 (run64 m l) c).2 := List.foldl_append

/-- A call of the bucket. -/
theorem consume64_of_composite (hc : c.composite = k)
    (hsp : k ∈ m → k ∈ pruneIfNeeded c.layout m) :
    (consume64 m c).1 = ((bucketOf m k).consume64 c.quota c.now).1 ∧
      bucketOf (consume64 m c).2 k = ((bucketOf m k).consume64 c.quota c.now).2 := by
  subst hc
  simp only [consume64, bucketOf, lookup_pruneIfNeeded hsp, AList.lookup_insert, Option.getD_some,
    and_self]

/-- A call does not touch the bucket of another key, unless it prunes it. -/
theorem bucketOf_consume64_ne (hc : c.composite ≠ k)
    (hsp : k ∈ m → k ∈ pruneIfNeeded c.layout m) : bucketOf (consume64 m c).2 k = bucketOf m k := by
  rw [bucketOf, bucketOf, ← lookup_pruneIfNeeded hsp]
  have hlook : (consume64 m c).2.lookup k = (pruneIfNeeded c.layout m).lookup k :=
    AList.lookup_insert_ne (Ne.symm hc)
  rw [hlook]

/-- The tokens of a table are doubles. -/
def Doubled (m : Buckets) : Prop := ∀ k b, m.lookup k = some b → b.Doubled

/-- The bucket that a call finds holds doubles. -/
theorem Doubled.found (hm : Doubled m) (c : Call) : (found m c).Doubled := by
  rw [RateLimiter.found]
  cases hb : (pruneIfNeeded c.layout m).lookup c.composite with
  | none => exact Bucket.doubled_default
  | some b =>
    refine hm c.composite b ?_
    rwa [← lookup_pruneIfNeeded fun _ => UnorderedMap.mem_of_lookup hb]

/-- A call keeps the table in doubles. -/
theorem Doubled.consume64 (hm : Doubled m) (hC : |c.quota.capacity| ≤ 2 ^ 53) :
    Doubled (consume64 m c).2 := by
  intro k b hb
  by_cases hk : k = c.composite
  · subst hk
    have hself : (RateLimiter.consume64 m c).2.lookup c.composite =
        some ((RateLimiter.found m c).consume64 c.quota c.now).2 := AList.lookup_insert _
    rw [hself, Option.some_inj] at hb
    exact hb ▸ (hm.found c).consume64 hC c.now
  · have hne : (RateLimiter.consume64 m c).2.lookup k = (pruneIfNeeded c.layout m).lookup k :=
      AList.lookup_insert_ne hk
    rw [hne] at hb
    refine hm k b ?_
    rwa [← lookup_pruneIfNeeded fun _ => UnorderedMap.mem_of_lookup hb]

/-- The refill of a call is exact. -/
def ExactCall (m : Buckets) (c : Call) : Prop :=
  |c.quota.capacity| ≤ 2 ^ 53 ∧ (found m c).Exact c.quota c.now

/-- A call that rounds nothing is that of the rationals. -/
theorem consume64_eq (hm : Doubled m) (hc : ExactCall m c) :
    (consume64 m c).1.allowed = (consume m c).1.allowed ∧
      (consume64 m c).2 = (consume m c).2 := by
  obtain ⟨hallowed, hbucket⟩ := Bucket.consume64_eq (hm.found c) hc.1 hc.2
  refine ⟨hallowed, ?_⟩
  exact congrArg (fun b => (pruneIfNeeded c.layout m).insert c.composite b) hbucket

theorem EachCall.imp {P Q : Buckets → Call → Prop} (hPQ : ∀ m c, P m c → Q m c)
    (h : EachCall P m l) : EachCall Q m l := by
  induction l generalizing m with
  | nil => trivial
  | cons c l ih => exact ⟨hPQ m c h.1, ih h.2⟩

/-- What holds of each call of a run, one call later. -/
theorem eachCall_append {P : Buckets → Call → Prop} :
    EachCall P m (l ++ [c]) ↔ EachCall P m l ∧ P (run64 m l) c := by
  induction l generalizing m with
  | nil => exact and_comm
  | cons d l ih =>
    rw [List.cons_append, EachCall, EachCall, ih, and_assoc]
    rfl

/-- In a run with exact refills, the answers and the buckets are those with rationals. -/
theorem run64_eq (hm : Doubled m) (h : EachCall ExactCall m l) :
    EachCall (fun m c => (consume64 m c).1.allowed = (consume m c).1.allowed) m l ∧
      run64 m l = run m l := by
  induction l generalizing m with
  | nil => exact ⟨trivial, rfl⟩
  | cons c l ih =>
    obtain ⟨hallowed, hnext⟩ := consume64_eq hm h.1
    obtain ⟨heach, hrun⟩ := ih (hm.consume64 h.1.1) h.2
    refine ⟨⟨hallowed, heach⟩, ?_⟩
    rw [run, List.foldl_cons, ← hnext]
    exact hrun

end LiteCode.RateLimiter
