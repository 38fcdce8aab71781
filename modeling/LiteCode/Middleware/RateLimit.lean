import Mathlib.Algebra.Order.Ring.Rat
import LiteCode.Lib.Bytes
import LiteCode.Lib.UnorderedMap

/-!
# Rate limits

`RateLimiter` of `src/middleware/rate_limit.h`: a token bucket for each quota and key, in one
table whose keys are the name of the quota, `|` and the key. Times are the nanoseconds of the steady
clock. Amounts of tokens, which the source keeps as `double`, are rationals: here the operations on
them are exact, and in `LiteCode.Middleware.DoubleTokens` they are rounded.

A bucket is refilled in whole milliseconds: the time since the last refill is cut to them, and less
than one refills nothing and leaves the time of the last refill as it was.

* `consume`, `pruneIfNeeded`: as in the source;
* `log`: the answers to the calls of one quota and key, in a run of calls;
* `log_eq_alone`: they depend only on these calls, as long as the bucket is not pruned.
-/

namespace LiteCode.RateLimiter

/-- `RateLimitQuota`: what `consume` reads of it; the window is in seconds. -/
structure Quota where
  name : Bytes
  capacity : Int
  window : Int
  deriving DecidableEq, Repr

/-- `Bucket`. -/
structure Bucket where
  capacity : Int := 0
  window : Int := 0
  tokens : ℚ := 0
  lastRefill : Int := 0
  deriving DecidableEq

/-- `RateLimitDecision`. -/
structure Decision where
  allowed : Bool := true
  limit : Int := 0
  remaining : Int := 0
  retryAfter : Int := 0
  resetAt : Int := 0
  deriving DecidableEq, Repr

/-- `buckets_`. -/
abbrev Buckets := UnorderedMap Bytes Bucket

/-- `duration_cast<milliseconds>`. -/
def milliseconds (ns : Int) : Int := ns.tdiv 1000000

/-- A conversion of a `double` to an integer. -/
def trunc (x : ℚ) : Int := x.num.tdiv x.den

/-- The milliseconds of a window. -/
def Quota.windowMs (q : Quota) : Int := q.window * 1000

/-- The key of a bucket. -/
def composite (name key : Bytes) : Bytes := name ++ 0x7C :: key

namespace Bucket

/-- A bucket that is new, or whose quota has changed, is filled. -/
def reinit (q : Quota) (now : Int) (b : Bucket) : Bucket :=
  if b.capacity ≠ q.capacity ∨ b.window ≠ q.window then
    ⟨q.capacity, q.window, q.capacity, now⟩
  else b

def refill (q : Quota) (now : Int) (b : Bucket) : Bucket :=
  let elapsedMs := milliseconds (now - b.lastRefill)
  if 0 < elapsedMs ∧ 0 < q.windowMs ∧ 0 < q.capacity then
    { b with
      tokens := min (q.capacity : ℚ) (b.tokens + elapsedMs / q.windowMs * q.capacity)
      lastRefill := now }
  else b

/-- Take one token, if there is one. (For the capacity 0 the source divides by zero to get the
    last two fields.) -/
def take (q : Quota) (now : Int) (b : Bucket) : Decision × Bucket :=
  let msPerToken : ℚ := q.windowMs / q.capacity
  if 1 ≤ b.tokens then
    let tokens := b.tokens - 1
    let resetMs := trunc ((q.capacity - tokens) * msPerToken + 1 / 2)
    ({ allowed := true, limit := q.capacity, remaining := trunc tokens, retryAfter := 0,
       resetAt := now + resetMs * 1000000 },
     { b with tokens })
  else
    let needMs := (1 - b.tokens) * msPerToken
    ({ allowed := false, limit := q.capacity, remaining := 0,
       retryAfter := max 1 (trunc (needMs / 1000 + 999 / 1000)),
       resetAt := now + trunc (needMs + 1 / 2) * 1000000 },
     b)

/-- The part of `consume` that is about one bucket. -/
def consume (q : Quota) (now : Int) (b : Bucket) : Decision × Bucket :=
  take q now (refill q now (reinit q now b))

end Bucket

/-- `kRateLimitMaxTrackedKeys`. -/
def maxTrackedKeys : Nat := 100000

/-- Erase some keys. -/
def eraseAll (m : Buckets) (keys : List Bytes) : Buckets := keys.foldl (fun m k => m.erase k) m

/-- `prune_if_needed_locked`: a table at its cap loses the full buckets and, if that is not enough,
    a tenth of the others, the oldest refills first. -/
def pruneIfNeeded (layout : Layout Bytes Bucket) (m : Buckets) : Buckets :=
  if UnorderedMap.size m < maxTrackedKeys then m
  else
    let full := (layout.order m).filter fun e => decide ((e.2.capacity : ℚ) ≤ e.2.tokens)
    let m := eraseAll m (full.map Sigma.fst)
    if UnorderedMap.size m < maxTrackedKeys then m
    else
      let entries := (layout.order m).mergeSort fun a b => a.2.lastRefill ≤ b.2.lastRefill
      eraseAll m ((entries.take (max 1 (entries.length / 10))).map Sigma.fst)

/-- A call of `consume`, with the reading of the clock and the order of the table. -/
structure Call where
  quota : Quota
  key : Bytes
  now : Int
  layout : Layout Bytes Bucket

/-- The key of the bucket of a call. -/
def Call.composite (c : Call) : Bytes := RateLimiter.composite c.quota.name c.key

/-- `consume`. -/
def consume (m : Buckets) (c : Call) : Decision × Buckets :=
  let m := pruneIfNeeded c.layout m
  let (d, b) := ((m.lookup c.composite).getD {}).consume c.quota c.now
  (d, m.insert c.composite b)

/-! ## Runs -/

/-- The table after some calls. -/
def run (m : Buckets) (l : List Call) : Buckets := l.foldl (fun m c => (consume m c).2) m

/-- The call is for the quota `name` and the key. -/
def Call.Is (c : Call) (name key : Bytes) : Prop := c.quota.name = name ∧ c.key = key

instance (c : Call) (name key : Bytes) : Decidable (c.Is name key) :=
  inferInstanceAs (Decidable (_ ∧ _))

/-- The times of the calls for a quota and a key, and whether they were allowed. -/
def log (name key : Bytes) : Buckets → List Call → List (Int × Bool)
  | _, [] => []
  | m, c :: l =>
    if c.Is name key then (c.now, (consume m c).1.allowed) :: log name key (consume m c).2 l
    else log name key (consume m c).2 l

/-- No call prunes the bucket. -/
def Spared (k : Bytes) : Buckets → List Call → Prop
  | _, [] => True
  | m, c :: l => (k ∈ m → k ∈ pruneIfNeeded c.layout m) ∧ Spared k (consume m c).2 l

instance : ∀ k m l, Decidable (Spared k m l)
  | _, _, [] => inferInstanceAs (Decidable True)
  | k, m, c :: l =>
    have : Decidable (Spared k (consume m c).2 l) := instDecidableSpared k _ l
    inferInstanceAs (Decidable (_ ∧ _))

namespace Bucket

/-- A bucket after calls at some times. -/
def after (q : Quota) (b : Bucket) (times : List Int) : Bucket :=
  times.foldl (fun b now => (b.consume q now).2) b

/-- The answers to these calls. -/
def answers (q : Quota) : Bucket → List Int → List (Int × Bool)
  | _, [] => []
  | b, now :: times => (now, (b.consume q now).1.allowed) :: answers q (b.consume q now).2 times

end Bucket

/-- The times of the calls for a quota and a key. -/
def times (name key : Bytes) (l : List Call) : List Int :=
  (l.filter fun c => c.Is name key).map (·.now)

/-! ## One bucket in the table -/

section Table

variable {m : Buckets} {k name name' key key' : Bytes} {layout : Layout Bytes Bucket} {c : Call}
  {l : List Call} {q : Quota}

/-- The keys of two buckets are different, if the names do not contain the separator. -/
theorem composite_inj (hn : 0x7C ∉ name) (hn' : 0x7C ∉ name')
    (h : composite name key = composite name' key') : name = name' ∧ key = key' := by
  have htake : ∀ n k : Bytes, 0x7C ∉ n →
      (composite n k).takeWhile (· != 0x7C) = n ∧
        (composite n k).dropWhile (· != 0x7C) = 0x7C :: k := by
    intro n k hn
    have hall : ∀ a ∈ n, (a != 0x7C) = true := fun a ha => by
      have hne : a ≠ 0x7C := fun he => hn (he ▸ ha)
      simpa using hne
    rw [composite, List.takeWhile_append_of_pos hall, List.dropWhile_append_of_pos hall]
    simp
  obtain ⟨h₁, h₂⟩ := htake name key hn
  obtain ⟨h₁', h₂'⟩ := htake name' key' hn'
  rw [h] at h₁ h₂
  exact ⟨h₁.symm.trans h₁', (List.cons.inj (h₂.symm.trans h₂')).2⟩

theorem mem_eraseAll {keys : List Bytes} : k ∈ eraseAll m keys ↔ k ∉ keys ∧ k ∈ m := by
  induction keys generalizing m with
  | nil => simp [eraseAll]
  | cons a keys ih =>
    rw [eraseAll, List.foldl_cons, ← eraseAll, ih, AList.mem_erase, List.mem_cons, not_or]
    tauto

/-- Erasing leaves the other elements as they are. -/
theorem lookup_eraseAll {keys : List Bytes} (h : k ∉ keys) :
    (eraseAll m keys).lookup k = m.lookup k := by
  induction keys generalizing m with
  | nil => rfl
  | cons a keys ih =>
    rw [List.mem_cons, not_or] at h
    exact (ih h.2).trans (AList.lookup_erase_ne h.1)

/-- What is left after pruning is as it was. -/
theorem lookup_pruneIfNeeded (h : k ∈ m → k ∈ pruneIfNeeded layout m) :
    (pruneIfNeeded layout m).lookup k = m.lookup k := by
  by_cases hk : k ∈ m
  · replace h := h hk
    simp only [pruneIfNeeded] at h ⊢
    split_ifs at h ⊢
    · rfl
    · exact lookup_eraseAll (mem_eraseAll.1 h).1
    · obtain ⟨h₂, h⟩ := mem_eraseAll.1 h
      rw [lookup_eraseAll h₂, lookup_eraseAll (mem_eraseAll.1 h).1]
  · have hn : k ∉ pruneIfNeeded layout m := fun h' => by
      simp only [pruneIfNeeded] at h'
      split_ifs at h'
      · exact hk h'
      · exact hk (mem_eraseAll.1 h').2
      · exact hk (mem_eraseAll.1 (mem_eraseAll.1 h').2).2
    rw [AList.lookup_eq_none.2 hk, AList.lookup_eq_none.2 hn]

theorem run_append (m : Buckets) (l : List Call) (c : Call) :
    run m (l ++ [c]) = (consume (run m l) c).2 := List.foldl_append

theorem lookup_consume_self (hsp : c.composite ∈ m → c.composite ∈ pruneIfNeeded c.layout m) :
    (consume m c).1 = (((m.lookup c.composite).getD {}).consume c.quota c.now).1 ∧
      (consume m c).2.lookup c.composite =
        some (((m.lookup c.composite).getD {}).consume c.quota c.now).2 := by
  simp only [consume, lookup_pruneIfNeeded hsp, AList.lookup_insert, and_self]

/-- A call does not touch the bucket of another key, unless it prunes it. -/
theorem lookup_consume_ne (hk : k ≠ c.composite) (hsp : k ∈ m → k ∈ pruneIfNeeded c.layout m) :
    (consume m c).2.lookup k = m.lookup k := by
  rw [← lookup_pruneIfNeeded hsp]
  exact AList.lookup_insert_ne hk

/-- The answers to the calls for one quota and key, and their bucket at the end, are those of the
    bucket alone, as long as it is not pruned. -/
theorem log_eq (hq : 0x7C ∉ q.name) (hsp : Spared (composite q.name key) m l)
    (hnames : ∀ c ∈ l, 0x7C ∉ c.quota.name) (hfix : ∀ c ∈ l, c.Is q.name key → c.quota = q) :
    log q.name key m l =
        Bucket.answers q ((m.lookup (composite q.name key)).getD {}) (times q.name key l) ∧
      ((run m l).lookup (composite q.name key)).getD {} =
        Bucket.after q ((m.lookup (composite q.name key)).getD {}) (times q.name key l) ∧
      (times q.name key l = [] →
        (run m l).lookup (composite q.name key) = m.lookup (composite q.name key)) := by
  induction l generalizing m with
  | nil => exact ⟨rfl, rfl, fun _ => rfl⟩
  | cons c l ih =>
    obtain ⟨hc, hsp⟩ := hsp
    obtain ⟨hlog, hrun, hnil⟩ := ih hsp (fun d hd => hnames d (List.mem_cons_of_mem _ hd))
      fun d hd => hfix d (List.mem_cons_of_mem _ hd)
    by_cases his : c.Is q.name key
    · have hcq := hfix c List.mem_cons_self his
      have hcomp : c.composite = composite q.name key := by
        rw [Call.composite, his.1, his.2]
      obtain ⟨hd, hb⟩ := lookup_consume_self (hcomp ▸ hc)
      rw [hcomp, hcq] at hd hb
      have htimes : times q.name key (c :: l) = c.now :: times q.name key l := by
        simp [times, his]
      refine ⟨?_, ?_, fun h => ?_⟩
      · rw [log, if_pos his, htimes, Bucket.answers, hlog, hb, hd]
        rfl
      · rw [htimes]
        refine hrun.trans ?_
        rw [hb]
        rfl
      · rw [htimes] at h
        cases h
    · -- There is no bar in a name, so another name or key has another composite.
      have hne : composite q.name key ≠ c.composite := fun he =>
        his ((composite_inj hq (hnames c List.mem_cons_self) he).imp Eq.symm Eq.symm)
      have hb := lookup_consume_ne hne hc
      have htimes : times q.name key (c :: l) = times q.name key l := by simp [times, his]
      refine ⟨?_, ?_, fun h => ?_⟩
      · rw [log, if_neg his, htimes, hlog, hb]
      · rw [htimes]
        refine hrun.trans ?_
        rw [hb]
      · rw [htimes] at h
        exact (hnil h).trans hb

/-- A table with one key is not pruned. -/
theorem spared_alone (hm : ∀ a ∈ m, a = k) (hl : ∀ c ∈ l, c.composite = k) : Spared k m l := by
  induction l generalizing m with
  | nil => trivial
  | cons c l ih =>
    have hprune : pruneIfNeeded c.layout m = m := by
      rw [pruneIfNeeded, if_pos]
      exact (UnorderedMap.size_le_one hm).trans_lt (by decide)
    refine ⟨fun h => by rwa [hprune],
      ih (fun a ha => ?_) fun d hd => hl d (List.mem_cons_of_mem _ hd)⟩
    rw [consume, hprune, AList.mem_insert] at ha
    exact ha.elim (fun h => h.trans (hl c List.mem_cons_self)) (hm a)

/-- Calls for others do not change the answers: they are those to the calls for the quota and the
    key alone. -/
theorem log_eq_alone (hq : 0x7C ∉ q.name) (hsp : Spared (composite q.name key) ∅ l)
    (hnames : ∀ c ∈ l, 0x7C ∉ c.quota.name) (hfix : ∀ c ∈ l, c.Is q.name key → c.quota = q) :
    log q.name key ∅ l = log q.name key ∅ (l.filter fun c => c.Is q.name key) := by
  have hmem : ∀ c ∈ l.filter fun c => c.Is q.name key, c ∈ l ∧ c.Is q.name key := fun c hc => by
    simpa using hc
  have halone : Spared (composite q.name key) ∅ (l.filter fun c => c.Is q.name key) :=
    spared_alone (fun a ha => absurd ha (AList.notMem_empty a)) fun c hc => by
      rw [Call.composite, (hmem c hc).2.1, (hmem c hc).2.2]
  rw [(log_eq hq hsp hnames hfix).1, (log_eq hq halone (fun c hc => hnames c (hmem c hc).1)
    fun c hc => hfix c (hmem c hc).1).1]
  simp [times]

end Table

end LiteCode.RateLimiter
