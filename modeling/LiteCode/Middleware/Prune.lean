import LiteCode.Middleware.DoubleTokens

/-!
# Pruning

The table of the rate limits has a cap. At the cap, buckets that are full are dropped, for they
need no state, and then the tenth with the oldest last refills. No bucket that is still short of
tokens should be dropped while one that has refilled is kept.

The table never exceeds its cap (`size_run_le`). But the source takes a bucket as full by the tokens
that it had at its last call, and then goes by the age of the last refill alone, so that a bucket
of a long window may be dropped while buckets of a short one have refilled.

* `Bucket.Refilled`: the bucket would be full if it were refilled now;
* `Aligned`: at the cap, the buckets that have refilled have the older last refills;
* `prune_sound`: with such tables, pruning is without amnesty in the whole run.
-/

namespace LiteCode.RateLimiter

/-- The bucket has refilled to its capacity: a refill adds to its tokens what is missing. -/
def Bucket.Refilled (now : Int) (b : Bucket) : Prop :=
  (b.capacity : ℚ) ≤ (b.refill ⟨[], b.capacity, b.window⟩ now).tokens

instance (now : Int) (b : Bucket) : Decidable (b.Refilled now) :=
  inferInstanceAs (Decidable ((_ : ℚ) ≤ _))

/-- From one table to the other, no bucket is dropped that has not refilled while one is kept that
    has. -/
def NoAmnesty (now : Int) (m m' : Buckets) : Prop :=
  ∀ k b k' b', m.lookup k = some b → k ∉ m' → m.lookup k' = some b' → k' ∈ m' →
    b.Refilled now ∨ ¬b'.Refilled now

/-- The first pass of the pruning: without the buckets that are full. -/
def dropFull (layout : Layout Bytes Bucket) (m : Buckets) : Buckets :=
  eraseAll m (((layout.order m).filter fun e => decide ((e.2.capacity : ℚ) ≤ e.2.tokens)).map
    Sigma.fst)

/-- The elements in the order of their last refills. -/
def byAge (layout : Layout Bytes Bucket) (m : Buckets) : List (Sigma fun _ : Bytes => Bucket) :=
  (layout.order m).mergeSort fun a b => a.2.lastRefill ≤ b.2.lastRefill

/-- The second pass: without the tenth with the oldest last refills. -/
def dropOldest (layout : Layout Bytes Bucket) (m : Buckets) : Buckets :=
  eraseAll m (((byAge layout m).take (max 1 ((byAge layout m).length / 10))).map Sigma.fst)

/-- If the second pass is reached, the buckets that have refilled have older last refills than
    those that have not. -/
def Aligned (m : Buckets) (c : Call) : Prop :=
  maxTrackedKeys ≤ UnorderedMap.size (dropFull c.layout m) →
    ∀ k b k' b', (dropFull c.layout m).lookup k = some b →
      (dropFull c.layout m).lookup k' = some b' → ¬b.Refilled c.now → b'.Refilled c.now →
        b'.lastRefill < b.lastRefill

/-! ## The two passes -/

variable {m : Buckets} {layout : Layout Bytes Bucket} {k : Bytes} {b : Bucket} {now : Int}
  {c : Call} {l : List Call}

/-- The two passes, in terms of the table. -/
theorem pruneIfNeeded_eq (layout : Layout Bytes Bucket) (m : Buckets) :
    pruneIfNeeded layout m = if UnorderedMap.size m < maxTrackedKeys then m
      else if UnorderedMap.size (dropFull layout m) < maxTrackedKeys then dropFull layout m
      else dropOldest layout (dropFull layout m) := rfl

theorem mem_order : ⟨k, b⟩ ∈ layout.order m ↔ m.lookup k = some b := by
  rw [(layout.perm m).mem_iff, ← AList.mem_lookup_iff]
  rfl

/-- The elements by age are those of the table. -/
theorem mem_byAge (layout : Layout Bytes Bucket) :
    ⟨k, b⟩ ∈ byAge layout m ↔ m.lookup k = some b := by
  rw [byAge, List.mem_mergeSort, mem_order]

/-- The first pass adds nothing. -/
theorem subset_dropFull (h : k ∈ dropFull layout m) : k ∈ m := (mem_eraseAll.1 h).2

/-- Nor does the second. -/
theorem subset_dropOldest (h : k ∈ dropOldest layout m) : k ∈ m := (mem_eraseAll.1 h).2

/-- An element that was erased is one of those that were to be erased. -/
theorem mem_of_not_mem_eraseAll {L : List (Sigma fun _ : Bytes => Bucket)}
    (hL : ∀ e ∈ L, m.lookup e.1 = some e.2) (hb : m.lookup k = some b)
    (h : k ∉ eraseAll m (L.map Sigma.fst)) : ⟨k, b⟩ ∈ L := by
  have hkey : k ∈ L.map Sigma.fst := by
    by_contra hn
    exact h (mem_eraseAll.2 ⟨hn, UnorderedMap.mem_of_lookup hb⟩)
  obtain ⟨⟨k', b'⟩, he, rfl⟩ := List.mem_map.1 hkey
  have hb' := hL _ he
  rw [hb, Option.some_inj] at hb'
  rwa [hb']

/-- A bucket that the first pass drops has refilled. -/
theorem refilled_of_dropFull (hb : m.lookup k = some b) (h : k ∉ dropFull layout m) :
    b.Refilled now := by
  have hmem := mem_of_not_mem_eraseAll (fun e he => mem_order.1 (List.mem_of_mem_filter he)) hb h
  have hfull := (List.mem_filter.1 hmem).2
  have hfull : (b.capacity : ℚ) ≤ b.tokens := of_decide_eq_true hfull
  -- a refill does not take tokens away
  rw [Bucket.Refilled, Bucket.refill]
  split_ifs with hc
  · refine le_min (le_refl _) (hfull.trans (le_add_of_nonneg_right ?_))
    obtain ⟨h₁, h₂, h₃⟩ := hc
    exact mul_nonneg (div_nonneg (Int.cast_nonneg h₁.le) (Int.cast_nonneg h₂.le))
      (Int.cast_nonneg h₃.le)
  · exact hfull

theorem length_byAge (layout : Layout Bytes Bucket) (m : Buckets) :
    (byAge layout m).length = UnorderedMap.size m := by
  rw [byAge, List.length_mergeSort, (layout.perm m).length_eq, UnorderedMap.size]

theorem nodup_byAge (layout : Layout Bytes Bucket) (m : Buckets) :
    ((byAge layout m).map Sigma.fst).Nodup := by
  have hperm : (byAge layout m).Perm m.entries :=
    (List.mergeSort_perm _ _).trans (layout.perm m)
  exact (hperm.map Sigma.fst).nodup_iff.2 m.keys_nodup

theorem pairwise_byAge (layout : Layout Bytes Bucket) (m : Buckets) :
    (byAge layout m).Pairwise fun a b => a.2.lastRefill ≤ b.2.lastRefill := by
  have hsorted : (byAge layout m).Pairwise fun a b =>
      decide (a.2.lastRefill ≤ b.2.lastRefill) = true := by
    refine List.pairwise_mergeSort (fun a b c h₁ h₂ => ?_) (fun a b => ?_) _
    · simp only [decide_eq_true_eq] at h₁ h₂ ⊢
      exact h₁.trans h₂
    · simpa using le_total _ _
  exact hsorted.imp fun h => of_decide_eq_true h

/-- The elements of the second pass that are dropped and those that are kept. -/
theorem mem_take_of_dropOldest (hb : m.lookup k = some b) (h : k ∉ dropOldest layout m) :
    ⟨k, b⟩ ∈ (byAge layout m).take (max 1 ((byAge layout m).length / 10)) :=
  mem_of_not_mem_eraseAll (fun _ he => (mem_byAge layout).1 (List.mem_of_mem_take he)) hb h

/-- What the second pass keeps is not among the oldest. -/
theorem mem_drop_of_dropOldest (hb : m.lookup k = some b) (h : k ∈ dropOldest layout m) :
    ⟨k, b⟩ ∈ (byAge layout m).drop (max 1 ((byAge layout m).length / 10)) := by
  have hmem := (mem_byAge layout).2 hb
  rw [← List.take_append_drop (max 1 ((byAge layout m).length / 10)) (byAge layout m),
    List.mem_append] at hmem
  refine hmem.resolve_left fun htake => ?_
  exact (mem_eraseAll.1 h).1 (List.mem_map_of_mem htake)

/-- What the second pass drops has an older last refill than what it keeps. -/
theorem lastRefill_le_of_dropOldest {k' : Bytes} {b' : Bucket} (hb : m.lookup k = some b)
    (h : k ∉ dropOldest layout m) (hb' : m.lookup k' = some b')
    (h' : k' ∈ dropOldest layout m) : b.lastRefill ≤ b'.lastRefill := by
  have hsorted := pairwise_byAge layout m
  rw [← List.take_append_drop (max 1 ((byAge layout m).length / 10)) (byAge layout m),
    List.pairwise_append] at hsorted
  exact hsorted.2.2 _ (mem_take_of_dropOldest hb h) _ (mem_drop_of_dropOldest hb' h')

/-- The second pass drops an element with the oldest last refill. -/
theorem exists_not_mem_dropOldest (layout : Layout Bytes Bucket)
    (h : 0 < UnorderedMap.size m) :
    ∃ k b, m.lookup k = some b ∧ k ∉ dropOldest layout m ∧
      ∀ k' b', m.lookup k' = some b' → b.lastRefill ≤ b'.lastRefill := by
  obtain ⟨⟨k, b⟩, L, hL⟩ : ∃ e L, byAge layout m = e :: L := by
    refine List.exists_cons_of_length_pos ?_
    rwa [length_byAge]
  have hb : m.lookup k = some b := (mem_byAge layout).1 (hL ▸ List.mem_cons_self)
  refine ⟨k, b, hb, fun hk => ?_, fun k' b' hb' => ?_⟩
  · refine (mem_eraseAll.1 hk).1 (List.mem_map.2 ⟨⟨k, b⟩, ?_, rfl⟩)
    obtain ⟨n, hn⟩ := Nat.exists_eq_succ_of_ne_zero
      (Nat.ne_of_gt (le_max_left 1 ((byAge layout m).length / 10)))
    rw [hn, hL, List.take_succ_cons]
    exact List.mem_cons_self
  · have hsorted := pairwise_byAge layout m
    rw [hL, List.pairwise_cons] at hsorted
    have hmem := (mem_byAge layout).2 hb'
    rw [hL, List.mem_cons] at hmem
    rcases hmem with he | hmem
    · exact (congrArg (·.2.lastRefill) he).ge
    · exact hsorted.1 _ hmem

/-- It keeps one, if there are two. -/
theorem exists_mem_dropOldest (layout : Layout Bytes Bucket) (h : 1 < UnorderedMap.size m) :
    ∃ k ∈ m, k ∈ dropOldest layout m := by
  have hnodup : ((byAge layout m).map Sigma.fst).Nodup := nodup_byAge layout m
  rw [← List.take_append_drop (max 1 ((byAge layout m).length / 10)) (byAge layout m),
    List.map_append, List.nodup_append] at hnodup
  have hpos : 0 < ((byAge layout m).drop (max 1 ((byAge layout m).length / 10))).length := by
    rw [List.length_drop, length_byAge]
    omega
  obtain ⟨⟨k, b⟩, he⟩ := List.exists_mem_of_length_pos hpos
  have hk : k ∈ m :=
    UnorderedMap.mem_of_lookup ((mem_byAge layout).1 (List.mem_of_mem_drop he))
  refine ⟨k, hk, mem_eraseAll.2 ⟨fun htake => ?_, hk⟩⟩
  exact hnodup.2.2 _ htake _ (List.mem_map_of_mem he) rfl

/-- Pruning an aligned table is without amnesty. -/
theorem Aligned.noAmnesty (h : Aligned m c) :
    NoAmnesty c.now m (pruneIfNeeded c.layout m) := by
  intro k b k' b' hb hk hb' hk'
  rw [pruneIfNeeded_eq] at hk hk'
  split_ifs at hk hk' with hsize hfull
  · -- nothing is dropped
    exact absurd (UnorderedMap.mem_of_lookup hb) hk
  · exact .inl (refilled_of_dropFull hb hk)
  · by_cases hfirst : k ∈ dropFull c.layout m
    · have hlook := lookup_eraseAll (mem_eraseAll.1 hfirst).1 (m := m)
      have hlook' := lookup_eraseAll (mem_eraseAll.1 (subset_dropOldest hk')).1 (m := m)
      rw [← dropFull] at hlook hlook'
      rw [hb] at hlook
      rw [hb'] at hlook'
      have hle := lastRefill_le_of_dropOldest hlook hk hlook' hk'
      by_contra hn
      rw [not_or, not_not] at hn
      exact absurd (h (not_lt.1 hfull) k b k' b' hlook hlook' hn.1 hn.2) (not_lt.2 hle)
    · exact .inl (refilled_of_dropFull hb hfirst)

/-! ## The size of the table -/

/-- A table that does not exceed the cap is below it after the pruning. -/
theorem size_pruneIfNeeded_lt (h : UnorderedMap.size m ≤ maxTrackedKeys)
    (layout : Layout Bytes Bucket) :
    UnorderedMap.size (pruneIfNeeded layout m) < maxTrackedKeys := by
  rw [pruneIfNeeded_eq]
  split_ifs with hsize hfull
  · exact hsize
  · exact hfull
  · -- the second pass drops the oldest one at least
    have hle : UnorderedMap.size (dropFull layout m) ≤ UnorderedMap.size m :=
      UnorderedMap.size_le_of_forall fun _ ha => subset_dropFull ha
    have hpos : 0 < UnorderedMap.size (dropFull layout m) :=
      (not_lt.1 hfull).trans_lt' (by decide)
    obtain ⟨k, b, hb, hk, -⟩ := exists_not_mem_dropOldest layout hpos
    exact (UnorderedMap.size_lt_of_forall (fun _ ha => subset_dropOldest ha)
      (UnorderedMap.mem_of_lookup hb) hk).trans_le (hle.trans h)

/-- A call keeps the table within its cap. -/
theorem size_consume64_le (h : UnorderedMap.size m ≤ maxTrackedKeys) (c : Call) :
    UnorderedMap.size (consume64 m c).2 ≤ maxTrackedKeys :=
  (UnorderedMap.size_insert_le _ _ _).trans (size_pruneIfNeeded_lt h c.layout)

/-- So does a run. -/
theorem size_run64_le (h : UnorderedMap.size m ≤ maxTrackedKeys) (l : List Call) :
    UnorderedMap.size (run64 m l) ≤ maxTrackedKeys := by
  induction l generalizing m with
  | nil => exact h
  | cons c l ih => exact ih (size_consume64_le h c)

/-- The table never exceeds its cap, and if it is aligned at every call, no pruning of the run
    drops a bucket that has not refilled while it keeps one that has. -/
theorem prune_sound (l : List Call) : UnorderedMap.size (run64 ∅ l) ≤ maxTrackedKeys ∧
    (EachCall Aligned ∅ l →
      EachCall (fun m c => NoAmnesty c.now m (pruneIfNeeded c.layout m)) ∅ l) :=
  ⟨size_run64_le (Nat.zero_le _) l, EachCall.imp fun _ _ => Aligned.noAmnesty⟩

/-! ## Calls of new keys -/

/-- Pruning adds nothing. -/
theorem subset_pruneIfNeeded (h : k ∈ pruneIfNeeded layout m) : k ∈ m := by
  rw [pruneIfNeeded_eq] at h
  split_ifs at h
  · exact h
  · exact subset_dropFull h
  · exact subset_dropFull (subset_dropOldest h)

/-- A call adds one bucket at most. -/
theorem size_run64_le_length (l : List Call) : UnorderedMap.size (run64 ∅ l) ≤ l.length := by
  induction l using List.reverseRecOn with
  | nil => exact Nat.zero_le _
  | append_singleton l c ih =>
    have hprune := UnorderedMap.size_le_of_forall fun k (hk : k ∈ pruneIfNeeded c.layout _) =>
      subset_pruneIfNeeded (m := run64 ∅ l) hk
    rw [run64_append, List.length_append, List.length_singleton]
    exact (UnorderedMap.size_insert_le _ _ _).trans (Nat.succ_le_succ (hprune.trans ih))

/-- Below the cap nothing is pruned. -/
theorem aligned_of_lt (h : UnorderedMap.size m < maxTrackedKeys) : Aligned m c := by
  intro hfull
  have hle : UnorderedMap.size (dropFull c.layout m) ≤ UnorderedMap.size m :=
    UnorderedMap.size_le_of_forall fun _ => subset_dropFull
  exact absurd (hfull.trans hle) (not_le.2 h)

/-- A run that is not longer than the cap does not come to the second pass. -/
theorem eachCall_aligned_of_length (hlen : l.length ≤ maxTrackedKeys) : EachCall Aligned ∅ l := by
  induction l using List.reverseRecOn with
  | nil => trivial
  | append_singleton l c ih =>
    rw [List.length_append, List.length_singleton] at hlen
    refine eachCall_append.2 ⟨ih (by omega), aligned_of_lt ?_⟩
    exact (size_run64_le_length l).trans_lt (by omega)

/-- The first call of a key of a quota of one token. -/
theorem consume64_new {q : Quota} (hC : q.capacity = 1) (now : Int) :
    (({} : Bucket).consume64 q now).2 = ⟨1, q.window, 0, now⟩ := by
  have hready : ({} : Bucket).ready64 q now = ⟨1, q.window, 1, now⟩ := by
    have hreinit : ({} : Bucket).reinit q now = ⟨1, q.window, 1, now⟩ := by
      rw [Bucket.reinit, hC]
      simp
    rw [Bucket.ready64, hreinit, Bucket.refill64]
    simp [milliseconds]
  have hround : Binary64.round 0 = 0 := by decide +kernel
  rw [Bucket.consume64_bucket, hready]
  simp [hround]

/-- Calls of different keys, of quotas of one token, that fit into the table. -/
theorem run64_fresh (hlen : l.length ≤ maxTrackedKeys) (hC : ∀ c ∈ l, c.quota.capacity = 1)
    (hnodup : (l.map Call.composite).Nodup) : UnorderedMap.size (run64 ∅ l) = l.length ∧
      ∀ k b, (run64 ∅ l).lookup k = some b ↔
        ∃ c ∈ l, c.composite = k ∧ b = ⟨1, c.quota.window, 0, c.now⟩ := by
  induction l using List.reverseRecOn with
  | nil => exact ⟨rfl, fun k b => by simp [run64]⟩
  | append_singleton l c ih =>
    rw [List.length_append, List.length_singleton] at hlen
    rw [List.map_append, List.nodup_append] at hnodup
    obtain ⟨hsize, hlook⟩ :=
      ih (by omega) (fun d hd => hC d (List.mem_append_left _ hd)) hnodup.1
    -- The key is new, and there is room: no bucket is found, and none is pruned.
    have hnew : (run64 ∅ l).lookup c.composite = none := by
      rw [Option.eq_none_iff_forall_ne_some]
      intro b hb
      obtain ⟨d, hd, he, -⟩ := (hlook _ _).1 hb
      exact hnodup.2.2 _ (List.mem_map_of_mem hd) c.composite (by simp) he
    have hprune : pruneIfNeeded c.layout (run64 ∅ l) = run64 ∅ l := by
      rw [pruneIfNeeded_eq, if_pos]
      omega
    have hnext : run64 ∅ (l ++ [c]) =
        (run64 ∅ l).insert c.composite ⟨1, c.quota.window, 0, c.now⟩ := by
      rw [run64_append, consume64, hprune, hnew, ← consume64_new (hC c (by simp)) c.now]
      rfl
    rw [hnext, UnorderedMap.size_insert_of_not_mem (AList.lookup_eq_none.1 hnew), hsize,
      List.length_append, List.length_singleton]
    refine ⟨rfl, fun k b => ?_⟩
    simp only [List.mem_append, List.mem_singleton, or_and_right, exists_or, exists_eq_left]
    by_cases hk : k = c.composite
    · subst hk
      rw [AList.lookup_insert, ← hlook, hnew]
      simp [eq_comm]
    · rw [AList.lookup_insert_ne hk, hlook]
      simp [Ne.symm hk]

/-! ## A full table -/

/-- Two quotas of one token whose buckets are different. -/
structure Singles (first rest : Quota) : Prop where
  capacity : first.capacity = 1
  capacity' : rest.capacity = 1
  name : 0x7C ∉ first.name
  name' : 0x7C ∉ rest.name
  ne : first.name ≠ rest.name

/-- A call of the first quota, and then of as many keys of the second one as fit into the table. -/
def crowd (first rest : Quota) : List Call :=
  callAt first [] 0 ::
    (List.range (maxTrackedKeys - 1)).map fun i => callAt rest (.replicate i 0x61) 1

/-- One call in an hour, and one call in a second. -/
def hourly : Quota := ⟨bytes "submit", 1, 3600⟩

def secondly : Quota := ⟨bytes "auth.login", 1, 1⟩

theorem singles_hourly : Singles hourly secondly where
  capacity := rfl
  capacity' := rfl
  name := by decide
  name' := by decide
  ne := by decide

theorem singles_secondly : Singles secondly hourly where
  capacity := rfl
  capacity' := rfl
  name := by decide
  name' := by decide
  ne := by decide

section Crowd

variable {first rest : Quota}

theorem length_crowd : (crowd first rest).length = maxTrackedKeys := by
  rw [crowd, List.length_cons, List.length_map, List.length_range]
  rfl

theorem nodup_crowd (h : Singles first rest) : ((crowd first rest).map Call.composite).Nodup := by
  have hcomp : ∀ i, (callAt rest (.replicate i 0x61) 1).composite =
      composite rest.name (.replicate i 0x61) := fun _ => rfl
  rw [crowd, List.map_cons, List.map_map, List.nodup_cons]
  constructor
  · intro hmem
    obtain ⟨i, -, hi⟩ := List.mem_map.1 hmem
    rw [Function.comp_apply, hcomp] at hi
    exact h.ne.symm (composite_inj h.name' h.name hi).1
  · refine (List.nodup_range).map fun i j hij => ?_
    rw [Function.comp_apply, Function.comp_apply, hcomp, hcomp] at hij
    have := congrArg List.length (composite_inj h.name' h.name' hij).2
    rwa [List.length_replicate, List.length_replicate] at this

theorem capacity_crowd (h : Singles first rest) :
    ∀ c ∈ crowd first rest, c.quota.capacity = 1 := by
  intro c hc
  rcases List.mem_cons.1 hc with rfl | hc
  · exact h.capacity
  · obtain ⟨i, -, rfl⟩ := List.mem_map.1 hc
    exact h.capacity'

/-- The table of the crowd is full. -/
theorem size_crowd (h : Singles first rest) :
    UnorderedMap.size (run64 ∅ (crowd first rest)) = maxTrackedKeys :=
  (run64_fresh length_crowd.le (capacity_crowd h) (nodup_crowd h)).1.trans length_crowd

/-- The bucket of each key of the crowd has given its token. -/
theorem lookup_crowd (h : Singles first rest) (k : Bytes) (b : Bucket) :
    (run64 ∅ (crowd first rest)).lookup k = some b ↔
      ∃ c ∈ crowd first rest, c.composite = k ∧ b = ⟨1, c.quota.window, 0, c.now⟩ :=
  (run64_fresh length_crowd.le (capacity_crowd h) (nodup_crowd h)).2 k b

/-- So has the first one. -/
theorem lookup_crowd_first (h : Singles first rest) :
    (run64 ∅ (crowd first rest)).lookup (composite first.name []) =
      some ⟨1, first.window, 0, 0⟩ :=
  (lookup_crowd h _ _).2 ⟨callAt first [] 0, List.mem_cons_self, rfl, rfl⟩

/-- The buckets of the crowd: the first one, and those of the other quota, refilled later. -/
theorem bucket_crowd (h : Singles first rest)
    (hb : (run64 ∅ (crowd first rest)).lookup k = some b) :
    k = composite first.name [] ∧ b = ⟨1, first.window, 0, 0⟩ ∨ b = ⟨1, rest.window, 0, 1⟩ := by
  obtain ⟨c, hc, rfl, rfl⟩ := (lookup_crowd h k b).1 hb
  rcases List.mem_cons.1 hc with rfl | hc
  · exact .inl ⟨rfl, rfl⟩
  · obtain ⟨i, -, rfl⟩ := List.mem_map.1 hc
    exact .inr rfl

/-- No bucket of the crowd is full by the tokens of its last call. -/
theorem mem_dropFull_crowd (h : Singles first rest) (layout : Layout Bytes Bucket)
    (hb : (run64 ∅ (crowd first rest)).lookup k = some b) :
    k ∈ dropFull layout (run64 ∅ (crowd first rest)) := by
  refine mem_eraseAll.2 ⟨fun hk => ?_, UnorderedMap.mem_of_lookup hb⟩
  obtain ⟨⟨k', b'⟩, he, rfl⟩ := List.mem_map.1 hk
  obtain ⟨ho, hfull⟩ := List.mem_filter.1 he
  have hfull : (b'.capacity : ℚ) ≤ b'.tokens := of_decide_eq_true hfull
  revert hfull
  rcases bucket_crowd h (mem_order.1 ho) with ⟨-, rfl⟩ | rfl <;> norm_num

/-- The first pass drops nothing. -/
theorem size_dropFull_crowd (h : Singles first rest) (layout : Layout Bytes Bucket) :
    maxTrackedKeys ≤ UnorderedMap.size (dropFull layout (run64 ∅ (crowd first rest))) := by
  refine (size_crowd h).ge.trans (UnorderedMap.size_le_of_forall fun k hk => ?_)
  obtain ⟨b, hb⟩ := UnorderedMap.exists_lookup hk
  exact mem_dropFull_crowd h layout hb

/-- The second pass is reached. -/
theorem prune_crowd (h : Singles first rest) (layout : Layout Bytes Bucket) :
    pruneIfNeeded layout (run64 ∅ (crowd first rest)) =
      dropOldest layout (dropFull layout (run64 ∅ (crowd first rest))) := by
  rw [pruneIfNeeded_eq, if_neg (size_crowd h).not_lt, if_neg (size_dropFull_crowd h layout).not_gt]

/-- The elements of the crowd after the first pass. -/
theorem lookup_dropFull_crowd (h : Singles first rest) (layout : Layout Bytes Bucket) :
    (dropFull layout (run64 ∅ (crowd first rest))).lookup k = some b ↔
      (run64 ∅ (crowd first rest)).lookup k = some b := by
  constructor <;> intro hb
  · have hk := UnorderedMap.mem_of_lookup hb
    rwa [dropFull, lookup_eraseAll (mem_eraseAll.1 hk).1] at hb
  · rwa [dropFull, lookup_eraseAll (mem_eraseAll.1 (mem_dropFull_crowd h layout hb)).1]

/-- The bucket of the first call has the oldest last refill and is dropped. -/
theorem not_mem_prune_crowd (h : Singles first rest) (layout : Layout Bytes Bucket) :
    composite first.name [] ∉ pruneIfNeeded layout (run64 ∅ (crowd first rest)) := by
  rw [prune_crowd h]
  obtain ⟨k, b, hb, hk, hle⟩ := exists_not_mem_dropOldest layout
    ((size_dropFull_crowd h layout).trans_lt' (by decide))
  rcases bucket_crowd h ((lookup_dropFull_crowd h layout).1 hb) with ⟨rfl, -⟩ | rfl
  · exact hk
  · have hfirst := hle _ _ ((lookup_dropFull_crowd h layout).2 (lookup_crowd_first h))
    exact absurd hfirst (by norm_num)

end Crowd

/-- The call that finds the table of a crowd. -/
def lateCall : Call := callAt secondly [0x62] 2000000000

/-- The buckets of a second are full at the late call. -/
theorem refilled_secondly (t : Int) (ht : t = 0 ∨ t = 1) :
    Bucket.Refilled lateCall.now ⟨1, secondly.window, 0, t⟩ := by
  rcases ht with rfl | rfl <;> decide +kernel

/-- Those of an hour are not. -/
theorem not_refilled_hourly (t : Int) (ht : t = 0 ∨ t = 1) :
    ¬Bucket.Refilled lateCall.now ⟨1, hourly.window, 0, t⟩ := by
  rcases ht with rfl | rfl <;> decide +kernel

/-- The bucket of a second, which has long been full, is older than the buckets of the hour, which
    are empty. -/
theorem aligned_crowd : EachCall Aligned ∅ (crowd secondly hourly ++ [lateCall]) := by
  refine eachCall_append.2 ⟨eachCall_aligned_of_length length_crowd.le, ?_⟩
  intro _ k b k' b' hb hb' hlow hfull
  rw [lookup_dropFull_crowd singles_secondly] at hb hb'
  rcases bucket_crowd singles_secondly hb with ⟨-, rfl⟩ | rfl
  · exact absurd (refilled_secondly 0 (.inl rfl)) hlow
  · rcases bucket_crowd singles_secondly hb' with ⟨-, rfl⟩ | rfl
    · decide
    · exact absurd hfull (not_refilled_hourly 1 (.inr rfl))

/-- The late call drops it from a full table. -/
theorem prune_sound_crowd :
    UnorderedMap.size (run64 ∅ (crowd secondly hourly)) = maxTrackedKeys ∧
      composite secondly.name [] ∈ run64 ∅ (crowd secondly hourly) ∧
      composite secondly.name [] ∉
        pruneIfNeeded lateCall.layout (run64 ∅ (crowd secondly hourly)) ∧
      EachCall (fun m c => NoAmnesty c.now m (pruneIfNeeded c.layout m)) ∅
        (crowd secondly hourly ++ [lateCall]) :=
  ⟨size_crowd singles_secondly,
    UnorderedMap.mem_of_lookup (lookup_crowd_first singles_secondly),
    not_mem_prune_crowd singles_secondly lateCall.layout, (prune_sound _).2 aligned_crowd⟩

/-- In the table of the other crowd it drops the bucket of the hour, which is empty, and keeps
    buckets of a second, which have long been full. -/
theorem crowd_amnesty :
    ¬EachCall (fun m c => NoAmnesty c.now m (pruneIfNeeded c.layout m)) ∅
      (crowd hourly secondly ++ [lateCall]) := by
  intro hrun
  have h := (eachCall_append.1 hrun).2
  have hfirst := not_mem_prune_crowd singles_hourly lateCall.layout
  obtain ⟨k, hk, hkept⟩ := exists_mem_dropOldest lateCall.layout
    ((size_dropFull_crowd singles_hourly lateCall.layout).trans_lt' (by decide))
  rw [← prune_crowd singles_hourly] at hkept
  obtain ⟨b, hb⟩ := UnorderedMap.exists_lookup hk
  rw [lookup_dropFull_crowd singles_hourly] at hb
  rcases bucket_crowd singles_hourly hb with ⟨rfl, rfl⟩ | rfl
  · exact hfirst hkept
  · rcases h _ _ k _ (lookup_crowd_first singles_hourly) hfirst hb hkept with hfull | hlow
    · exact not_refilled_hourly 0 (.inl rfl) hfull
    · exact hlow (refilled_secondly 1 (.inr rfl))

end LiteCode.RateLimiter
