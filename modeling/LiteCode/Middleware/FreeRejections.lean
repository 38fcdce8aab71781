import LiteCode.Middleware.DoubleTokens
import LiteCode.Middleware.RetryAfter

/-!
# Rejected calls

A call that is rejected should change nothing: with it or without it, the calls before and after it
get the same answers. The source refills the bucket in a rejected call as well, and sets the time of
the last refill to the time of the call, so that the part of a millisecond that it has cut from the
time between is lost. It also rounds the tokens once more.

* `Step`: a call of two runs, or of the longer one only;
* `Ahead`: what a rejected call does to its bucket, if nothing is cut: it has the tokens that the
  bucket of the other run would be given at the time of the last refill;
* `free_rejections`: the calls of a key get the same answers in both runs, if its bucket is not
  pruned, an additional call is for its capacity and window and neither cuts nor rounds anything in
  a refill, a common call that finds two buckets rounds nothing, and one that refills the bucket of
  the shorter run only cuts nothing.
-/

namespace LiteCode.RateLimiter

/-- A call of the longer run. If the shorter run has it as well, `other` is the order of the table
    there. -/
structure Step where
  call : Call
  other : Option (Layout Bytes Bucket)

/-- The calls of the longer run. -/
def longer (l : List Step) : List Call := l.map (·.call)

/-- The calls of the shorter run. -/
def shorter (l : List Step) : List Call :=
  l.filterMap fun s => s.other.map fun layout => { s.call with layout }

/-- What holds of every element and of those before it. -/
def Each (P : List Step → Step → Prop) : List Step → List Step → Prop
  | _, [] => True
  | done, s :: l => P done s ∧ Each P (done ++ [s]) l

instance (P : List Step → Step → Prop) [∀ done s, Decidable (P done s)] :
    ∀ done l, Decidable (Each P done l)
  | _, [] => inferInstanceAs (Decidable True)
  | done, s :: l =>
    have : Decidable (Each P (done ++ [s]) l) := instDecidableEach P (done ++ [s]) l
    inferInstanceAs (Decidable (_ ∧ _))

/-- A refill at this time cuts no part of a millisecond. -/
def NoFraction (q : Quota) (now : Int) (b : Bucket) : Prop :=
  0 < milliseconds (now - (b.reinit q now).lastRefill) → 0 < q.windowMs → 0 < q.capacity →
    (1000000 : Int) ∣ now - (b.reinit q now).lastRefill

/-- The bucket is one of the quota. -/
def IsOf (q : Quota) (b : Bucket) : Prop := b.capacity = q.capacity ∧ b.window = q.window

/-- A refill for the quota at this time neither cuts nor rounds anything. -/
def Lossless (q : Quota) (now : Int) (b : Bucket) : Prop :=
  IsOf q b ∧ NoFraction q now b ∧ b.Exact q now

/-- The refills of the two buckets at this time round nothing, and if only the first is refilled,
    nothing is cut. -/
def Apart (q : Quota) (now : Int) (b b' : Bucket) : Prop :=
  b.Exact q now ∧ b'.Exact q now ∧ (now - b'.lastRefill < 1000000 → NoFraction q now b)

/-- An additional call is rejected. -/
def Rejected (done : List Step) (s : Step) : Prop :=
  s.other = none → (consume64 (run64 ∅ (longer done)) s.call).1.allowed = false

/-- A common call of the bucket gets the same answer in both runs. -/
def SameAnswer (k : Bytes) (done : List Step) (s : Step) : Prop :=
  ∀ layout ∈ s.other, s.call.composite = k →
    (consume64 (run64 ∅ (longer done)) s.call).1.allowed =
      (consume64 (run64 ∅ (shorter done)) { s.call with layout }).1.allowed

/-- A step does not disturb a bucket: it does not prune it in either run, an additional call is one
    for its quota and neither cuts nor rounds anything in a refill, a common call that finds another
    bucket in the shorter run rounds nothing in either, and if it refills only that bucket, it cuts
    nothing. -/
@[mk_iff]
structure Careful (k : Bytes) (done : List Step) (s : Step) : Prop where
  spared : k ∈ run64 ∅ (longer done) → k ∈ pruneIfNeeded s.call.layout (run64 ∅ (longer done))
  spared' : ∀ layout ∈ s.other, k ∈ run64 ∅ (shorter done) →
    k ∈ pruneIfNeeded layout (run64 ∅ (shorter done))
  added : s.call.composite = k → s.other = none →
    Lossless s.call.quota s.call.now (bucketOf (run64 ∅ (longer done)) k)
  common : s.call.composite = k → s.other.isSome →
    bucketOf (run64 ∅ (shorter done)) k ≠ bucketOf (run64 ∅ (longer done)) k →
    Apart s.call.quota s.call.now (bucketOf (run64 ∅ (shorter done)) k)
      (bucketOf (run64 ∅ (longer done)) k)

instance (q : Quota) (now : Int) (b : Bucket) : Decidable (NoFraction q now b) :=
  inferInstanceAs (Decidable (_ → _ → _ → _))

instance (q : Quota) (b : Bucket) : Decidable (IsOf q b) := inferInstanceAs (Decidable (_ ∧ _))

instance (q : Quota) (now : Int) (b : Bucket) : Decidable (Lossless q now b) :=
  inferInstanceAs (Decidable (_ ∧ _ ∧ _))

instance (q : Quota) (now : Int) (b b' : Bucket) : Decidable (Apart q now b b') :=
  inferInstanceAs (Decidable (_ ∧ _ ∧ (_ → _)))

instance (k : Bytes) (done : List Step) (s : Step) : Decidable (Careful k done s) :=
  decidable_of_iff _ (careful_iff k done s).symm

instance (done : List Step) (s : Step) : Decidable (Rejected done s) :=
  decidable_of_iff (s.other.isNone → (consume64 (run64 ∅ (longer done)) s.call).1.allowed = false)
    (by rw [Rejected, Option.isNone_iff_eq_none])

/-! ## Two buckets -/

variable {q : Quota} {b b' : Bucket} {now t : Int}

/-- The bucket `b'` of the longer run has been refilled by rejected calls for `n` milliseconds,
    without a loss. -/
structure Ahead (t n : Int) (b b' : Bucket) : Prop where
  capacity : b'.capacity = b.capacity
  window : b'.window = b.window
  capacity_pos : 1 ≤ b.capacity
  window_pos : 1 ≤ b.window
  nonneg : 0 ≤ n
  last_eq : b'.lastRefill = b.lastRefill + n * 1000000
  last : b'.lastRefill ≤ t
  tokens : b'.tokens = b.tokens + n / (b.window * 1000) * b.capacity
  low : b'.tokens < 1

/-- The buckets of the two runs. -/
def Sim (t : Int) (b b' : Bucket) : Prop := b = b' ∨ ∃ n, Ahead t n b b'

theorem Sim.mono (h : Sim t b b') (ht : t ≤ now) : Sim now b b' :=
  h.imp_right fun ⟨n, h⟩ => ⟨n, { h with last := h.last.trans ht }⟩

/-- A bucket that is not for the quota is set up anew. -/
theorem reinit_of_not (h : ¬IsOf q b) (now : Int) :
    b.reinit q now = ⟨q.capacity, q.window, q.capacity, now⟩ := by
  rw [Bucket.reinit, if_pos]
  rw [IsOf, not_and_or] at h
  exact h

/-- A refill that cuts nothing is one after whole milliseconds. -/
theorem NoFraction.dvd (h : NoFraction q now b) (hof : IsOf q b) (hC : 1 ≤ q.capacity)
    (hW : 1 ≤ q.window) (hge : 1000000 ≤ now - b.lastRefill) :
    ∃ n, now - b.lastRefill = 1000000 * n := by
  rw [NoFraction, Bucket.reinit_of_eq hof.1 hof.2, milliseconds,
    Int.tdiv_eq_ediv_of_nonneg (by omega), Quota.windowMs] at h
  exact h (by omega) (by omega) (by omega)

/-- A rejected call of the longer run keeps the relation. -/
theorem Sim.rejected (h : Sim t b b') (ht : t ≤ now) (hof : IsOf q b')
    (hwhole : NoFraction q now b') (hrej : (b'.consume q now).1.allowed = false) :
    Sim now b (b'.consume q now).2 := by
  rw [Bucket.consume_allowed, decide_eq_false_iff_not] at hrej
  rw [Bucket.consume_bucket, if_neg hrej]
  rw [Bucket.ready, Bucket.reinit_of_eq hof.1 hof.2] at hrej ⊢
  rcases lt_or_ge (now - b'.lastRefill) 1000000 with hlt | hge
  · rw [Bucket.refill_of_lt hlt]
    exact h.mono ht
  · by_cases hpos : 1 ≤ q.capacity ∧ 1 ≤ q.window
    · obtain ⟨hC, hW⟩ := hpos
      obtain ⟨e, he⟩ := hwhole.dvd hof hC hW hge
      rw [Bucket.refill_of_ge hC hW hge, he, Int.mul_ediv_cancel_left e (by norm_num)] at hrej ⊢
      have hC' : (1 : ℚ) ≤ q.capacity := by exact_mod_cast hC
      -- a bucket without a token is not full
      have hlow := (min_lt_iff.1 (not_le.1 hrej)).resolve_left (not_lt.2 hC')
      obtain ⟨hcap, hwin⟩ := hof
      right
      rcases h with rfl | ⟨n, h⟩
      · refine ⟨e, rfl, rfl, hcap ▸ hC, hwin ▸ hW, by omega, by dsimp only; omega, le_refl _, ?_,
          not_le.1 hrej⟩
        rw [hcap, hwin]
        exact min_eq_right (by linarith)
      · have := h.nonneg
        have := h.last_eq
        refine ⟨n + e, h.capacity, h.window, h.capacity_pos, h.window_pos, by omega,
          by dsimp only; omega, le_refl _, ?_, not_le.1 hrej⟩
        dsimp only
        rw [min_eq_right (by linarith), h.tokens, ← hcap, ← hwin, h.capacity, h.window]
        push_cast
        ring
    · rw [Bucket.refill_of_not hpos]
      exact h.mono ht

/-- So it does as the source computes, if the refill is exact. -/
theorem Sim.rejected64 (h : Sim t b b') (ht : t ≤ now) (hless : Lossless q now b')
    (hrej : (b'.consume64 q now).1.allowed = false) : Sim now b (b'.consume64 q now).2 := by
  obtain ⟨hof, hwhole, hexact⟩ := hless
  have hready := Bucket.ready64_eq hexact
  rw [Bucket.consume64_allowed, hready] at hrej
  have hlow : ¬1 ≤ (b'.ready q now).tokens := of_decide_eq_false hrej
  have hsim := h.rejected ht hof hwhole (by rw [Bucket.consume_allowed, hrej])
  rw [Bucket.consume_bucket, if_neg hlow] at hsim
  rw [Bucket.consume64_bucket, hready, if_neg hlow]
  exact hsim

theorem bucket_ext (hc : b.capacity = b'.capacity) (hw : b.window = b'.window)
    (ht : b.tokens = b'.tokens) (hl : b.lastRefill = b'.lastRefill) : b = b' := by
  cases b
  cases b'
  simp_all

/-- Both buckets are for a quota, or neither is. -/
theorem Ahead.isOf_iff {n : Int} (h : Ahead t n b b') : IsOf q b' ↔ IsOf q b := by
  rw [IsOf, IsOf, h.capacity, h.window]

/-- If both runs refill, they cut the same part of a millisecond. -/
theorem Ahead.refill_eq_of_ge {n : Int} (h : Ahead t n b b') (hof : IsOf q b)
    (hge' : 1000000 ≤ now - b'.lastRefill) : b.refill q now = b'.refill q now := by
  have hC : 1 ≤ q.capacity := hof.1 ▸ h.capacity_pos
  have hW : 1 ≤ q.window := hof.2 ▸ h.window_pos
  have htokens := h.tokens
  have hn := h.nonneg
  have hlast_eq := h.last_eq
  rw [hof.1, hof.2] at htokens
  have hge : 1000000 ≤ now - b.lastRefill := by omega
  have hms : (now - b.lastRefill) / 1000000 = (now - b'.lastRefill) / 1000000 + n := by omega
  rw [Bucket.refill_of_ge hC hW hge, Bucket.refill_of_ge hC hW hge', hms, htokens]
  refine bucket_ext h.capacity.symm h.window.symm ?_ rfl
  dsimp only
  congr 1
  push_cast
  ring

/-- If only the shorter run may refill, it gets what the longer one has got already. -/
theorem Ahead.refill_eq_of_lt {n : Int} (h : Ahead t n b b') (ht : t ≤ now) (hof : IsOf q b)
    (hlt' : now - b'.lastRefill < 1000000) (hwhole : b ≠ b' → NoFraction q now b) :
    b.refill q now = b'.refill q now := by
  have htokens := h.tokens
  have hn := h.nonneg
  have hlast := h.last
  have hlast_eq := h.last_eq
  rcases lt_or_ge (now - b.lastRefill) 1000000 with hlt | hge
  · -- no time between the last refills
    obtain rfl : n = 0 := by omega
    rw [Bucket.refill_of_lt hlt, Bucket.refill_of_lt hlt']
    refine bucket_ext h.capacity.symm h.window.symm ?_ (by omega)
    rw [htokens]
    simp
  · -- the last refill of the longer run is now
    have hC : 1 ≤ q.capacity := hof.1 ▸ h.capacity_pos
    have hW : 1 ≤ q.window := hof.2 ▸ h.window_pos
    have hC' : (1 : ℚ) ≤ q.capacity := by exact_mod_cast hC
    have hlow := h.low
    rw [hof.1, hof.2] at htokens
    have hne : b ≠ b' := by
      rintro rfl
      omega
    obtain ⟨e, he⟩ := (hwhole hne).dvd hof hC hW hge
    obtain rfl : e = n := by omega
    rw [Bucket.refill_of_ge hC hW hge, Bucket.refill_of_lt hlt', he,
      Int.mul_ediv_cancel_left e (by norm_num), ← htokens]
    refine bucket_ext h.capacity.symm h.window.symm (min_eq_right (by linarith)) ?_
    dsimp only
    omega

/-- A common call finds the same bucket in both runs. -/
theorem Sim.ready_eq (h : Sim t b b') (ht : t ≤ now) (hwhole : b ≠ b' →
    now - b'.lastRefill < 1000000 → NoFraction q now b) : b.ready q now = b'.ready q now := by
  rcases h with rfl | ⟨n, h⟩
  · rfl
  · by_cases hof : IsOf q b
    · have hof' := h.isOf_iff.2 hof
      rw [Bucket.ready, Bucket.ready, Bucket.reinit_of_eq hof.1 hof.2,
        Bucket.reinit_of_eq hof'.1 hof'.2]
      rcases lt_or_ge (now - b'.lastRefill) 1000000 with hlt' | hge'
      · exact h.refill_eq_of_lt ht hof hlt' fun hne => hwhole hne hlt'
      · exact h.refill_eq_of_ge hof hge'
    · have hof' : ¬IsOf q b' := mt h.isOf_iff.1 hof
      rw [Bucket.ready, Bucket.ready, reinit_of_not hof, reinit_of_not hof']

/-- So it does as the source computes, if the refills are exact. -/
theorem Sim.ready64_eq (h : Sim t b b') (ht : t ≤ now) (hapart : b ≠ b' → Apart q now b b') :
    b.ready64 q now = b'.ready64 q now := by
  by_cases hb : b = b'
  · rw [hb]
  · obtain ⟨hexact, hexact', hwhole⟩ := hapart hb
    rw [Bucket.ready64_eq hexact, Bucket.ready64_eq hexact', h.ready_eq ht fun _ => hwhole]

/-! ## Two runs -/

variable {k : Bytes} {done l : List Step} {s : Step}

/-- Every call is one of the longer run. -/
theorem run64_longer_append (done : List Step) (c : Call)
    (other : Option (Layout Bytes Bucket)) : run64 ∅ (longer (done ++ [⟨c, other⟩])) =
      (consume64 (run64 ∅ (longer done)) c).2 := by
  rw [longer, List.map_append]
  exact run64_append _ _ _

/-- A common call is one of the shorter run as well. -/
theorem run64_shorter_append (done : List Step) (c : Call) (layout : Layout Bytes Bucket) :
    run64 ∅ (shorter (done ++ [⟨c, some layout⟩])) =
      (consume64 (run64 ∅ (shorter done)) { c with layout }).2 := by
  rw [shorter, List.filterMap_append]
  exact run64_append _ _ _

theorem shorter_append_none (done : List Step) (c : Call) :
    shorter (done ++ [⟨c, none⟩]) = shorter done := by
  simp [shorter, List.filterMap_append]

/-- A call of the longer run only keeps the relation. -/
theorem Sim.added {c : Call}
    (h : Sim t (bucketOf (run64 ∅ (shorter done)) k) (bucketOf (run64 ∅ (longer done)) k))
    (ht : t ≤ c.now) (hs : Careful k done ⟨c, none⟩) (hrej : Rejected done ⟨c, none⟩) :
    Sim c.now (bucketOf (run64 ∅ (shorter done)) k)
      (bucketOf (consume64 (run64 ∅ (longer done)) c).2 k) := by
  by_cases hc : c.composite = k
  · obtain ⟨hd, hb⟩ := consume64_of_composite hc hs.spared
    rw [hb]
    refine h.rejected64 ht (hs.added hc rfl) ?_
    rw [← hd]
    exact hrej rfl
  · rw [bucketOf_consume64_ne hc hs.spared]
    exact h.mono ht

/-- A common call gets the same answer, if it is of the bucket, and keeps the relation. -/
theorem Sim.common {c : Call} {layout : Layout Bytes Bucket}
    (h : Sim t (bucketOf (run64 ∅ (shorter done)) k) (bucketOf (run64 ∅ (longer done)) k))
    (ht : t ≤ c.now) (hs : Careful k done ⟨c, some layout⟩) :
    SameAnswer k done ⟨c, some layout⟩ ∧
      Sim c.now (bucketOf (consume64 (run64 ∅ (shorter done)) { c with layout }).2 k)
        (bucketOf (consume64 (run64 ∅ (longer done)) c).2 k) := by
  by_cases hc : c.composite = k
  · obtain ⟨hd, hb⟩ := consume64_of_composite hc hs.spared
    have hc' : Call.composite { c with layout } = k := hc
    obtain ⟨hd', hb'⟩ := consume64_of_composite hc' (hs.spared' layout rfl)
    have hready := h.ready64_eq ht (hs.common hc rfl)
    constructor
    · rintro _ ⟨⟩ _
      rw [hd, hd', Bucket.consume64_allowed, Bucket.consume64_allowed, hready]
    · rw [hb, hb', Bucket.consume64_bucket, Bucket.consume64_bucket, hready]
      exact .inl rfl
  · refine ⟨fun _ _ hk => absurd hk hc, ?_⟩
    rw [bucketOf_consume64_ne hc hs.spared]
    have hc' : Call.composite { c with layout } ≠ k := hc
    rw [bucketOf_consume64_ne hc' (hs.spared' layout rfl)]
    exact h.mono ht

/-- One step: a common call of the bucket gets the same answer, and the relation is kept. -/
theorem Sim.step
    (h : Sim t (bucketOf (run64 ∅ (shorter done)) k) (bucketOf (run64 ∅ (longer done)) k))
    (ht : t ≤ s.call.now) (hs : Careful k done s) (hrej : Rejected done s) :
    SameAnswer k done s ∧ Sim s.call.now (bucketOf (run64 ∅ (shorter (done ++ [s]))) k)
      (bucketOf (run64 ∅ (longer (done ++ [s]))) k) := by
  obtain ⟨c, other⟩ := s
  rw [run64_longer_append]
  cases other with
  | none =>
    rw [shorter_append_none]
    exact ⟨nofun, h.added ht hs hrej⟩
  | some layout =>
    rw [run64_shorter_append]
    exact h.common ht hs

/-- The rest of a run. -/
theorem Sim.each
    (h : Sim t (bucketOf (run64 ∅ (shorter done)) k) (bucketOf (run64 ∅ (longer done)) k))
    (ht : ∀ s ∈ l, t ≤ s.call.now) (hl : (l.map (·.call.now)).Pairwise (· ≤ ·))
    (hs : Each (Careful k) done l) (hrej : Each Rejected done l) :
    Each (SameAnswer k) done l := by
  induction l generalizing done t with
  | nil => trivial
  | cons s l ih =>
    obtain ⟨hans, hsim⟩ := h.step (ht s List.mem_cons_self) hs.1 hrej.1
    rw [List.map_cons, List.pairwise_cons] at hl
    refine ⟨hans, ih hsim (fun s' hs' => ?_) hl.2 hs.2 hrej.2⟩
    exact hl.1 _ (List.mem_map_of_mem hs')

/-- Rejected calls are free: with them or without them, the other calls of a key get the same
    answers, if no step disturbs its bucket. -/
theorem free_rejections (k : Bytes) (hl : (l.map (·.call.now)).Pairwise (· ≤ ·))
    (hs : Each (Careful k) [] l) (hrej : Each Rejected [] l) : Each (SameAnswer k) [] l := by
  cases l with
  | nil => trivial
  | cons s l =>
    have hsim : Sim s.call.now (bucketOf (run64 ∅ (shorter [])) k)
        (bucketOf (run64 ∅ (longer [])) k) := .inl rfl
    refine hsim.each (fun s' hs' => ?_) hl hs hrej
    rcases List.mem_cons.1 hs' with rfl | hs'
    · exact le_refl _
    · rw [List.map_cons, List.pairwise_cons] at hl
      exact hl.1 _ (List.mem_map_of_mem hs')

/-! ## One call in a second -/

/-- One call in a second. -/
def onePerSecond : Quota := ⟨bytes "auth.login", 1, 1⟩

/-- A call, one that is rejected at the time `t`, and one a second after the first. -/
def polled (t : Int) : List Step :=
  [⟨callAt onePerSecond (bytes "u1") 0, some (.listed Bytes Bucket)⟩,
    ⟨callAt onePerSecond (bytes "u1") t, none⟩,
    ⟨callAt onePerSecond (bytes "u1") 1000000000, some (.listed Bytes Bucket)⟩]

/-- A rejected call after half a second costs nothing. -/
theorem free_rejections_half :
    Each (SameAnswer (composite onePerSecond.name (bytes "u1"))) [] (polled 500000000) :=
  free_rejections (composite onePerSecond.name (bytes "u1")) (by decide) (by decide +kernel)
    (by decide +kernel)

/-- A call that is rejected a tenth of a millisecond before the second has passed costs the next
    call its token. -/
theorem rejection_not_free :
    ((polled 999900000).map (·.call.now)).Pairwise (· ≤ ·) ∧ Each Rejected [] (polled 999900000) ∧
      ¬Each (SameAnswer (composite onePerSecond.name (bytes "u1"))) [] (polled 999900000) := by
  refine ⟨by decide, by decide +kernel, fun h => ?_⟩
  have hlast := h.2.2.1 (.listed Bytes Bucket) rfl rfl
  revert hlast
  decide +kernel

/-- A call, rejected ones at every tenth of a second, and one a second after the first. -/
def tenths : List Step :=
  ⟨callAt onePerSecond (bytes "u1") 0, some (.listed Bytes Bucket)⟩ ::
    (List.range 9).map (fun i : ℕ =>
      ⟨callAt onePerSecond (bytes "u1") (100000000 * (i + 1)), none⟩) ++
    [⟨callAt onePerSecond (bytes "u1") 1000000000, some (.listed Bytes Bucket)⟩]

/-- Ten refills of a tenth of a token, each of them rounded, are less than a token. -/
theorem rounding_not_free :
    (tenths.map (·.call.now)).Pairwise (· ≤ ·) ∧ Each Rejected [] tenths ∧
      (∀ s ∈ tenths, (1000000 : Int) ∣ s.call.now) ∧
      ¬Each (SameAnswer (composite onePerSecond.name (bytes "u1"))) [] tenths := by
  refine ⟨by decide, by decide +kernel, by decide, fun h => ?_⟩
  have hlast := h.2.2.2.2.2.2.2.2.2.2.1 (.listed Bytes Bucket) rfl rfl
  revert hlast
  decide +kernel

end LiteCode.RateLimiter
