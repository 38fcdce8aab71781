import LiteCode.Auth.Lockout
import Mathlib.Data.List.DropRight

/-!
# Lockouts end

Runs of one tracker (`system`): a username is locked only after `threshold` failures in one window,
its lock ends when it is said to, and a failure of a locked username should not move the end.

The last fails. The cap is enforced before the username is looked up, also when it has an element:
if all elements are locked, which takes a threshold of one (`Roomy.evicted_ne`), the username may
evict itself and is locked anew.

* `Counted`: what an element says of the failures since the last reset;
* `Regular`: a failure of a locked username does not move its lock by an eviction;
* `lockouts_end`: in runs of such calls, lockouts are justified and end when announced.
-/

namespace LiteCode.LoginFailureTracker

instance (u : Bytes) (a : Action) : Decidable (a.Keeps u) :=
  match a with
  | .recordFailure _ _ _ => inferInstanceAs (Decidable True)
  | .reset _ => inferInstanceAs (Decidable (_ ≠ _))
  | .isLocked _ _ => inferInstanceAs (Decidable True)

/-- The times of the failures of `u` since its last reset. -/
def failuresSinceReset (u : Bytes) (l : List Action) : List Int :=
  failureTimes u (l.rtakeWhile fun a => a.Keeps u)

/-- Those in the window from `w` on. -/
def timesIn (cfg : Config) (w : Int) (ts : List Int) : List Int :=
  ts.filter fun t => w ≤ t ∧ t < w + cfg.window

/-- `threshold` failures of `u` since its last reset are in one window. -/
def Justified (cfg : Config) (u : Bytes) (l : List Action) : Prop :=
  ∃ w, cfg.threshold ≤ (timesIn cfg w (failuresSinceReset u l)).length

/-- From `r` seconds after `t` on, `u` is not locked, if no failure of `u` comes in between. -/
def EndsBy (cfg : Config) (u : Bytes) (m : Failures) (t r : Int) : Prop :=
  ∀ l s t', (system cfg).Exec System.Always ⟨m, t⟩ l s → (∀ a ∈ l, a.failureOf u = none) →
    s.clock ≤ t' → t + seconds r ≤ t' → (isLocked s.failures t' u).1 = false

/-- The time at which the lock of `u` ends. -/
def lockEnd (m : Failures) (u : Bytes) : Int := ((m.lookup u).getD {}).lockedUntil

/-- The clock is past its epoch. If the threshold is one, a failure of `u` while it is locked does
    not evict `u`, or is made at the time from which it is locked. -/
def Regular (cfg : Config) (u : Bytes) (s : State) : Action → Prop
  | .recordFailure layout now username =>
    0 ≤ now ∧ (username = u → cfg.threshold = 1 → (isLocked s.failures now u).1 = true →
      evicted cfg layout s.failures now = some u → lockEnd s.failures u = now + cfg.duration)
  | _ => True

instance (cfg : Config) (u : Bytes) (s : State) (a : Action) : Decidable (Regular cfg u s a) :=
  match a with
  | .recordFailure _ _ _ => inferInstanceAs (Decidable (_ ∧ _))
  | .reset _ => inferInstanceAs (Decidable True)
  | .isLocked _ _ => inferInstanceAs (Decidable True)

/-! ## One call -/

variable {cfg : Config} {layout : Layout Bytes Entry} {m : Failures} {u v : Bytes} {s s' : State}
  {a : Action} {l : List Action} {ts : List Int} {e : Entry} {now t clock r : Int}

theorem lookup_evict_self (h : evicted cfg layout m now = some u) :
    (evict cfg layout m now).lookup u = none := by
  rw [evict, h]
  exact AList.lookup_erase u m

/-- The element of `u` after the eviction: gone, or as it was. -/
theorem lookup_evict_cases (cfg : Config) (layout : Layout Bytes Entry) (m : Failures) (now : Int)
    (u : Bytes) : (evict cfg layout m now).lookup u = none ∨
      (evict cfg layout m now).lookup u = m.lookup u := by
  by_cases h : evicted cfg layout m now = some u
  · exact .inl (lookup_evict_self h)
  · exact .inr (lookup_evict h)

/-- The element of `u` after its failure. -/
theorem lookup_recordFailure (hu : u ≠ []) (cfg : Config) (layout : Layout Bytes Entry)
    (m : Failures) (now : Int) : (recordFailure cfg layout m now u).2.lookup u =
      some (if cfg.enabled = true ∧ now < lockEnd (evict cfg layout m now) u
        then ((evict cfg layout m now).lookup u).getD {}
        else counted cfg (((evict cfg layout m now).lookup u).getD {}) now) := by
  have hemp : u.isEmpty = false := by simpa using hu
  simp only [recordFailure, hemp, Bool.false_eq_true, if_false, counted, lockEnd]
  split_ifs <;> rw [AList.lookup_insert]

/-- A call that is no failure of `u` leaves its element as it is, or removes it. -/
theorem lookup_step_cases (hu : u ≠ []) (hs : step cfg s a = some s')
    (hf : a.failureOf u = none) :
    s'.failures.lookup u = none ∨
      s'.failures.lookup u = s.failures.lookup u ∧ a.Keeps u := by
  cases a with
  | recordFailure layout now username =>
    have hne : u ≠ username := fun h => by simp [Action.failureOf, h] at hf
    obtain ⟨-, rfl⟩ := step_recordFailure_iff.1 hs
    by_cases hv : username = []
    · subst hv
      exact .inr ⟨rfl, trivial⟩
    · obtain ⟨e, he⟩ := exists_recordFailure cfg layout s.failures now hv
      rw [he, AList.lookup_insert_ne hne]
      exact (lookup_evict_cases cfg layout s.failures now u).imp_right fun h => ⟨h, trivial⟩
  | reset username =>
    cases hs
    by_cases hr : username = u
    · subst hr
      left
      rw [reset, if_neg (by simpa using hu)]
      exact AList.lookup_erase username s.failures
    · exact .inr ⟨lookup_reset_ne (Ne.symm hr), hr⟩
  | isLocked now username =>
    obtain ⟨-, rfl⟩ := step_isLocked_iff.1 hs
    exact .inr ⟨rfl, trivial⟩

/-! ## The failures that an element counts -/

/-- The element stands for failures in its window, among those at the times `ts`, and is locked
    only if they are enough. -/
structure Counted (cfg : Config) (ts : List Int) (clock : Int) (e : Entry) : Prop where
  epoch : 0 ≤ clock
  opened : e.firstFailureAt ≤ clock
  count_le : e.count ≤ (timesIn cfg e.firstFailureAt ts).length
  locked : clock < e.lockedUntil → cfg.enabled = true ∧ cfg.threshold ≤ e.count

theorem Counted.mono (h : Counted cfg ts clock e) (hc : clock ≤ now) : Counted cfg ts now e :=
  ⟨h.epoch.trans hc, h.opened.trans hc, h.count_le, fun hl => h.locked (hc.trans_lt hl)⟩

theorem timesIn_singleton {w : Int} (hw : w ≤ t) (ht : t < w + cfg.window) :
    timesIn cfg w [t] = [t] := by
  rw [timesIn, List.filter_cons_of_pos (by simpa using ⟨hw, ht⟩), List.filter_nil]

theorem timesIn_append (w : Int) (ts ts' : List Int) :
    timesIn cfg w (ts ++ ts') = timesIn cfg w ts ++ timesIn cfg w ts' := List.filter_append ..

/-- A failure that is not counted. -/
theorem Counted.again (h : Counted cfg ts clock e) (hc : clock ≤ now) :
    Counted cfg (ts ++ [t]) now e := by
  refine ⟨h.epoch.trans hc, h.opened.trans hc, h.count_le.trans ?_,
    fun hl => h.locked (hc.trans_lt hl)⟩
  rw [timesIn_append, List.length_append]
  omega

theorem window_pos (cfg : Config) : 0 < cfg.window := by
  have := cfg.window_pos
  rw [Config.window, seconds]
  omega

theorem duration_pos (cfg : Config) : 0 < cfg.duration := by
  have := cfg.duration_pos
  rw [Config.duration, seconds]
  omega

/-- A failure that is counted. -/
theorem Counted.counted (h : e.firstFailureAt ≠ 0 → Counted cfg ts clock e) (hc : clock ≤ now)
    (hnow : 0 ≤ now) (hl : e.lockedUntil ≤ now) :
    Counted cfg (ts ++ [now]) now (counted cfg e now) := by
  have hw := window_pos cfg
  have hbump : Counted cfg (ts ++ [now]) now (bump cfg e now) := by
    rw [bump]
    split_ifs with hopen
    · refine ⟨hnow, le_refl _, ?_, fun h => absurd h (not_lt.2 hnow)⟩
      rw [timesIn_append, timesIn_singleton (le_refl _) (by omega), List.length_append,
        List.length_singleton]
      dsimp only
      omega
    · rw [not_or, not_le] at hopen
      have h := h hopen.1
      refine ⟨hnow, h.opened.trans hc, ?_, fun h => absurd h (not_lt.2 hl)⟩
      have hcount := h.count_le
      rw [timesIn_append, timesIn_singleton (h.opened.trans hc) (by omega), List.length_append,
        List.length_singleton]
      dsimp only
      omega
  rw [LoginFailureTracker.counted]
  split_ifs with htrips
  · exact ⟨hbump.epoch, hbump.opened, hbump.count_le, fun _ => ⟨htrips.1, htrips.2.1⟩⟩
  · exact hbump

theorem failuresSinceReset_append (l : List Action) (hk : a.Keeps u) :
    failuresSinceReset u (l ++ [a]) = failuresSinceReset u l ++ (a.failureOf u).toList := by
  rw [failuresSinceReset, List.rtakeWhile_concat_pos _ _ _ (by simpa using hk), failureTimes,
    List.filterMap_append]
  cases h : a.failureOf u with
  | none => rw [List.filterMap_cons_none h]; rfl
  | some t => rw [List.filterMap_cons_some h]; rfl

/-- An element of the table, or the new one of a failure. -/
theorem getD_evict (h : ∀ e, m.lookup u = some e → Counted cfg ts clock e)
    (layout : Layout Bytes Entry) (now : Int) :
    ((evict cfg layout m now).lookup u).getD {} = {} ∨
      Counted cfg ts clock (((evict cfg layout m now).lookup u).getD {}) := by
  rcases lookup_evict_cases cfg layout m now u with hn | he
  · exact .inl (by rw [hn]; rfl)
  · rw [he]
    cases hm : m.lookup u with
    | none => exact .inl rfl
    | some e => exact .inr (h e hm)

/-- The element of `u` after a failure of `u`. -/
theorem Counted.failure (hu : u ≠ []) (h : ∀ e, m.lookup u = some e → Counted cfg ts clock e)
    (hc : clock ≤ now) (hnow : 0 ≤ now) (layout : Layout Bytes Entry) :
    ∀ e, (recordFailure cfg layout m now u).2.lookup u = some e →
      Counted cfg (ts ++ [now]) now e := by
  intro e he
  rw [lookup_recordFailure hu, Option.some_inj] at he
  subst he
  have hentry := getD_evict h layout now
  split_ifs with hlock
  · refine (hentry.resolve_left fun hn => ?_).again hc
    rw [lockEnd, hn] at hlock
    exact absurd hlock.2 (not_lt.2 hnow)
  · refine Counted.counted (fun hne => hentry.resolve_left fun hn => ?_) hc hnow ?_
    · rw [hn] at hne
      exact hne rfl
    · -- an element that is locked belongs to an enabled tracker
      rcases hentry with hn | hcounted
      · rw [hn]
        exact hnow
      · by_contra hlt
        rw [not_le] at hlt
        exact hlock ⟨(hcounted.locked (hc.trans_lt hlt)).1, hlt⟩

/-- The element of `u` in a run. -/
theorem counted_of_exec {s₀ : State} (hu : u ≠ []) (h₀ : s₀.failures = ∅)
    (hl : (system cfg).Exec (Regular cfg u) s₀ l s) :
    ∀ e, s.failures.lookup u = some e → Counted cfg (failuresSinceReset u l) s.clock e := by
  induction hl with
  | nil =>
    intro e he
    rw [h₀, AList.lookup_empty] at he
    cases he
  | @snoc t t' l a hl hg hs ih =>
    have hs : step cfg t a = some t' := hs
    cases hf : a.failureOf u with
    | none =>
      intro e he
      rcases lookup_step_cases hu hs hf with hn | ⟨hsame, hk⟩
      · rw [hn] at he
        cases he
      · rw [failuresSinceReset_append l hk, hf, Option.toList_none, List.append_nil]
        exact (ih e (hsame ▸ he)).mono (clock_step hs)
    | some now =>
      obtain ⟨layout, rfl, hc, rfl⟩ := failure_step hs hf
      have hsince : failuresSinceReset u (l ++ [.recordFailure layout now u]) =
          failuresSinceReset u l ++ [now] := by
        have hk : (Action.recordFailure layout now u).Keeps u := trivial
        rw [failuresSinceReset_append l hk, hf, Option.toList_some]
      rw [hsince]
      exact Counted.failure hu ih hc hg.1 layout

/-! ## A table full of locked usernames -/

/-- The table is not full, or has an element that is not locked. -/
structure Roomy (cfg : Config) (s : State) : Prop where
  size_le : UnorderedMap.size s.failures ≤ cfg.maxEntries
  unlocked : cfg.maxEntries ≤ UnorderedMap.size s.failures →
    ∃ v e, s.failures.lookup v = some e ∧ e.lockedUntil ≤ s.clock

/-- After the eviction there is room for one more. -/
theorem size_evict_lt (hmax : 0 < cfg.maxEntries) (h : UnorderedMap.size m ≤ cfg.maxEntries)
    (layout : Layout Bytes Entry) (now : Int) :
    UnorderedMap.size (evict cfg layout m now) < cfg.maxEntries := by
  by_cases hfull : cfg.maxEntries ≤ UnorderedMap.size m
  · obtain ⟨w, hw⟩ : ∃ w, evicted cfg layout m now = some w := by
      rw [evicted, if_pos ⟨hmax, hfull⟩]
      obtain ⟨e, l, hl⟩ : ∃ e l, layout.order m = e :: l := by
        refine List.exists_cons_of_length_pos ?_
        rw [(layout.perm m).length_eq]
        exact hmax.trans_le hfull
      rw [hl]
      exact ⟨_, rfl⟩
    obtain ⟨-, -, e, he, -⟩ := victim_spec hw
    rw [evict, hw]
    exact (UnorderedMap.size_erase_lt (UnorderedMap.mem_of_lookup he)).trans_le h
  · rw [evict, evicted, if_neg fun h => hfull h.2]
    exact not_le.1 hfull

/-- The first failure of a username that has no element. -/
theorem counted_new (hnow : 0 ≤ now) : counted cfg {} now =
    ⟨1, now, if cfg.enabled = true ∧ cfg.threshold ≤ 1 then now + cfg.duration else 0⟩ := by
  have hbump : bump cfg {} now = ⟨1, now, 0⟩ := if_pos (.inl rfl)
  rw [counted, hbump]
  by_cases h : cfg.enabled = true ∧ cfg.threshold ≤ 1
  · rw [if_pos ⟨h.1, h.2, hnow⟩, if_pos h]
  · rw [if_neg fun ht => h ⟨ht.1, ht.2.1⟩, if_neg h]

theorem Roomy.later (h : Roomy cfg s) (hc : s.clock ≤ now) : Roomy cfg ⟨s.failures, now⟩ :=
  ⟨h.size_le, fun hfull => (h.unlocked hfull).imp fun _ ⟨e, he, hl⟩ => ⟨e, he, hl.trans hc⟩⟩

/-- A table that is still full has not lost an element. -/
theorem Roomy.reset (h : Roomy cfg s) (v : Bytes) :
    Roomy cfg { s with failures := reset s.failures v } := by
  by_cases hv : v = []
  · subst hv
    exact h
  · have hreset : LoginFailureTracker.reset s.failures v = s.failures.erase v :=
      if_neg (by simpa using hv)
    have hle : UnorderedMap.size (s.failures.erase v) ≤ UnorderedMap.size s.failures :=
      UnorderedMap.size_le_of_forall fun _ ha => (AList.mem_erase.1 ha).2
    rw [hreset]
    refine ⟨hle.trans h.size_le, fun hfull => ?_⟩
    obtain ⟨w, e, he, hl⟩ := h.unlocked (hfull.trans hle)
    refine ⟨w, e, ?_, hl⟩
    by_cases hw : w = v
    · have hmem : v ∈ s.failures := hw ▸ UnorderedMap.mem_of_lookup he
      have hlt := UnorderedMap.size_erase_lt hmem
      have hmax := h.size_le
      dsimp only at hfull
      omega
    · exact (AList.lookup_erase_ne hw).trans he

/-- With a threshold above one, every call leaves such a table. -/
theorem Roomy.step (h : Roomy cfg s) (hmax : 0 < cfg.maxEntries) (hth : 1 < cfg.threshold)
    (hg : Regular cfg u s a) (hs : LoginFailureTracker.step cfg s a = some s') : Roomy cfg s' := by
  have hclock := clock_step hs
  cases a with
  | recordFailure layout now v =>
    obtain ⟨-, rfl⟩ := step_recordFailure_iff.1 hs
    by_cases hv : v = []
    · subst hv
      exact h.later hclock
    · have hroom := size_evict_lt hmax h.size_le layout now
      obtain ⟨e, he⟩ := exists_recordFailure cfg layout s.failures now hv
      constructor
      · dsimp only
        rw [he]
        exact (UnorderedMap.size_insert_le _ _ _).trans hroom
      · -- the call has added an element, which one failure does not lock
        intro hfull
        have hnew : (evict cfg layout s.failures now).lookup v = none := by
          rw [AList.lookup_eq_none]
          intro hmem
          dsimp only at hfull
          rw [he, UnorderedMap.size_insert_of_mem hmem] at hfull
          exact absurd hroom (not_lt.2 hfull)
        refine ⟨v, counted cfg {} now, ?_, ?_⟩
        · dsimp only
          rw [lookup_recordFailure hv, lockEnd, hnew,
            if_neg fun hlt => absurd hlt.2 (not_lt.2 hg.1)]
          rfl
        · rw [counted_new hg.1, if_neg fun ht => absurd ht.2 (not_le.2 hth)]
          exact hg.1
  | reset v =>
    cases hs
    exact h.reset v
  | isLocked now v =>
    obtain ⟨-, rfl⟩ := step_isLocked_iff.1 hs
    exact h.later hclock

/-- With a threshold above one, a locked username is not evicted. -/
theorem Roomy.evicted_ne (h : Roomy cfg s) (hc : s.clock ≤ now)
    (hl : (isLocked s.failures now u).1 = true) (hu : u ≠ []) (layout : Layout Bytes Entry) :
    evicted cfg layout s.failures now ≠ some u := by
  intro hev
  obtain ⟨e, he, hlt⟩ := (isLocked_iff hu).1 hl
  obtain ⟨-, hfull, e', he', hall⟩ := victim_spec hev
  rw [he, Option.some_inj] at he'
  subst he'
  obtain ⟨v, ev, hv, hunlocked⟩ := h.unlocked hfull
  rcases hall v ev hv with hout | hout
  · exact hout.1 hlt
  · exact absurd (hout.1.1 hlt) (not_lt.2 (hunlocked.trans hc))

/-! ## The end of a lock -/

theorem secondsUntil_eq {a b : Int} (h : b < a) : secondsUntil a b =
    if seconds ((a - b) / 1000000000) < a - b then (a - b) / 1000000000 + 1
      else (a - b) / 1000000000 := by
  rw [secondsUntil, if_neg (not_le.2 h), Int.tdiv_eq_ediv_of_nonneg (by omega)]

/-- The seconds are rounded up. -/
theorem le_secondsUntil {a b : Int} (h : b < a) : a ≤ b + seconds (secondsUntil a b) := by
  rw [secondsUntil_eq h]
  split_ifs with hlt
  · rw [seconds] at hlt ⊢
    omega
  · rw [seconds] at hlt ⊢
    omega

theorem secondsUntil_duration (cfg : Config) (now : Int) :
    secondsUntil (now + cfg.duration) now = cfg.lockoutDurationSeconds := by
  have hpos := duration_pos cfg
  rw [secondsUntil_eq (by omega), if_neg]
  · rw [Config.duration, seconds]
    omega
  · rw [Config.duration, seconds, seconds]
    omega

theorem isLocked_of_lookup (hu : u ≠ []) (he : m.lookup u = some e) (now : Int) :
    isLocked m now u =
      if now < e.lockedUntil then (true, secondsUntil e.lockedUntil now) else (false, 0) := by
  rw [isLocked, if_neg (by simpa using hu), he]

/-- What a failure of `u` reports is what `is_locked` reports then. -/
theorem remainingSeconds_recordFailure (hu : u ≠ []) (hnow : 0 ≤ now)
    (hen : now < lockEnd (evict cfg layout m now) u → cfg.enabled = true) :
    (recordFailure cfg layout m now u).1.remainingSeconds =
      (isLocked (recordFailure cfg layout m now u).2 now u).2 := by
  have hemp : u.isEmpty = false := by simpa using hu
  rw [isLocked_of_lookup hu (lookup_recordFailure hu cfg layout m now)]
  rw [lockEnd] at hen ⊢
  simp only [recordFailure, hemp, Bool.false_eq_true, if_false]
  by_cases hlock : cfg.enabled = true ∧
      now < (((evict cfg layout m now).lookup u).getD {}).lockedUntil
  · simp only [if_pos hlock, if_pos hlock.2]
  · simp only [if_neg hlock, counted]
    split_ifs with htrips hlt hlt
    · exact (secondsUntil_duration cfg now).symm
    · exact absurd (Int.lt_add_of_pos_right now (duration_pos cfg)) hlt
    · -- a failure that is counted does not find `u` locked
      rw [bump] at hlt
      split_ifs at hlt
      · exact absurd hlt (not_lt.2 hnow)
      · exact absurd ⟨hen hlt, hlt⟩ hlock
    · rfl

/-- The element of `u` in a run without failures of `u`. -/
theorem lookup_of_exec (hu : u ≠ [])
    (hl : (system cfg).Exec System.Always s l s') (hf : ∀ a ∈ l, a.failureOf u = none) :
    s'.failures.lookup u = none ∨ s'.failures.lookup u = s.failures.lookup u := by
  induction hl with
  | nil => exact .inr rfl
  | @snoc t t' l a hl hg hs ih =>
    rcases lookup_step_cases hu hs (hf a (List.mem_append_right _ (List.mem_singleton_self a)))
      with hn | ⟨hsame, -⟩
    · exact .inl hn
    · rw [hsame]
      exact ih fun b hb => hf b (List.mem_append_left _ hb)

theorem endsBy_of_isLocked (hlock : isLocked m t u = (true, r)) : EndsBy cfg u m t r := by
  intro l s t' hl hf hc ht'
  have hu : u ≠ [] := by
    rintro rfl
    cases hlock
  obtain ⟨e, he, hlt⟩ := (isLocked_iff hu).1 (congrArg Prod.fst hlock)
  have hr : r = secondsUntil e.lockedUntil t := by
    rw [isLocked_of_lookup hu he, if_pos hlt] at hlock
    exact (congrArg Prod.snd hlock).symm
  rw [← Bool.not_eq_true, isLocked_iff hu]
  rintro ⟨e', he', hlt'⟩
  rcases lookup_of_exec hu hl hf with hn | hsame
  · rw [hn] at he'
    cases he'
  · rw [hsame] at he'
    dsimp only at he'
    rw [he, Option.some_inj] at he'
    subst he'
    have := le_secondsUntil hlt
    rw [← hr] at this
    omega

theorem roomy_of_exec {s₀ : State} (hmax : 0 < cfg.maxEntries) (hth : 1 < cfg.threshold)
    (h₀ : s₀.failures = ∅) (hl : (system cfg).Exec (Regular cfg u) s₀ l s) : Roomy cfg s := by
  refine hl.invariant ⟨?_, fun hfull => ?_⟩ fun t a t' ht hg hs => ht.step hmax hth hg hs
  · rw [h₀]
    exact Nat.zero_le _
  · rw [h₀] at hfull
    exact absurd hmax (not_lt.2 hfull)

/-- A failure of `u` that does not evict it does not move the end of its lock. -/
theorem lockEnd_recordFailure (hu : u ≠ []) (hen : cfg.enabled = true)
    (hl : (isLocked m now u).1 = true) (h : evicted cfg layout m now ≠ some u) :
    lockEnd (recordFailure cfg layout m now u).2 u = lockEnd m u := by
  obtain ⟨e, he, hlt⟩ := (isLocked_iff hu).1 hl
  rw [lockEnd, lockEnd, recordFailure_locked hu hen h he hlt, he]

/-- One that evicts it locks it anew, if the threshold is one. -/
theorem lockEnd_recordFailure_evicted (hu : u ≠ []) (hen : cfg.enabled = true) (hnow : 0 ≤ now)
    (hth : cfg.threshold = 1) (h : evicted cfg layout m now = some u) :
    lockEnd (recordFailure cfg layout m now u).2 u = now + cfg.duration := by
  rw [lockEnd, lookup_recordFailure hu, lockEnd, lookup_evict_self h,
    if_neg fun hlt => absurd hlt.2 (not_lt.2 hnow)]
  rw [Option.getD_some, Option.getD_none, counted_new hnow, if_pos ⟨hen, hth.le⟩]

/-- In every run of regular calls, `u` is locked only after `threshold` failures since its last
    reset, all in one window; from the end of the reported seconds on, it is not locked, unless
    there is another failure; and a failure while it is locked does not move the end. -/
theorem lockouts_end (cfg : Config) (u : Bytes) {s₀ s : State} {l : List Action}
    (h₀ : (system cfg).init s₀) (hl : (system cfg).Exec (Regular cfg u) s₀ l s) :
    (∀ t r, s.clock ≤ t → isLocked s.failures t u = (true, r) →
      Justified cfg u l ∧ EndsBy cfg u s.failures t r) ∧
    ∀ layout now s', step cfg s (.recordFailure layout now u) = some s' →
      Regular cfg u s (.recordFailure layout now u) →
      (recordFailure cfg layout s.failures now u).1.remainingSeconds =
        (isLocked s'.failures now u).2 ∧
      ((isLocked s.failures now u).1 = true → lockEnd s'.failures u = lockEnd s.failures u) := by
  -- The empty name has no element, and it is never locked.
  by_cases hu : u = []
  · subst hu
    have hfalse : ∀ m t, isLocked m t [] = (false, 0) := fun _ _ => rfl
    refine ⟨fun t r _ hlock => ?_, fun layout now s' _ _ => ⟨rfl, fun hlock => ?_⟩⟩
    · rw [hfalse] at hlock
      cases hlock
    · rw [hfalse] at hlock
      cases hlock
  have hcount := counted_of_exec hu h₀ hl
  refine ⟨fun t r hc hlock => ⟨?_, endsBy_of_isLocked hlock⟩, fun layout now s' hs hreg => ?_⟩
  · obtain ⟨e, he, hlt⟩ := (isLocked_iff hu).1 (congrArg Prod.fst hlock)
    have h := hcount e he
    exact ⟨e.firstFailureAt, (h.locked (hc.trans_lt hlt)).2.trans h.count_le⟩
  · obtain ⟨hc, rfl⟩ := step_recordFailure_iff.1 hs
    refine ⟨remainingSeconds_recordFailure hu hreg.1 fun hlt => ?_, fun hlock => ?_⟩
    · rcases getD_evict hcount layout now with hn | h
      · rw [lockEnd, hn] at hlt
        exact absurd hlt (not_lt.2 hreg.1)
      · exact (h.locked (hc.trans_lt hlt)).1
    · obtain ⟨e, he, hlt⟩ := (isLocked_iff hu).1 hlock
      have hen := ((hcount e he).locked (hc.trans_lt hlt)).1
      -- The element of the user itself may be evicted to make room for its failure.
      by_cases hev : evicted cfg layout s.failures now = some u
      · by_cases hth : cfg.threshold = 1
        · dsimp only
          rw [lockEnd_recordFailure_evicted hu hen hreg.1 hth hev,
            hreg.2 rfl hth hlock hev]
        · have hroom := roomy_of_exec (victim_spec hev).1 (lt_of_le_of_ne cfg.threshold_pos
            (Ne.symm hth)) h₀ hl
          exact absurd hev (hroom.evicted_ne hc hlock hu layout)
      · exact lockEnd_recordFailure hu hen hlock hev

/-- One failure locks a username, and the table holds two. -/
def strict : Config := .new { threshold := 1 } 2

/-- `alice` fails, and again while she is locked: her lock is justified and ends when announced. -/
theorem lockouts_end_alice : ∃ s,
    (system strict).Exec (Regular strict (bytes "alice")) ⟨∅, 0⟩
      [failure 1 (bytes "alice"), failure 2 (bytes "alice")] s ∧
    Justified strict (bytes "alice") [failure 1 (bytes "alice"), failure 2 (bytes "alice")] ∧
    EndsBy strict (bytes "alice") s.failures (seconds 2) 899 := by
  obtain ⟨s, hl, hs⟩ := System.exists_exec_of_runGuarded (S := system strict)
    (G := Regular strict (bytes "alice")) (s := ⟨∅, 0⟩)
    (l := [failure 1 (bytes "alice"), failure 2 (bytes "alice")])
    (p := fun s => s.clock ≤ seconds 2 ∧
      isLocked s.failures (seconds 2) (bytes "alice") = (true, 899)) (by decide +kernel)
  obtain ⟨hc, hlock⟩ := of_decide_eq_true hs
  have h₀ : (system strict).init ⟨∅, 0⟩ := rfl
  exact ⟨s, hl, (lockouts_end strict (bytes "alice") h₀ hl).1 (seconds 2) 899 hc hlock⟩

/-- One failure locks a username, and the table holds one. -/
def single : Config := .new { threshold := 1 } 1

/-- `alice` fails and is locked for 900 seconds. A second failure a second later moves the end of
    her lock. -/
theorem lock_extended : ∃ s',
    (system single).Exec System.Always ⟨∅, 0⟩ [failure 1 (bytes "alice")] (afterOne single) ∧
    (isLocked (afterOne single).failures (seconds 2) (bytes "alice")).1 = true ∧
    step single (afterOne single) (failure 2 (bytes "alice")) = some s' ∧
    lockEnd (afterOne single).failures (bytes "alice") = seconds 901 ∧
    lockEnd s'.failures (bytes "alice") = seconds 902 :=
  ⟨_, .snoc (.nil _) trivial rfl, by decide +kernel, rfl, by decide +kernel, by decide +kernel⟩

end LiteCode.LoginFailureTracker
