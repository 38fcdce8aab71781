import LiteCode.Auth.LoginTracker

/-!
# Lockouts last

Any sequence of calls of `record_failure`, `reset` and `is_locked` on one tracker, for any
usernames, with a clock that does not go back (`system`). A username with `threshold` failures in
its window is locked for the whole duration, whatever calls are made for others, as long as none
of them evicts it (`locked_of_failures`). A full table does evict it: the username with the most
failures that is not locked yet comes first (`evicted_not_locked`).
-/

namespace LiteCode.LoginFailureTracker

/-- A tracker, and the last reading of its clock. -/
structure State where
  failures : Failures
  clock : Int
  deriving DecidableEq

/-- The calls. The clock is read by `record_failure` and `is_locked`. -/
inductive Action
  | recordFailure (layout : Layout Bytes Entry) (now : Int) (username : Bytes)
  | reset (username : Bytes)
  | isLocked (now : Int) (username : Bytes)

/-- The state after a call. -/
def step (cfg : Config) (s : State) : Action → Option State
  | .recordFailure layout now username =>
    if now < s.clock then none
    else some ⟨(recordFailure cfg layout s.failures now username).2, now⟩
  | .reset username => some { s with failures := reset s.failures username }
  | .isLocked now _ => if now < s.clock then none else some { s with clock := now }

/-- A tracker, from its construction on. -/
def system (cfg : Config) : System State Action where
  init s := s.failures = ∅
  step := step cfg

/-- The time of a failure of `u`. -/
def Action.failureOf (u : Bytes) : Action → Option Int
  | .recordFailure _ now username => if username = u then some now else none
  | _ => none

/-- The times of the failures of `u` among the calls. -/
def failureTimes (u : Bytes) (l : List Action) : List Int := l.filterMap (Action.failureOf u)

/-- The call does not reset `u`. -/
def Action.Keeps (u : Bytes) : Action → Prop
  | .reset username => username ≠ u
  | _ => True

/-- The call does not evict `u`. -/
def Spares (cfg : Config) (u : Bytes) (s : State) : Action → Prop
  | .recordFailure layout now _ => evicted cfg layout s.failures now ≠ some u
  | _ => True

instance (cfg : Config) (u : Bytes) (s : State) (a : Action) : Decidable (Spares cfg u s a) :=
  match a with
  | .recordFailure _ _ _ => inferInstanceAs (Decidable (_ ≠ _))
  | .reset _ => inferInstanceAs (Decidable True)
  | .isLocked _ _ => inferInstanceAs (Decidable True)

variable {cfg : Config} {u : Bytes} {s s' : State} {a : Action} {t₁ : Int}

theorem step_recordFailure_iff {layout : Layout Bytes Entry} {now : Int} {username : Bytes} :
    step cfg s (.recordFailure layout now username) = some s' ↔
      s.clock ≤ now ∧ s' = ⟨(recordFailure cfg layout s.failures now username).2, now⟩ := by
  rw [step]
  split_ifs with hc
  · exact iff_of_false not_false fun h => absurd hc (not_lt.2 h.1)
  · rw [Option.some_inj, and_iff_right (not_lt.1 hc), eq_comm]

theorem step_isLocked_iff {now : Int} {username : Bytes} :
    step cfg s (.isLocked now username) = some s' ↔
      s.clock ≤ now ∧ s' = { s with clock := now } := by
  rw [step]
  split_ifs with hc
  · exact iff_of_false not_false fun h => absurd hc (not_lt.2 h.1)
  · rw [Option.some_inj, and_iff_right (not_lt.1 hc), eq_comm]

/-- The clock does not go back. -/
theorem clock_step (hs : step cfg s a = some s') : s.clock ≤ s'.clock := by
  cases a with
  | recordFailure layout now username =>
    obtain ⟨hc, rfl⟩ := step_recordFailure_iff.1 hs
    exact hc
  | reset username =>
    cases hs
    exact le_refl _
  | isLocked now username =>
    obtain ⟨hc, rfl⟩ := step_isLocked_iff.1 hs
    exact hc

/-- A call that is not a failure of `u` leaves its element as it is, and the clock does not go
    back. -/
theorem lookup_step (hs : step cfg s a = some s') (hk : a.Keeps u) (hsp : Spares cfg u s a)
    (hf : a.failureOf u = none) :
    s'.failures.lookup u = s.failures.lookup u ∧ s.clock ≤ s'.clock := by
  refine ⟨?_, clock_step hs⟩
  cases a with
  | recordFailure layout now username =>
    obtain ⟨hc, rfl⟩ := step_recordFailure_iff.1 hs
    have hne : u ≠ username := fun h => by simp [Action.failureOf, h] at hf
    exact lookup_recordFailure_ne hne hsp
  | reset username =>
    cases hs
    exact lookup_reset_ne (Ne.symm hk)
  | isLocked now username =>
    obtain ⟨hc, rfl⟩ := step_isLocked_iff.1 hs
    rfl

/-- A step that is a failure of `u`. -/
theorem failure_step {now : Int} (hs : step cfg s a = some s') (hf : a.failureOf u = some now) :
    ∃ layout, a = .recordFailure layout now u ∧ s.clock ≤ now ∧
      s' = { s with failures := (recordFailure cfg layout s.failures now u).2, clock := now } := by
  cases a with
  | recordFailure layout t username =>
    simp only [Action.failureOf, Option.ite_none_right_eq_some, Option.some.injEq] at hf
    obtain ⟨rfl, rfl⟩ := hf
    obtain ⟨hc, rfl⟩ := step_recordFailure_iff.1 hs
    exact ⟨layout, rfl, hc, rfl⟩
  | reset username => cases hf
  | isLocked now username => cases hf

/-- The time of the last of the failures that count, the first one being at `t₁`. -/
def lastFailure (t₁ : Int) (ts : List Int) : Int := ts.getLast?.getD t₁

/-- The element of `u` after the first failure at `t₁` and those at the times `ts`. -/
structure InWindow (cfg : Config) (u : Bytes) (t₁ : Int) (ts : List Int) (s : State) : Prop where
  entry : s.failures.lookup u =
    some (windowEntry cfg t₁ (ts.length + 1) (lastFailure t₁ ts))
  opened : t₁ ≤ s.clock

theorem InWindow.step {ts : List Int} (h : InWindow cfg u t₁ ts s)
    (hs : LoginFailureTracker.step cfg s a = some s') (hk : a.Keeps u) (hsp : Spares cfg u s a)
    (hf : a.failureOf u = none) : InWindow cfg u t₁ ts s' := by
  obtain ⟨hl, hc⟩ := lookup_step hs hk hsp hf
  exact ⟨hl.trans h.entry, h.opened.trans hc⟩

/-- One more failure in the window. -/
theorem InWindow.snoc {ts : List Int} {now : Int} (h : InWindow cfg u t₁ ts s) (hu : u ≠ [])
    (hen : cfg.enabled = true) (ht₁ : 0 < t₁) (hs : LoginFailureTracker.step cfg s a = some s')
    (hsp : Spares cfg u s a) (hf : a.failureOf u = some now) (hn : ts.length + 1 < cfg.threshold)
    (hw : now < t₁ + cfg.window) : InWindow cfg u t₁ (ts ++ [now]) s' := by
  obtain ⟨layout, rfl, hc, rfl⟩ := failure_step hs hf
  have hopened := h.opened.trans hc
  refine ⟨?_, hopened⟩
  have := recordFailure_counting hu hen hsp ht₁ hopened h.entry hn hw
  simpa [lastFailure] using this

/-- A failure of a locked username. -/
theorem InWindow.again {ts : List Int} {now : Int} (h : InWindow cfg u t₁ ts s) (hu : u ≠ [])
    (hen : cfg.enabled = true) (hs : LoginFailureTracker.step cfg s a = some s')
    (hsp : Spares cfg u s a) (hf : a.failureOf u = some now) (hn : cfg.threshold ≤ ts.length + 1)
    (hlt : now < lastFailure t₁ ts + cfg.duration) : InWindow cfg u t₁ ts s' := by
  obtain ⟨layout, rfl, hc, rfl⟩ := failure_step hs hf
  refine ⟨recordFailure_locked hu hen hsp h.entry ?_, h.opened.trans hc⟩
  simpa [windowEntry, hn] using hlt

/-- The clock after a failure is its time. -/
theorem clock_of_failure {now : Int} (hs : step cfg s a = some s') (hf : a.failureOf u = some now) :
    s.clock ≤ now ∧ s'.clock = now := by
  obtain ⟨layout, rfl, hc, rfl⟩ := failure_step hs hf
  exact ⟨hc, rfl⟩

/-- The element of `u` along an execution: the failures `ts` are counted, and those after the
    threshold (`ts'`) find it locked. -/
theorem inWindow_of_exec {s₁ s₂ : State} {l : List Action} (hu : u ≠ [])
    (hen : cfg.enabled = true) (ht₁ : 0 < t₁) (h₁ : InWindow cfg u t₁ [] s₁)
    (hl : (system cfg).Exec (Spares cfg u) s₁ l s₂) (hk : ∀ a ∈ l, a.Keeps u) {ts ts' : List Int}
    (hts : failureTimes u l = ts ++ ts') (hlen : ts.length + 1 ≤ cfg.threshold)
    (hwin : ∀ t ∈ ts, t < t₁ + cfg.window)
    (hmore : ts' ≠ [] →
      cfg.threshold ≤ ts.length + 1 ∧ s₂.clock < lastFailure t₁ ts + cfg.duration) :
    InWindow cfg u t₁ ts s₂ := by
  induction hl generalizing ts ts' with
  | nil =>
    obtain ⟨rfl, -⟩ := List.append_eq_nil_iff.1 hts.symm
    exact h₁
  | @snoc t t' l a hl hsp hs ih =>
    have hk' : ∀ b ∈ l, b.Keeps u := fun b hb => hk b (List.mem_append_left _ hb)
    have hka : a.Keeps u := hk a (List.mem_append_right _ (List.mem_singleton_self a))
    rw [failureTimes, List.filterMap_append] at hts
    cases hf : a.failureOf u with
    | none =>
      rw [List.filterMap_cons_none hf, List.filterMap_nil, List.append_nil] at hts
      have hc : t.clock ≤ t'.clock := (lookup_step hs hka hsp hf).2
      exact (ih hk' hts hlen hwin fun h => ⟨(hmore h).1, hc.trans_lt (hmore h).2⟩).step hs hka
        hsp hf
    | some now =>
      rw [List.filterMap_cons_some hf, List.filterMap_nil] at hts
      obtain ⟨hle, hc⟩ := clock_of_failure hs hf
      rcases List.eq_nil_or_concat ts' with rfl | ⟨ts'', now', rfl⟩
      · -- the failure is the last one that counts
        rw [List.append_nil] at hts
        subst hts
        have hlen' : (failureTimes u l).length + 1 < cfg.threshold := by
          simp only [List.length_append, List.length_singleton, failureTimes] at hlen ⊢
          omega
        refine (ih hk' (List.append_nil _).symm hlen'.le
          (fun t ht => hwin t (List.mem_append_left _ ht)) (fun h => absurd rfl h)).snoc hu hen ht₁
            hs hsp hf hlen' ?_
        exact hwin now (List.mem_append_right _ (List.mem_singleton_self now))
      · -- the failure finds the username locked
        rw [List.concat_eq_append, ← List.append_assoc] at hts
        obtain ⟨hts, hnow⟩ := List.append_inj' hts rfl
        obtain ⟨hn, hlt⟩ := hmore (by simp)
        rw [hc] at hlt
        exact (ih hk' hts hlen hwin fun _ => ⟨hn, hle.trans_lt hlt⟩).again hu hen hs hsp hf hn
          hlt

/-- When a failure of `u` opens its window, `threshold` failures of `u` come in this window, the
    first one included, and `u` is neither reset nor evicted, then from the last of them `u` is
    locked for the whole duration, whatever else is called. -/
theorem locked_of_failures (cfg : Config) (hen : cfg.enabled = true) (layout : Layout Bytes Entry)
    (s₀ : State) {u : Bytes} (hu : u ≠ []) {t₁ t : Int} {s₁ s₂ : State} {l : List Action}
    {ts ts' : List Int} (ht₁ : 0 < t₁) (hopens : Opens cfg layout s₀.failures t₁ u)
    (hfirst : step cfg s₀ (.recordFailure layout t₁ u) = some s₁)
    (hl : (system cfg).Exec (Spares cfg u) s₁ l s₂) (hk : ∀ a ∈ l, a.Keeps u)
    (hts : failureTimes u l = ts ++ ts') (hlen : ts.length + 1 = cfg.threshold)
    (hwin : ∀ t ∈ ts, t < t₁ + cfg.window) (ht : s₂.clock ≤ t)
    (hlt : t < lastFailure t₁ ts + cfg.duration) : (isLocked s₂.failures t u).1 = true := by
  have h₁ : InWindow cfg u t₁ [] s₁ := by
    obtain ⟨-, rfl⟩ := step_recordFailure_iff.1 hfirst
    exact ⟨recordFailure_opens hu hen ht₁ hopens, le_refl _⟩
  have h₂ : InWindow cfg u t₁ ts s₂ := inWindow_of_exec hu hen ht₁ h₁ hl hk hts hlen.le hwin
    fun _ => ⟨hlen.ge, ht.trans_lt hlt⟩
  refine (isLocked_iff hu).2 ⟨_, h₂.entry, ?_⟩
  simpa [windowEntry, hlen] using hlt

instance (cfg : Config) (layout : Layout Bytes Entry) (m : Failures) (now : Int) (u : Bytes) :
    Decidable (Opens cfg layout m now u) :=
  inferInstanceAs (Decidable (_ ∧ _))

/-- Two failures lock a username. -/
def twoFailures : Config := .new { threshold := 2 } 3

/-- A failure, the table being visited as it is listed. -/
def failure (sec : Int) (username : Bytes) : Action :=
  .recordFailure (.listed Bytes Entry) (seconds sec) username

/-- The tracker after one failure of `alice`. -/
def afterOne (cfg : Config) : State :=
  ⟨(recordFailure cfg (.listed Bytes Entry) ∅ (seconds 1) (bytes "alice")).2, seconds 1⟩

/-- `alice` fails, then `bob`, then `alice` again: she is locked. -/
theorem locked_of_failures_alice : ∃ s₂,
    step twoFailures ⟨∅, 0⟩ (failure 1 (bytes "alice")) = some (afterOne twoFailures) ∧
    (system twoFailures).Exec (Spares twoFailures (bytes "alice")) (afterOne twoFailures)
      [failure 2 (bytes "bob"), failure 3 (bytes "alice"), failure 4 (bytes "bob")] s₂ ∧
    (isLocked s₂.failures (seconds 902) (bytes "alice")).1 = true := by
  obtain ⟨s₂, hl, hc⟩ := System.exists_exec_of_runGuarded (S := system twoFailures)
    (G := Spares twoFailures (bytes "alice")) (s := afterOne twoFailures)
    (l := [failure 2 (bytes "bob"), failure 3 (bytes "alice"), failure 4 (bytes "bob")])
    (p := fun s => s.clock ≤ seconds 902) (by decide +kernel)
  refine ⟨s₂, rfl, hl, ?_⟩
  exact locked_of_failures twoFailures rfl (.listed Bytes Entry) ⟨∅, 0⟩ (by decide)
    (show (0 : Int) < seconds 1 by decide) (by decide +kernel) rfl hl
    (fun a ha => by
      simp only [List.mem_cons, List.not_mem_nil, or_false] at ha
      rcases ha with rfl | rfl | rfl <;> trivial)
    (show failureTimes (bytes "alice") _ = [seconds 3] ++ [] by decide +kernel) (by decide)
    (by decide) (by simpa using hc) (by decide)

/-- Three failures lock a username, and the table holds two. -/
def twoEntries : Config := .new { threshold := 3 } 2

/-- `alice` fails three times in her window and is not locked: the failures of two other
    usernames in between have evicted her. -/
theorem evicted_not_locked : ∃ s₂,
    Opens twoEntries (.listed Bytes Entry) ∅ (seconds 1) (bytes "alice") ∧
    step twoEntries ⟨∅, 0⟩ (failure 1 (bytes "alice")) = some (afterOne twoEntries) ∧
    (system twoEntries).Exec System.Always (afterOne twoEntries) [failure 2 (bytes "alice"),
      failure 3 (bytes "bob"), failure 4 (bytes "carol"), failure 5 (bytes "alice")] s₂ ∧
    (isLocked s₂.failures (seconds 5) (bytes "alice")).1 = false := by
  obtain ⟨s₂, hl, hn⟩ := System.exists_exec_of_run (S := system twoEntries)
    (s := afterOne twoEntries) (l := [failure 2 (bytes "alice"), failure 3 (bytes "bob"),
      failure 4 (bytes "carol"), failure 5 (bytes "alice")])
    (p := fun s => !(isLocked s.failures (seconds 5) (bytes "alice")).1) (by decide +kernel)
  exact ⟨s₂, by decide +kernel, rfl, hl, by simpa using hn⟩

end LiteCode.LoginFailureTracker
