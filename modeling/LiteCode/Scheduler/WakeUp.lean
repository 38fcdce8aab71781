import LiteCode.Scheduler.Queue
import LiteCode.Scheduler.WarmPool

/-!
# Waking the threads at shutdown

The `shutdown` of the scheduler and of the pool set `shutting_down_`, notify all waiting threads
and join them. Neither takes the mutex of the waiting threads: the store and the notification may
both fall between the evaluation of a wait predicate, which is false, and the blocking of its
thread. The thread is not woken, and the join waits for it.

This is the only way: when the notification finds no thread in between, all threads that sleep
are woken, see the flag and leave, and no thread blocks any more.

* `Deadlock`: `shutdown` is in a join, a thread is blocked, and no call that would notify it is
  under way;
* `Heard`: the steps without a notification that falls in between;
* `not_deadlock_of_reach`: no such execution comes to a deadlock.
-/

namespace LiteCode

namespace JudgeScheduler

/-- `shutdown` waits in a join while a worker is blocked and no `enqueue` is to notify it. -/
def Deadlock (s : State) : Prop :=
  (∃ i, s.control = .joining i) ∧ .blocked ∈ s.threads ∧ ∀ c ∈ s.calls, ∃ ok, c = .returned ok

/-- When `shutdown` notifies the workers, none stands between a false predicate and the wait. -/
def Heard (s : State) : Action → Prop
  | .next => s.control = .notifying → .holding ∉ s.threads
  | _ => True

instance (s : State) : (a : Action) → Decidable (Heard s a)
  | .next => inferInstanceAs (Decidable (_ → _))
  | .enqueue _ => isTrue trivial
  | .push _ => isTrue trivial
  | .notifyOne _ _ => isTrue trivial
  | .check _ => isTrue trivial
  | .block _ => isTrue trivial
  | .finish _ => isTrue trivial
  | .start _ => isTrue trivial
  | .shutdown => isTrue trivial
  | .spawnFails => isTrue trivial

variable {cfg : SchedulerConfig} {s s' : State} {a : Action}

/-- Once `shutdown` has notified, no worker sleeps. -/
structure Roused (s : State) : Prop where
  flagged : s.control = .notifying ∨ (∃ i, s.control = .joining i) → s.shuttingDown = true
  awake : s.shuttingDown = true → s.control = .notifying ∨ ∀ w ∈ s.threads, ¬ w.Asleep

theorem not_asleep_set {l : List Worker} {k : Nat} {pc : WorkerPc} (h : ∀ w ∈ l, ¬ w.Asleep) :
    ∀ w ∈ l.set k (.awake pc), ¬ w.Asleep := by
  intro w hw
  rcases List.mem_or_eq_of_mem_set hw with hw | rfl
  · exact h w hw
  · exact Waiter.not_asleep_awake

/-- A step of `start` or `shutdown` that leaves the workers alone, and does not come to a point
    where they must have been notified. -/
theorem Roused.quiet (h : Roused s) (ht : s'.threads = s.threads)
    (hf : s'.shuttingDown = s.shuttingDown) (hc : s.control ≠ .notifying)
    (hc' : s'.control ≠ .notifying ∧ ∀ i, s'.control ≠ .joining i) : Roused s' := by
  refine ⟨fun h' => ?_, fun h' => .inr ?_⟩
  · rcases h' with h' | ⟨i, h'⟩
    · exact absurd h' hc'.1
    · exact absurd h' (hc'.2 i)
  · rw [ht]
    exact (h.awake (hf ▸ h')).resolve_left hc

/-- A step that lets a worker go on awake. -/
theorem Roused.worker {w : Nat} {pc : WorkerPc} (h : Roused s)
    (ht : s'.threads = s.threads.set w (.awake pc)) (hf : s'.shuttingDown = s.shuttingDown)
    (hc : s'.control = s.control) : Roused s' := by
  refine ⟨fun h' => ?_, fun h' => ?_⟩
  · rw [hc] at h'
    exact hf.trans (h.flagged h')
  · rw [hc, ht]
    exact (h.awake (hf ▸ h')).imp_right not_asleep_set

/-- Every step whose notification is heard keeps the workers roused. -/
theorem Roused.step (h : Roused s) (hg : Heard s a) (hs : Step cfg s a s') : Roused s' := by
  cases hs with
  | woken => exact h.worker rfl rfl rfl
  | taken => exact h.worker rfl rfl rfl
  | left => exact h.worker rfl rfl rfl
  | finished => exact h.worker rfl rfl rfl
  | held w _ _ hn =>
    -- the predicate was false, so the flag is not set
    refine ⟨h.flagged, fun hf => ?_⟩
    rw [hn] at hf
    cases hf
  | blocked w hw =>
    -- the worker was asleep before, so the notification is still to come
    refine ⟨h.flagged, fun hf => (h.awake hf).imp_right fun hall => ?_⟩
    exact absurd trivial (hall _ (List.mem_of_getElem? hw))
  | starts _ _ hc => exact h.quiet rfl rfl (by simp [hc]) (by simp)
  | shuts hc => exact h.quiet rfl rfl (by simp [hc]) (by simp)
  | storedRunning hc => exact h.quiet rfl rfl (by simp [hc]) (by simp)
  | clearedNone hc => exact h.quiet rfl rfl (by simp [hc]) (by simp)
  | spawned i hc =>
    refine ⟨by simp, fun hf => .inr fun w hw => ?_⟩
    have hall := (h.awake hf).resolve_left (by simp [hc])
    rcases List.mem_append.1 hw with hw | hw
    · exact hall w hw
    · rw [List.mem_singleton.1 hw]
      exact Waiter.not_asleep_awake
  | started i hc => exact h.quiet rfl rfl (by simp [hc]) (by simp)
  | storedFlag => exact ⟨fun _ => rfl, fun _ => .inl rfl⟩
  | notified hc =>
    exact ⟨fun _ => h.flagged (.inl hc), fun _ => .inr (Waiter.not_asleep_notifyAll (hg hc))⟩
  | joined i hc =>
    exact ⟨fun _ => h.flagged (.inr ⟨i, hc⟩), fun hf => (h.awake hf).imp_left (by simp [hc])⟩
  | joinedAll i hc => exact h.quiet rfl rfl (by simp [hc]) (by simp)
  | stopped hc => exact h.quiet rfl rfl (by simp [hc]) (by simp)
  | returned hc => exact h.quiet rfl rfl (by simp [hc]) (by simp)
  | failed i hc => exact h.quiet rfl rfl (by simp [hc]) (by simp)
  | _ => exact ⟨h.flagged, h.awake⟩

/-- It holds in every state that is reached so. -/
theorem Roused.of_reach (h : (system cfg).Reach Heard s) : Roused s := by
  refine h.invariant (fun s hs => ?_) fun t a t' ht hg hs => ht.step hg (step_step hs).2
  subst hs
  exact ⟨by simp [State.new], nofun⟩

/-- Then there is no deadlock. -/
theorem Roused.not_deadlock (h : Roused s) : ¬ Deadlock s := by
  rintro ⟨⟨i, hi⟩, hb, -⟩
  have hall := (h.awake (h.flagged (.inr ⟨i, hi⟩))).resolve_left (by simp [hi])
  exact hall _ hb trivial

/-- The worker blocks after the notification of `shutdown`. -/
def lostWorker : State where
  running := true
  shuttingDown := true
  queue := []
  threads := [.blocked]
  first := 0
  control := .joining 0
  calls := []
  accepted := []
  handed := []
  undefined := false

end JudgeScheduler

namespace WarmPool

/-- `shutdown` waits in the join while the refill thread is blocked and no `release` is to notify
    it. -/
def Deadlock (s : State) : Prop :=
  s.control = .joining ∧ s.refill = some .blocked ∧ s.releasing = 0

/-- The refill thread has found `shutting_down_` not set in its wait predicate, and is not
    blocked. -/
def Window : Refill → Prop
  | .holding => True
  | .awake .sizing => True
  | _ => False

instance : DecidablePred Window
  | .holding => isTrue trivial
  | .blocked => isFalse id
  | .awake pc => decidable_of_iff (pc = .sizing) (by cases pc <;> simp [Window])

/-- When `shutdown` notifies the refill thread, it does not stand between its load of
    `shutting_down_` and the wait. -/
def Heard (s : State) : Action → Prop
  | .next _ => s.control = .notifying → ∀ w ∈ s.refill, ¬ Window w
  | _ => True

instance (s : State) : (a : Action) → Decidable (Heard s a)
  | .next _ => inferInstanceAs (Decidable (_ → _))
  | .acquire => isTrue trivial
  | .take _ => isTrue trivial
  | .fallback _ _ => isTrue trivial
  | .release => isTrue trivial
  | .nudge => isTrue trivial
  | .refill _ => isTrue trivial
  | .start _ => isTrue trivial
  | .shutdown => isTrue trivial
  | .spawnFails => isTrue trivial

/-- The refill thread may need a notification to see `shutting_down_`. -/
def Dormant (w : Refill) : Prop := Window w ∨ w = .blocked

variable {hasClient : Bool} {s s' : State} {a : Action}

/-- Once `shutdown` has notified, the refill thread does not sleep. -/
structure Roused (s : State) : Prop where
  flagged : s.control = .notifying ∨ s.control = .joining → s.shuttingDown = true
  awake : s.shuttingDown = true → s.control = .notifying ∨ ∀ w ∈ s.refill, ¬ Dormant w

theorem not_dormant_wake {w : Refill} (h : ¬ Window w) : ¬ Dormant (w.wake .ready) := by
  cases w with
  | awake pc => exact fun hd => hd.elim h nofun
  | holding => exact absurd trivial h
  | blocked => exact fun hd => hd.elim id nofun

/-- The refill thread comes to need a notification only from a point where it may need one, or
    after it has found `shutting_down_` not set. -/
def Rouses (s s' : State) : Prop :=
  s'.control = s.control ∧ s'.shuttingDown = s.shuttingDown ∧
    ∀ w ∈ s'.refill, Dormant w → s.shuttingDown = false ∨ ∃ v ∈ s.refill, Dormant v

/-- A step of the refill thread to a point outside the window. -/
theorem rouses_goto {t : State} {pc : RefillPc} (h : t.goto pc = some s')
    (hc : t.control = s.control) (hf : t.shuttingDown = s.shuttingDown) (hpc : pc ≠ .sizing) :
    Rouses s s' := by
  cases h
  refine ⟨hc, hf, fun w hw hd => ?_⟩
  cases hw
  rcases hd with hd | hd
  · cases pc <;> first | exact absurd rfl hpc | exact hd.elim
  · cases hd

/-- Every step of the loop is of this kind. -/
theorem refillLoop_rouses {r : Option Bytes} (h : refillLoop hasClient s r = some s') :
    Rouses s s' := by
  rw [refillLoop] at h
  split at h
  case h_1 => cases h
  case h_2 => cases h
  case h_3 hw =>
    -- it blocks, from a point inside the window
    cases h
    exact ⟨rfl, rfl, fun _ _ _ => .inr ⟨_, hw, .inl trivial⟩⟩
  case h_4 pc hw =>
    cases pc with
    | head => exact rouses_goto h rfl rfl (by split <;> nofun)
    | ready =>
      -- the only way into the window: the flag was loaded, and not set
      cases hf : s.shuttingDown with
      | false =>
        cases h
        exact ⟨rfl, rfl, fun _ _ _ => .inl hf⟩
      | true => exact rouses_goto h rfl rfl (by simp [hf])
    | sizing =>
      simp only at h
      split_ifs at h
      · exact rouses_goto h rfl rfl nofun
      · cases h
        exact ⟨rfl, rfl, fun _ _ _ => .inr ⟨_, hw, .inl trivial⟩⟩
    | woken => exact rouses_goto h rfl rfl (by split <;> nofun)
    | gap => exact rouses_goto h rfl rfl (by split <;> nofun)
    | below cur tgt => exact rouses_goto h rfl rfl (by split_ifs <;> nofun)
    | attempt cur tgt i => exact rouses_goto h rfl rfl (by split <;> nofun)
    | creating cur tgt i =>
      simp only at h
      split at h
      · exact rouses_goto h rfl rfl nofun
      · exact rouses_goto h rfl rfl (by split <;> nofun)
    | gaveUp cur tgt => exact rouses_goto h rfl rfl (by split <;> nofun)
    | exited => cases h

/-- The steps of the refill thread keep the state roused. -/
theorem Roused.rouses (h : Roused s) (hs : Rouses s s') : Roused s' := by
  obtain ⟨hc, hf, hw⟩ := hs
  refine ⟨fun h' => ?_, fun h' => ?_⟩
  · rw [hc] at h'
    exact hf.trans (h.flagged h')
  · rw [hf] at h'
    rw [hc]
    refine (h.awake h').imp_right fun hall w hm hd => ?_
    rcases hw w hm hd with hn | ⟨v, hv, hd⟩
    · rw [h'] at hn
      cases hn
    · exact hall v hv hd

/-- A notification rouses. -/
theorem rouses_notifyAll (hc : s'.control = s.control) (hf : s'.shuttingDown = s.shuttingDown)
    (hr : s'.refill = s.notifyAll.refill) : Rouses s s' := by
  refine ⟨hc, hf, fun w hw hd => .inr ?_⟩
  rw [hr] at hw
  obtain ⟨v, hv, rfl⟩ := Option.map_eq_some_iff.1 hw
  refine ⟨v, hv, .inl ?_⟩
  by_contra hn
  exact not_dormant_wake hn hd

/-- A step that leaves the refill thread alone and goes to a point of `start` or `shutdown`
    where the flag does not matter. -/
theorem Roused.quiet (h : Roused s) (hr : s'.refill = s.refill)
    (hf : s'.shuttingDown = s.shuttingDown) (hc : s.control ≠ .notifying)
    (hc' : s'.control ≠ .notifying ∧ s'.control ≠ .joining) : Roused s' := by
  refine ⟨fun h' => (h'.elim hc'.1 hc'.2).elim, fun h' => .inr ?_⟩
  rw [hr]
  exact (h.awake (hf ▸ h')).resolve_left hc

/-- So do those of `start` and `shutdown`, if the notification is heard. -/
theorem Roused.next {r : Option Bytes} (h : Roused s) (hg : Heard s (.next r))
    (hs : next s r = some s') : Roused s' := by
  rw [WarmPool.next] at hs
  cases hc : s.control with
  | idle => simp [hc] at hs
  | precreating i created =>
    simp only [hc] at hs
    split at hs
    · split at hs <;> cases hs <;> exact h.quiet rfl rfl (by simp [hc]) (by simp)
    · cases hs
      exact h.quiet rfl rfl (by simp [hc]) (by constructor <;> (dsimp only; split <;> nofun))
  | starting created =>
    simp only [hc, Option.some.injEq] at hs
    subst hs
    exact h.quiet rfl rfl (by simp [hc]) (by simp)
  | spawning created =>
    simp only [hc] at hs
    split at hs
    · cases hs
      exact h.quiet rfl rfl (by simp [hc]) (by simp)
    · -- a new refill thread is at the head of its loop
      cases hs
      refine ⟨fun h' => ?_, fun _ => .inr fun w hw hd => ?_⟩
      · dsimp only at h'
        split at h' <;> simp at h'
      · cases hw
        exact hd.elim id nofun
  | nudging =>
    simp only [hc, Option.some.injEq] at hs
    subst hs
    have hn : Roused s.notifyAll := h.rouses (rouses_notifyAll rfl rfl rfl)
    exact hn.quiet rfl rfl (by simp [State.notifyAll, hc]) (by simp)
  | flagging =>
    simp only [hc, Option.some.injEq] at hs
    subst hs
    exact ⟨fun _ => rfl, fun _ => .inl rfl⟩
  | notifying =>
    simp only [hc, Option.some.injEq] at hs
    subst hs
    refine ⟨fun _ => h.flagged (.inl hc), fun _ => .inr fun w hw => ?_⟩
    obtain ⟨v, hv, rfl⟩ := Option.map_eq_some_iff.1 hw
    exact not_dormant_wake (hg hc v hv)
  | joining =>
    simp only [hc] at hs
    split at hs
    · cases hs
      exact h.quiet rfl rfl (by simp [hc]) (by simp)
    · cases hs
      exact ⟨by simp, fun _ => .inr nofun⟩
    · cases hs
  | draining =>
    simp only [hc, Option.some.injEq] at hs
    subst hs
    exact h.quiet rfl rfl (by simp [hc]) (by simp)
  | stopping =>
    simp only [hc, Option.some.injEq] at hs
    subst hs
    exact h.quiet rfl rfl (by simp [hc]) (by simp)

/-- A call of `start` or `shutdown` begins. -/
theorem Roused.enter {pc : Control} (h : Roused s) (hpc : pc ≠ .notifying ∧ pc ≠ .joining) :
    Roused (enter s pc) := by
  rw [WarmPool.enter]
  split_ifs with hc
  · exact h.quiet rfl rfl (by simp [hc]) hpc
  · exact ⟨h.flagged, h.awake⟩

/-- Every step whose notification is heard keeps the refill thread roused. -/
theorem Roused.step (h : Roused s) (hg : Heard s a) (hs : step hasClient s a = some s') :
    Roused s' := by
  unfold WarmPool.step at hs
  split_ifs at hs
  cases a with
  | acquire =>
    cases hs
    exact ⟨h.flagged, h.awake⟩
  | take p =>
    simp only [take] at hs
    split at hs
    · split at hs <;> cases hs <;> exact ⟨h.flagged, h.awake⟩
    · cases hs
  | fallback p r =>
    simp only [fallback] at hs
    split at hs
    · cases hs
      exact ⟨h.flagged, h.awake⟩
    · cases hs
  | release =>
    cases hs
    rw [release]
    split_ifs <;> exact ⟨h.flagged, h.awake⟩
  | nudge =>
    simp only [nudge] at hs
    split_ifs at hs
    cases hs
    exact h.rouses (rouses_notifyAll rfl rfl rfl)
  | refill r => exact h.rouses (refillLoop_rouses hs)
  | start cfg =>
    cases hs
    rw [start]
    split
    · exact h
    · dsimp only
      split_ifs
      · exact ⟨h.flagged, h.awake⟩
      · exact Roused.enter ⟨h.flagged, h.awake⟩ ⟨nofun, nofun⟩
      · exact ⟨h.flagged, h.awake⟩
  | shutdown =>
    cases hs
    exact h.enter ⟨nofun, nofun⟩
  | next r => exact h.next hg hs
  | spawnFails =>
    simp only [spawnFails] at hs
    split at hs
    · cases hs
      rename_i hc
      exact h.quiet rfl rfl (by simp [hc]) (by simp)
    · cases hs

/-- It holds in every state that is reached so. -/
theorem Roused.of_reach (h : (system hasClient).Reach Heard s) : Roused s := by
  refine h.invariant (fun s hs => ?_) fun t a t' ht hg hs => ht.step hg hs
  subst hs
  exact ⟨by simp [State.new], nofun⟩

/-- Then there is no deadlock. -/
theorem Roused.not_deadlock (h : Roused s) : ¬ Deadlock s := by
  rintro ⟨hc, hb, -⟩
  have hall := (h.awake (h.flagged (.inr hc))).resolve_left (by simp [hc])
  exact hall _ hb (.inr rfl)

/-- The state of a pool with one container in the join of `shutdown`, with the refill thread at
    `w`. -/
def inJoin (w : Refill) : State where
  running := true
  shuttingDown := true
  cfg := ⟨1, 2⟩
  target := 1
  idle := [bytes "c1"]
  refill := some w
  control := .joining
  acquires := []
  releasing := 0
  pooled := [bytes "c1"]
  removed := []
  undefined := false

/-- The steps of a `start` with one container, and of the refill thread up to `n` of its own. -/
def startAndRefill (n : Nat) : List Action :=
  .start ⟨1, 2⟩ :: List.replicate 4 (.next (some (bytes "c1"))) ++ List.replicate n (.refill none)

end WarmPool

/-- In no execution of the scheduler or of the pool where the notification of `shutdown` finds no
    thread between a false wait predicate and the wait does `shutdown` come to a deadlock. -/
theorem not_deadlock_of_reach (cfg : JudgeScheduler.SchedulerConfig) (hasClient : Bool) :
    (∀ s, (JudgeScheduler.system cfg).Reach JudgeScheduler.Heard s →
      ¬ JudgeScheduler.Deadlock s) ∧
    ∀ s, (WarmPool.system hasClient).Reach WarmPool.Heard s → ¬ WarmPool.Deadlock s :=
  ⟨fun _ h => (JudgeScheduler.Roused.of_reach h).not_deadlock,
    fun _ h => (WarmPool.Roused.of_reach h).not_deadlock⟩

/-- The threads are blocked when `shutdown` sets the flag, and are woken: it does not deadlock in
    the join. -/
theorem not_deadlock_of_reach_woken :
    (JudgeScheduler.lostWorker.control = .joining 0 ∧
      ¬ JudgeScheduler.Deadlock { JudgeScheduler.lostWorker with threads := [.awake .ready] }) ∧
    (WarmPool.inJoin (.awake .ready)).control = .joining ∧
      ¬ WarmPool.Deadlock (WarmPool.inJoin (.awake .ready)) := by
  refine ⟨⟨rfl, (not_deadlock_of_reach JudgeScheduler.oneWorker true).1 _ ?_⟩, rfl,
    (not_deadlock_of_reach JudgeScheduler.oneWorker true).2 _ ?_⟩
  · exact System.reach_of_runGuarded
      (l := JudgeScheduler.startOne ++
        ([.check 0, .block 0, .shutdown, .next, .next] : List JudgeScheduler.Action))
      (.init rfl) (by decide +kernel)
  · exact System.reach_of_runGuarded
      (l := WarmPool.startAndRefill 4 ++
        ([.shutdown, .next none, .next none] : List WarmPool.Action))
      (.init rfl) (by decide +kernel)

/-- The store and the notification of `shutdown` fall between the false predicate and the wait:
    the worker, and likewise the refill thread, blocks for good. -/
theorem lost_wake_up :
    ((JudgeScheduler.system JudgeScheduler.oneWorker).Reach System.Always
      JudgeScheduler.lostWorker ∧ JudgeScheduler.Deadlock JudgeScheduler.lostWorker) ∧
    (WarmPool.system true).Reach System.Always (WarmPool.inJoin .blocked) ∧
      WarmPool.Deadlock (WarmPool.inJoin .blocked) := by
  refine ⟨⟨?_, ⟨0, rfl⟩, by decide, nofun⟩, ?_, rfl, rfl, rfl⟩
  · exact System.reach_of_run
      (l := JudgeScheduler.startOne ++
        ([.check 0, .shutdown, .next, .next, .block 0] : List JudgeScheduler.Action))
      (.init rfl) (by decide +kernel)
  · exact System.reach_of_run
      (l := WarmPool.startAndRefill 3 ++
        ([.shutdown, .next none, .next none, .refill none] : List WarmPool.Action))
      (.init rfl) (by decide +kernel)

end LiteCode
