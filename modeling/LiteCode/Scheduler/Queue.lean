import LiteCode.Lib.CondVar
import LiteCode.Lib.ListIndex
import LiteCode.Lib.System
import LiteCode.Scheduler.RunOneTask

/-!
# The queue of the scheduler

`JudgeScheduler` of `src/judge/judge_scheduler.h` as a system of threads: any number of `enqueue`
calls, the workers, and the calls of `start` and `shutdown`. One action is one atomic step of one
of them: an access to an atomic flag, a section under `queue_mu_`, a notification, a join. The
wait of a worker is two steps, the predicate and the blocking (`Waiter`).

The vector `workers_` has no lock. A `start` or `shutdown` that goes past its early return while
another one is in progress races with it on `workers_`, which has no meaning: the step leads to a
state that is `undefined` and has no successor. So does the destruction of a thread that was not
joined.

* `step`: the steps, and `Step`: what each of them can do;
* `fifo_hand_over`: accepted tasks are handed to workers in their order, each once, and the queue
  keeps its bound.
-/

namespace LiteCode.JudgeScheduler

/-- `JudgeSchedulerConfig`, and whether there is a database pool. -/
structure SchedulerConfig extends Config where
  maxConcurrent : Int
  maxQueueSize : Int32
  compileTimeoutMs : Int
  hasDb : Bool
  deriving DecidableEq, Repr

/-- The points of `worker_loop` outside the wait. -/
inductive WorkerPc
  /-- About to take the mutex and to evaluate the predicate. -/
  | ready
  /-- In `run_one_task`. -/
  | running (task : JudgeTask)
  | exited
  deriving DecidableEq, Repr

/-- A thread of `worker_loop`. -/
abbrev Worker := Waiter WorkerPc

/-- The points of an `enqueue` call. -/
inductive Call
  /-- `running_` was true. -/
  | checked (task : JudgeTask)
  /-- The task is in the queue, `notify_one` is next. -/
  | pushed
  | returned (ok : Bool)
  deriving DecidableEq, Repr

/-- The points of the `start` or `shutdown` call in progress. -/
inductive Control
  | idle
  /-- `start`: about to set `running_`. -/
  | starting
  /-- `start`: about to clear `workers_`. -/
  | clearing
  /-- `start`: `i` workers are there. -/
  | spawning (i : Nat)
  /-- `shutdown`: about to set `shutting_down_`. -/
  | flagging
  /-- `shutdown`: about to notify all workers. -/
  | notifying
  /-- `shutdown`: `i` workers are joined. -/
  | joining (i : Nat)
  /-- `shutdown`: `workers_` is cleared, about to reset `running_`. -/
  | cleared
  /-- `shutdown`: about to return. -/
  | returning
  deriving DecidableEq, Repr

/-- The scheduler with its threads. -/
structure State where
  running : Bool
  shuttingDown : Bool
  queue : List JudgeTask
  /-- The worker threads, in the order in which they were spawned. -/
  threads : List Worker
  /-- `workers_` holds the threads from this one on. -/
  first : Nat
  control : Control
  calls : List Call
  /-- The tasks that `enqueue` accepted, in order. -/
  accepted : List JudgeTask
  /-- The tasks that workers took, in order, each with its worker. -/
  handed : List (Nat × JudgeTask)
  /-- The program has no meaning any more. -/
  undefined : Bool
  deriving DecidableEq, Repr

/-- A scheduler just constructed. -/
def State.new : State := ⟨false, false, [], [], 0, .idle, [], [], [], false⟩

/-- The atomic steps. -/
inductive Action
  /-- A call of `enqueue`: the load of `running_`. -/
  | enqueue (task : JudgeTask)
  /-- The section of the call `p` under the mutex. -/
  | push (p : Nat)
  /-- The `notify_one` of the call `p`, which wakes the worker `k`, if any. -/
  | notifyOne (p : Nat) (k : Option Nat)
  /-- The worker `w` evaluates its predicate, and takes a task or leaves if it is true. -/
  | check (w : Nat)
  /-- The worker `w` blocks. -/
  | block (w : Nat)
  /-- The `run_one_task` of the worker `w` returns. -/
  | finish (w : Nat)
  /-- A call of `start`, with the outcome of `create_directories`. -/
  | start (dirs : Bool)
  /-- A call of `shutdown`. -/
  | shutdown
  /-- The next step of the `start` or `shutdown` in progress. -/
  | next
  /-- The next worker cannot be spawned. -/
  | spawnFails
  deriving DecidableEq, Repr

/-! ## The steps -/

/-- `enqueue` up to the load of `running_`. -/
def enqueue (s : State) (task : JudgeTask) : State :=
  { s with calls := s.calls ++ [if s.running then .checked task else .returned false] }

/-- `queue_` is full: the section of `enqueue` returns `false`. -/
def full (cfg : SchedulerConfig) (s : State) : Prop :=
  0 < cfg.maxQueueSize ∧ cfg.maxQueueSize ≤ Int32.ofNat s.queue.length

instance (cfg : SchedulerConfig) (s : State) : Decidable (full cfg s) :=
  inferInstanceAs (Decidable (_ ∧ _))

/-- `enqueue` under the mutex. -/
def push (cfg : SchedulerConfig) (s : State) (p : Nat) : Option State :=
  match s.calls[p]? with
  | some (.checked task) =>
    -- the mutex is held by a worker between its predicate and the wait
    if .holding ∈ s.threads then none
    else if full cfg s then some { s with calls := s.calls.set p (.returned false) }
    else some { s with
      queue := s.queue ++ [task]
      calls := s.calls.set p .pushed
      accepted := s.accepted ++ [task] }
  | _ => none

/-- The end of `enqueue`. -/
def notifyOne (s : State) (p : Nat) (k : Option Nat) : Option State :=
  match s.calls[p]? with
  | some .pushed => (Waiter.notifyOne .ready s.threads k).map fun threads =>
      { s with threads, calls := s.calls.set p (.returned true) }
  | _ => none

/-- `worker_loop` from the predicate to the end of the section. The two loads of `shutting_down_`
    are one here: it is never reset, and the queue does not change in between. -/
def check (s : State) (w : Nat) : Option State :=
  if s.threads[w]? = some (.awake .ready) ∧ .holding ∉ s.threads then
    match s.queue with
    | [] =>
      -- the predicate is true exactly if the flag is set, and then the worker leaves
      if s.shuttingDown then some { s with threads := s.threads.set w (.awake .exited) }
      else some { s with threads := s.threads.set w .holding }
    | task :: queue => some { s with
        queue
        threads := s.threads.set w (.awake (.running task))
        handed := s.handed ++ [(w, task)] }
  else none

/-- The blocking of the wait. -/
def block (s : State) (w : Nat) : Option State :=
  if s.threads[w]? = some .holding then some { s with threads := s.threads.set w .blocked }
  else none

/-- The end of an iteration of `worker_loop`. -/
def finish (s : State) (w : Nat) : Option State :=
  match s.threads[w]? with
  | some (.awake (.running _)) => some { s with threads := s.threads.set w (.awake .ready) }
  | _ => none

/-- The checks of `start` on its configuration. -/
def SchedulerConfig.Valid (cfg : SchedulerConfig) : Prop :=
  1 ≤ cfg.maxConcurrent ∧ 1 ≤ cfg.judgeHardTimeoutSeconds ∧ 1 ≤ cfg.compileTimeoutMs ∧
    cfg.hasDb = true

instance (cfg : SchedulerConfig) : Decidable cfg.Valid :=
  inferInstanceAs (Decidable (_ ∧ _ ∧ _ ∧ _))

/-- A call of `start` or `shutdown` goes on to `pc`, unless another one is in progress. -/
def enter (s : State) (pc : Control) : State :=
  if s.control = .idle then { s with control := pc } else { s with undefined := true }

/-- `start` up to its first write. -/
def start (cfg : SchedulerConfig) (s : State) (dirs : Bool) : State :=
  if s.running = true ∨ ¬ cfg.Valid ∨ dirs = false then s else enter s .starting

/-- `shutdown` up to its first write. -/
def shutdown (s : State) : State :=
  if s.shuttingDown = true ∧ s.running = false then s else enter s .flagging

/-- The rest of `start` and of `shutdown`. -/
def next (cfg : SchedulerConfig) (s : State) : Option State :=
  match s.control with
  | .idle => none
  | .starting => some { s with running := true, control := .clearing }
  | .clearing =>
    -- the destructor of a thread that is not joined terminates the process
    if s.first = s.threads.length then some { s with control := .spawning 0 }
    else some { s with undefined := true }
  | .spawning i =>
    -- a spawned worker is at the head of its loop; after the last one `start` returns true
    if i < cfg.maxConcurrent then some { s with
      threads := s.threads ++ [.awake .ready]
      control := .spawning (i + 1) }
    else some { s with control := .idle }
  | .flagging => some { s with shuttingDown := true, control := .notifying }
  | .notifying => some { s with
      threads := Waiter.notifyAll .ready s.threads
      control := .joining 0 }
  | .joining i =>
    -- the join waits for the worker to leave its loop, then the vector is cleared
    match s.threads[s.first + i]? with
    | none => some { s with first := s.threads.length, control := .cleared }
    | some (.awake .exited) => some { s with control := .joining (i + 1) }
    | some _ => none
  | .cleared => some { s with running := false, control := .returning }
  | .returning => some { s with control := .idle }

/-- `start` when a worker cannot be spawned: it calls `shutdown`, which goes on as `running_` is
    set. -/
def spawnFails (cfg : SchedulerConfig) (s : State) : Option State :=
  match s.control with
  | .spawning i => if i < cfg.maxConcurrent then some { s with control := .flagging } else none
  | _ => none

/-- One step of one thread. -/
def step (cfg : SchedulerConfig) (s : State) (a : Action) : Option State :=
  if s.undefined then none else
    match a with
    | .enqueue task => some (enqueue s task)
    | .push p => push cfg s p
    | .notifyOne p k => notifyOne s p k
    | .check w => check s w
    | .block w => block s w
    | .finish w => finish s w
    | .start dirs => some (start cfg s dirs)
    | .shutdown => some (shutdown s)
    | .next => next cfg s
    | .spawnFails => spawnFails cfg s

/-- The scheduler, from its construction on. -/
def system (cfg : SchedulerConfig) : System State Action where
  init s := s = .new
  step := step cfg

/-! ## What a step can do -/

/-- The effect of each step, case by case. -/
inductive Step (cfg : SchedulerConfig) (s : State) : Action → State → Prop
  | refused (task) : s.running = false →
      Step cfg s (.enqueue task) { s with calls := s.calls ++ [.returned false] }
  | admitted (task) : s.running = true →
      Step cfg s (.enqueue task) { s with calls := s.calls ++ [.checked task] }
  | full (p task) : s.calls[p]? = some (.checked task) → full cfg s →
      Step cfg s (.push p) { s with calls := s.calls.set p (.returned false) }
  | pushed (p task) : s.calls[p]? = some (.checked task) → .holding ∉ s.threads → ¬ full cfg s →
      Step cfg s (.push p) { s with
        queue := s.queue ++ [task]
        calls := s.calls.set p .pushed
        accepted := s.accepted ++ [task] }
  | unheard (p k) : s.calls[p]? = some .pushed → .blocked ∉ s.threads →
      Step cfg s (.notifyOne p k) { s with calls := s.calls.set p (.returned true) }
  | woken (p k w) : s.calls[p]? = some .pushed → s.threads[w]? = some .blocked →
      Step cfg s (.notifyOne p k) { s with
        threads := s.threads.set w (.awake .ready)
        calls := s.calls.set p (.returned true) }
  | taken (w task queue) : s.threads[w]? = some (.awake .ready) → s.queue = task :: queue →
      Step cfg s (.check w) { s with
        queue
        threads := s.threads.set w (.awake (.running task))
        handed := s.handed ++ [(w, task)] }
  | left (w) : s.threads[w]? = some (.awake .ready) → s.queue = [] → s.shuttingDown = true →
      Step cfg s (.check w) { s with threads := s.threads.set w (.awake .exited) }
  | held (w) : s.threads[w]? = some (.awake .ready) → s.queue = [] → s.shuttingDown = false →
      Step cfg s (.check w) { s with threads := s.threads.set w .holding }
  | blocked (w) : s.threads[w]? = some .holding →
      Step cfg s (.block w) { s with threads := s.threads.set w .blocked }
  | finished (w task) : s.threads[w]? = some (.awake (.running task)) →
      Step cfg s (.finish w) { s with threads := s.threads.set w (.awake .ready) }
  | ignored (a) : (∃ dirs, a = .start dirs) ∨ a = .shutdown → Step cfg s a s
  | raced (a) : (a = .start true ∧ s.running = false ∧ cfg.Valid) ∨
      (a = .shutdown ∧ (s.shuttingDown = true → s.running = true)) → s.control ≠ .idle →
      Step cfg s a { s with undefined := true }
  | starts : s.running = false → cfg.Valid → s.control = .idle →
      Step cfg s (.start true) { s with control := .starting }
  | shuts : s.control = .idle → Step cfg s .shutdown { s with control := .flagging }
  | storedRunning : s.control = .starting →
      Step cfg s .next { s with running := true, control := .clearing }
  | clearedNone : s.control = .clearing → s.first = s.threads.length →
      Step cfg s .next { s with control := .spawning 0 }
  | terminated : s.control = .clearing → s.first ≠ s.threads.length →
      Step cfg s .next { s with undefined := true }
  | spawned (i) : s.control = .spawning i → i < cfg.maxConcurrent →
      Step cfg s .next { s with
        threads := s.threads ++ [.awake .ready]
        control := .spawning (i + 1) }
  | started (i) : s.control = .spawning i → cfg.maxConcurrent ≤ i →
      Step cfg s .next { s with control := .idle }
  | storedFlag : s.control = .flagging →
      Step cfg s .next { s with shuttingDown := true, control := .notifying }
  | notified : s.control = .notifying →
      Step cfg s .next { s with
        threads := Waiter.notifyAll .ready s.threads
        control := .joining 0 }
  | joined (i) : s.control = .joining i → s.threads[s.first + i]? = some (.awake .exited) →
      Step cfg s .next { s with control := .joining (i + 1) }
  | joinedAll (i) : s.control = .joining i → s.threads.length ≤ s.first + i →
      Step cfg s .next { s with first := s.threads.length, control := .cleared }
  | stopped : s.control = .cleared →
      Step cfg s .next { s with running := false, control := .returning }
  | returned : s.control = .returning → Step cfg s .next { s with control := .idle }
  | failed (i) : s.control = .spawning i → i < cfg.maxConcurrent →
      Step cfg s .spawnFails { s with control := .flagging }

variable {cfg : SchedulerConfig} {s s' : State} {a : Action}

/-- `enqueue` is a step. -/
theorem enqueue_step (task : JudgeTask) : Step cfg s (.enqueue task) (enqueue s task) := by
  rw [enqueue]
  split_ifs with hr
  · exact .admitted task hr
  · exact .refused task (by simpa using hr)

/-- So is the push that follows. -/
theorem push_step {p : Nat} (h : push cfg s p = some s') : Step cfg s (.push p) s' := by
  rw [push] at h
  split at h
  · split_ifs at h with hm hf
    · cases h
      exact .full p _ ‹_› hf
    · cases h
      exact .pushed p _ ‹_› hm hf
  · cases h

theorem notifyOne_step {p : Nat} {k : Option Nat} (h : notifyOne s p k = some s') :
    Step cfg s (.notifyOne p k) s' := by
  rw [notifyOne] at h
  split at h
  · obtain ⟨threads, ht, rfl⟩ := Option.map_eq_some_iff.1 h
    obtain ⟨hb, rfl⟩ | ⟨w, hw, rfl⟩ := Waiter.notifyOne_cases ht
    · exact .unheard p k ‹_› hb
    · exact .woken p k w ‹_› hw
  · cases h

theorem check_step {w : Nat} (h : check s w = some s') : Step cfg s (.check w) s' := by
  rw [check] at h
  split at h
  case isFalse => cases h
  case isTrue hw =>
    split at h
    · split_ifs at h with hf
      · cases h
        exact .left w hw.1 ‹_› hf
      · cases h
        exact .held w hw.1 ‹_› (by simpa using hf)
    · cases h
      exact .taken w _ _ hw.1 ‹_›

theorem start_step {dirs : Bool} : Step cfg s (.start dirs) (start cfg s dirs) := by
  rw [start]
  split_ifs with h
  · exact .ignored _ (.inl ⟨dirs, rfl⟩)
  · simp only [not_or, Bool.not_eq_true, not_not, Bool.not_eq_false] at h
    obtain ⟨hr, hv, rfl⟩ := h
    rw [enter]
    split_ifs with hc
    · exact .starts hr hv hc
    · exact .raced _ (.inl ⟨rfl, hr, hv⟩) hc

theorem shutdown_step : Step cfg s .shutdown (shutdown s) := by
  rw [shutdown]
  split_ifs with h
  · exact .ignored _ (.inr rfl)
  · rw [enter]
    split_ifs with hc
    · exact .shuts hc
    · refine .raced _ (.inr ⟨rfl, fun hf => ?_⟩) hc
      simpa [hf] using h

theorem next_step (h : next cfg s = some s') : Step cfg s .next s' := by
  rw [next] at h
  cases hc : s.control with
  | idle => simp [hc] at h
  | starting =>
    simp only [hc, Option.some.injEq] at h
    exact h ▸ .storedRunning hc
  | clearing =>
    simp only [hc] at h
    split_ifs at h with hf
    · cases h
      exact .clearedNone hc hf
    · cases h
      rw [← hc]
      exact .terminated hc hf
  | spawning i =>
    simp only [hc] at h
    split_ifs at h with hi
    · cases h
      exact .spawned i hc hi
    · cases h
      exact .started i hc (Int.not_lt.1 hi)
  | flagging =>
    simp only [hc, Option.some.injEq] at h
    exact h ▸ .storedFlag hc
  | notifying =>
    simp only [hc, Option.some.injEq] at h
    exact h ▸ .notified hc
  | joining i =>
    simp only [hc] at h
    split at h
    · cases h
      exact .joinedAll i hc (List.getElem?_eq_none_iff.1 ‹_›)
    · cases h
      exact .joined i hc ‹_›
    · cases h
  | cleared =>
    simp only [hc, Option.some.injEq] at h
    exact h ▸ .stopped hc
  | returning =>
    simp only [hc, Option.some.injEq] at h
    exact h ▸ .returned hc

/-- Every step is one of the listed ones. -/
theorem step_step (h : step cfg s a = some s') : s.undefined = false ∧ Step cfg s a s' := by
  unfold step at h
  split_ifs at h with hu
  refine ⟨by simpa using hu, ?_⟩
  cases a with
  | enqueue task =>
    cases h
    exact enqueue_step task
  | push p => exact push_step h
  | notifyOne p k => exact notifyOne_step h
  | check w => exact check_step h
  | block w =>
    simp only [block] at h
    split_ifs at h with hw
    cases h
    exact .blocked w hw
  | finish w =>
    simp only [finish] at h
    split at h
    · cases h
      exact .finished w _ ‹_›
    · cases h
  | start dirs =>
    cases h
    exact start_step
  | shutdown =>
    cases h
    exact shutdown_step
  | next => exact next_step h
  | spawnFails =>
    simp only [spawnFails] at h
    split at h
    · split_ifs at h with hi
      cases h
      exact .failed _ ‹_› hi
    · cases h

/-! ## Hand-over in order -/

/-- The accepted tasks are the ones handed over, followed by those in the queue, which is within
    its bound. -/
structure Fifo (cfg : SchedulerConfig) (s : State) : Prop where
  order : s.accepted = s.handed.map Prod.snd ++ s.queue
  bound : 0 < cfg.maxQueueSize → s.queue.length ≤ cfg.maxQueueSize.toInt

/-- The cast of the size to `int` loses nothing within the bound. -/
theorem length_lt_of_not_full (hf : ¬ full cfg s) (hm : 0 < cfg.maxQueueSize)
    (hb : s.queue.length ≤ cfg.maxQueueSize.toInt) :
    s.queue.length < cfg.maxQueueSize.toInt := by
  have hlt : ¬ cfg.maxQueueSize ≤ Int32.ofNat s.queue.length := fun h => hf ⟨hm, h⟩
  have hmax := cfg.maxQueueSize.toInt_lt
  rw [Int32.le_iff_toInt_le, Int32.toInt_ofNat_of_lt (by omega)] at hlt
  omega

/-- Every step keeps the order. -/
theorem Fifo.step (h : Fifo cfg s) (hs : Step cfg s a s') : Fifo cfg s' := by
  -- only the push and the pop touch the three sequences
  cases hs with
  | pushed p task _ _ hf =>
    refine ⟨?_, fun hm => ?_⟩
    · simp [h.order]
    · have := length_lt_of_not_full hf hm (h.bound hm)
      simp only [List.length_append, List.length_singleton]
      omega
  | taken w task queue _ hq =>
    have hb := h.bound
    refine ⟨?_, fun hm => ?_⟩
    · simp [h.order, hq]
    · have := hb hm
      rw [hq, List.length_cons] at this
      show (queue.length : Int) ≤ _
      omega
  | _ => exact ⟨h.order, h.bound⟩

/-- It holds in every execution. -/
theorem Fifo.of_reach (h : (system cfg).Reach System.Always s) : Fifo cfg s := by
  refine h.invariant (fun s hs => ?_) fun t a t' ht _ hs => ht.step (step_step hs).2
  rw [hs]
  refine ⟨rfl, fun hm => ?_⟩
  exact Int.le_of_lt (Int32.lt_iff_toInt_lt.1 hm)

/-- One worker, and room for one task. -/
def oneWorker : SchedulerConfig := ⟨⟨60, 65536⟩, 1, 1, 10000, true⟩

/-- The steps of a `start` with one worker. -/
def startOne : List Action := .start true :: List.replicate 4 .next

/-- A task is taken by the worker, one waits in the queue, and a third one was refused. -/
def filled : State where
  running := true
  shuttingDown := false
  queue := [oneTask]
  threads := [.awake (.running oneTask)]
  first := 0
  control := .idle
  calls := [.returned true, .returned true, .returned false]
  accepted := [oneTask, oneTask]
  handed := [(0, oneTask)]
  undefined := false

end LiteCode.JudgeScheduler
