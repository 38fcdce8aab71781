import Mathlib.Logic.Function.Basic
import LiteCode.Routes.CreateSubmission
import LiteCode.Scheduler.Queue

/-!
# Where a pending submission is

The handlers of `POST /api/v1/submissions`, the scheduler and its workers as one system, with the
table of the submissions. A handler stores its row before it calls `enqueue`; a worker that has
taken a task claims the row, and stores the verdict at the end. Every statement may fail.

A row that is pending should be on its way: in the queue, or in the hands of a handler that has not
called `enqueue` yet, or of a worker that has not claimed it yet. There are two more ways for it to
be pending, and no other one (`pending_placed`): `enqueue` has refused its task, and the handler has
answered 503 and left the row as it is; or the statement of the worker has failed, and the worker
has dropped the task.
-/

namespace LiteCode.SubmissionRoutes

open SubmissionRepo JudgeScheduler

/-- The points of `create_submission_handler` after the row is stored. -/
inductive Handler
  /-- The row is stored; the test cases are to be read, and `enqueue` is to be called. -/
  | inserted (req : Request) (limits : Int × Int) (id : Fin (2 ^ 31))
  /-- In the call `p` of `enqueue`, or after it. -/
  | enqueuing (id : Fin (2 ^ 31)) (p : Nat)

/-- How far `run_one_task` is. -/
inductive Phase
  | popped
  | claimed
  | over
  deriving DecidableEq, Repr

/-- The state of the service. -/
structure World where
  sched : State
  table : Table
  handlers : List Handler
  /-- The phase of each worker that has a task. -/
  phases : Nat → Phase
  /-- The submissions whose claim failed with an error of the database. -/
  failures : List Nat

/-- The steps. -/
inductive WorldAction
  /-- A handler up to storing the row, with the outcomes of its read and of the statement. -/
  | insert (req : Request) (stored : Stored) (find : Except Bytes Unit) (now : Nat)
      (db : Except Bytes Bool)
  /-- The handler `h` reads the test cases and calls `enqueue`. -/
  | enqueue (h : Nat) (stored : Stored) (reads : Reads)
  /-- Another step of the scheduler. -/
  | sched (a : Action)
  /-- The first statement of the worker `w` for its task. -/
  | claim (w : Nat) (now : Nat) (db : Sql)
  /-- The call of `mark_finished` of the worker `w` for a row that it has claimed. -/
  | store (w : Nat) (now : Nat) (db : Sql) (status : Bytes) (time mem : Option Int) (err : Bytes)
  /-- The `run_one_task` of the worker `w` returns. -/
  | finish (w : Nat)

namespace World

/-- The handler up to storing the row. -/
def insert (s : World) (req : Request) (stored : Stored) (find : Except Bytes Unit) (now : Nat)
    (db : Except Bytes Bool) : Option World :=
  match find, stored.problem with
  | .ok (), some limits =>
    match create s.table now db req.userId req.problemId req.language req.code with
    | (.ok (some id), t) =>
      -- the column is an `INT`: without an id left the statement does not succeed
      if h : id < 2 ^ 31 then
        some { s with table := t, handlers := s.handlers ++ [.inserted req limits ⟨id, h⟩] }
      else none
    | (_, t) => some { s with table := t }
  | _, _ => some s

/-- The task of the handler `h`, and its call of `enqueue`. -/
def enqueue (s : World) (h : Nat) (stored : Stored) (reads : Reads) : Option World :=
  match s.handlers[h]? with
  | some (.inserted req limits id) => some { s with
      sched := JudgeScheduler.enqueue s.sched (buildTask req limits stored reads id)
      handlers := s.handlers.set h (.enqueuing id s.sched.calls.length) }
  | _ => none

/-- The worker that takes a task is at its begin. -/
def setPhase (s : World) (w : Nat) (phase : Phase) : World :=
  { s with phases := Function.update s.phases w phase }

/-- A step of the scheduler that is not a call of `enqueue` or the end of a task. -/
def schedule (cfg : SchedulerConfig) (s : World) : Action → Option World
  | .enqueue _ => none
  | .finish _ => none
  | .check w =>
    (step cfg s.sched (.check w)).map fun sched => { s with sched }.setPhase w .popped
  | a => (step cfg s.sched a).map fun sched => { s with sched }

/-- `mark_running`, or `finish_se` without a docker client. -/
def claim (hasClient : Bool) (s : World) (w now : Nat) (db : Sql) : Option World :=
  match s.sched.threads[w]?, s.phases w with
  | some (.awake (.running task)), .popped =>
    let id := task.submissionId
    let dropped := { s with failures := s.failures ++ [id.val] }.setPhase w .over
    some (if hasClient then
      match markRunning s.table db id with
      | (.ok true, t) => { s with table := t }.setPhase w .claimed
      | (.ok false, t) => { s with table := t }.setPhase w .over
      | (.error _, t) => { dropped with table := t }
    else
      match markFinished s.table now db id (bytes "se") none none
        (bytes "no docker client configured") with
      | (.ok _, t) => { s with table := t }.setPhase w .over
      | (.error _, t) => { dropped with table := t })
  | _, _ => none

/-- The end of a claimed task. -/
def store (s : World) (w now : Nat) (db : Sql) (status : Bytes) (time mem : Option Int)
    (err : Bytes) : Option World :=
  match s.sched.threads[w]?, s.phases w with
  | some (.awake (.running task)), .claimed =>
    some ({ s with table := (markFinished s.table now db task.submissionId status time mem err).2
      }.setPhase w .over)
  | _, _ => none

/-- `run_one_task` returns. -/
def finish (cfg : SchedulerConfig) (s : World) (w : Nat) : Option World :=
  if s.phases w = .over then (step cfg s.sched (.finish w)).map fun sched => { s with sched }
  else none

/-- One step of one thread. -/
def step (cfg : SchedulerConfig) (hasClient : Bool) (s : World) : WorldAction → Option World
  | .insert req stored find now db => s.insert req stored find now db
  | .enqueue h stored reads => s.enqueue h stored reads
  | .sched a => s.schedule cfg a
  | .claim w now db => s.claim hasClient w now db
  | .store w now db status time mem err => s.store w now db status time mem err
  | .finish w => s.finish cfg w

end World

/-- The service, from its start on, with any table that has no pending row. -/
def service (cfg : SchedulerConfig) (hasClient : Bool) : System World WorldAction where
  init s := s.sched = .new ∧ s.handlers = [] ∧ s.failures = [] ∧
    ∀ id r, s.table.row id = some r → r.status ≠ .pending
  step := World.step cfg hasClient

/-- Where the submission `id` is. -/
inductive Place (s : World) (id : Nat) : Prop
  | queued (task : JudgeTask) : task ∈ s.sched.queue → task.submissionId = id → Place s id
  /-- A handler has not called `enqueue` yet. -/
  | held (h : Nat) (req limits i) : s.handlers[h]? = some (.inserted req limits i) → i = id →
      Place s id
  /-- A handler is in `enqueue`, which has neither pushed nor refused the task. -/
  | entering (h p : Nat) (i task) : s.handlers[h]? = some (.enqueuing i p) → i = id →
      s.sched.calls[p]? = some (.checked task) → Place s id
  /-- A worker has taken the task, and made no statement yet. -/
  | popped (w : Nat) (task) : s.sched.threads[w]? = some (.awake (.running task)) →
      s.phases w = .popped → task.submissionId = id → Place s id
  /-- `enqueue` has refused the task. -/
  | refused (h p : Nat) (i) : s.handlers[h]? = some (.enqueuing i p) → i = id →
      s.sched.calls[p]? = some (.returned false) → Place s id
  /-- The statement of the worker has failed. -/
  | failed : id ∈ s.failures → Place s id

/-! ## Pending rows -/

/-- The row `id` is pending. -/
def Pending (t : Table) (id : Nat) : Prop := ∃ r, t.row id = some r ∧ r.status = .pending

instance (t : Table) (id : Nat) : Decidable (Pending t id) :=
  decidable_of_iff ((t.row id).any (·.status == .pending) = true)
    (by simp [Pending, Option.any_eq_true])

section Rows

variable {t : Table} {now id id' : Nat}

/-- `create` makes one row pending, and answers its id. -/
theorem pending_create {db : Except Bytes Bool} {userId problemId : Int} {language code : Bytes}
    (h : Pending (create t now db userId problemId language code).2 id) :
    Pending t id ∨ (create t now db userId problemId language code).1 = .ok (some id) := by
  obtain ⟨r, hr, hp⟩ := h
  unfold create at hr ⊢
  split_ifs at hr ⊢
  · exact .inl ⟨r, hr, hp⟩
  · exact .inl ⟨r, hr, hp⟩
  · exact .inl ⟨r, hr, hp⟩
  · exact .inl ⟨r, hr, hp⟩
  · rcases db with e | b
    · exact .inl ⟨r, hr, hp⟩
    cases b with
    | false => exact .inl ⟨r, hr, hp⟩
    | true =>
      simp only [Table.row, List.find?_append] at hr
      cases hf : t.rows.find? (·.id == id) with
      | some r' =>
        rw [hf] at hr
        cases hr
        exact .inl ⟨r, hf, hp⟩
      | none =>
        rw [hf, Option.none_or, List.find?_cons] at hr
        split at hr
        · next hid => exact .inr (by simpa using hid)
        · cases hr

/-- `mark_running` leaves its row pending only if it fails. -/
theorem pending_markRunning {db : Sql} (h : Pending (markRunning t db id').2 id) :
    Pending t id ∧ (id = id' → ∃ e, (markRunning t db id').1 = .error e) := by
  cases db with
  | error e => exact ⟨h, fun _ => ⟨_, rfl⟩⟩
  | ok u =>
    obtain ⟨r, hr, hp⟩ := h
    rw [(markRunning_spec t id').2 id] at hr
    obtain ⟨r', hr', rfl⟩ := Option.map_eq_some_iff.1 hr
    split_ifs at hp with hc
    · cases hp
    · refine ⟨⟨r', hr', hp⟩, fun he => absurd ⟨he, hp⟩ hc⟩

/-- `mark_finished` leaves its row pending only if it fails. -/
theorem pending_markFinished {db : Sql} {status err : Bytes} {time mem : Option Int}
    (h : Pending (markFinished t now db id' status time mem err).2 id) :
    Pending t id ∧
      (id = id' → ∃ e, (markFinished t now db id' status time mem err).1 = .error e) := by
  rcases markFinished_cases t now db id' status time mem err with ⟨e, he⟩ | ⟨st, ht, rfl, rfl⟩
  · rw [he] at h ⊢
    exact ⟨h, fun _ => ⟨e, rfl⟩⟩
  · obtain ⟨r, hr, hp⟩ := h
    rw [(markFinished_spec t now id' st time mem err ht).2 id] at hr
    obtain ⟨r', hr', rfl⟩ := Option.map_eq_some_iff.1 hr
    split_ifs at hp with hc
    · rw [setFinished_status] at hp
      rw [hp] at ht
      cases ht
    · exact ⟨⟨r', hr', hp⟩, fun he => absurd ⟨he, .inl hp⟩ hc⟩

end Rows

/-! ## Steps of the scheduler -/

section Scheduler

variable {cfg : SchedulerConfig} {s s' : State} {a : Action} {p w : Nat} {task : JudgeTask}

/-- A call that has read `running_` stays so, or pushes its task, or is refused. -/
theorem checked_step (hs : Step cfg s a s') (h : s.calls[p]? = some (.checked task)) :
    s'.calls[p]? = some (.checked task) ∨ s'.calls[p]? = some (.returned false) ∨
      task ∈ s'.queue := by
  cases hs with
  | refused => exact .inl (getElem?_append_of_some h)
  | admitted => exact .inl (getElem?_append_of_some h)
  | full k task' hk =>
    by_cases hkp : k = p
    · subst hkp
      exact .inr (.inl (getElem?_set_of_some hk))
    · exact .inl (by rw [← h]; exact List.getElem?_set_ne hkp)
  | pushed k task' hk =>
    by_cases hkp : k = p
    · subst hkp
      rw [h, Option.some_inj, Call.checked.injEq] at hk
      exact .inr (.inr (by simp [hk]))
    · exact .inl (by rw [← h]; exact List.getElem?_set_ne hkp)
  | unheard k _ hk => exact .inl (getElem?_set_of_ne hk h nofun)
  | woken k _ _ hk => exact .inl (getElem?_set_of_ne hk h nofun)
  | _ => exact .inl h

/-- A call of `enqueue` has read `running_`, or is refused at once. -/
theorem calls_enqueue (s : State) (task : JudgeTask) :
    (enqueue s task).calls[s.calls.length]? = some (.checked task) ∨
      (enqueue s task).calls[s.calls.length]? = some (.returned false) := by
  cases hr : s.running with
  | true => exact .inl (by simp [enqueue, hr])
  | false => exact .inr (by simp [enqueue, hr])

/-- A refused call stays refused. -/
theorem returned_step (hs : Step cfg s a s') (h : s.calls[p]? = some (.returned false)) :
    s'.calls[p]? = some (.returned false) := by
  cases hs with
  | refused => exact getElem?_append_of_some h
  | admitted => exact getElem?_append_of_some h
  | full k _ hk => exact getElem?_set_of_ne hk h nofun
  | pushed k _ hk => exact getElem?_set_of_ne hk h nofun
  | unheard k _ hk => exact getElem?_set_of_ne hk h nofun
  | woken k _ _ hk => exact getElem?_set_of_ne hk h nofun
  | _ => exact h

/-- A step other than a call of `enqueue` makes no new call. -/
theorem checked_of_step (hs : Step cfg s a s') (ha : ∀ task, a ≠ .enqueue task) :
    s'.calls.length = s.calls.length ∧ ∀ (p : Nat) (task : JudgeTask),
      s'.calls[p]? = some (.checked task) → s.calls[p]? = some (.checked task) := by
  cases hs with
  | refused task => exact absurd rfl (ha task)
  | admitted task => exact absurd rfl (ha task)
  | full =>
    exact ⟨List.length_set, fun p task h => (getElem?_set_cases h).resolve_left nofun |>.2⟩
  | pushed =>
    exact ⟨List.length_set, fun p task h => (getElem?_set_cases h).resolve_left nofun |>.2⟩
  | unheard =>
    exact ⟨List.length_set, fun p task h => (getElem?_set_cases h).resolve_left nofun |>.2⟩
  | woken =>
    exact ⟨List.length_set, fun p task h => (getElem?_set_cases h).resolve_left nofun |>.2⟩
  | _ => exact ⟨rfl, fun _ _ h => h⟩

/-- A task in the queue stays there, or is taken by a worker. -/
theorem queued_step (hs : Step cfg s a s') (h : task ∈ s.queue) :
    task ∈ s'.queue ∨ ∃ w, a = .check w ∧ s'.threads[w]? = some (.awake (.running task)) := by
  cases hs with
  | pushed => exact .inl (List.mem_append_left _ h)
  | taken w task' queue hw hq =>
    rw [hq] at h
    rcases List.mem_cons.1 h with rfl | h
    · exact .inr ⟨w, rfl, getElem?_set_of_some hw⟩
    · exact .inl h
  | _ => exact .inl h

/-- A worker with a task is not at the check of the queue. -/
theorem not_running_of_check (hs : Step cfg s (.check w) s') :
    s.threads[w]? ≠ some (.awake (.running task)) := by
  intro h
  have hready : s.threads[w]? ≠ some (.awake .ready) := by
    rw [h]
    rintro ⟨⟩
  cases hs with
  | taken _ _ _ hw => exact hready hw
  | left _ hw => exact hready hw
  | held _ hw => exact hready hw
  | ignored _ hb =>
    obtain ⟨_, hb⟩ | hb := hb
    all_goals cases hb
  | raced _ hb =>
    obtain ⟨hb, -⟩ | ⟨hb, -⟩ := hb
    all_goals cases hb

/-- A worker with a task goes on with it, until it has finished it. -/
theorem running_step (hs : Step cfg s a s') (h : s.threads[w]? = some (.awake (.running task)))
    (ha : a ≠ .finish w) : s'.threads[w]? = some (.awake (.running task)) := by
  cases hs with
  | woken _ _ v _ hv => exact getElem?_set_of_ne hv h (by rintro ⟨⟩)
  | taken v _ _ hv => exact getElem?_set_of_ne hv h (by rintro ⟨⟩)
  | left v hv => exact getElem?_set_of_ne hv h (by rintro ⟨⟩)
  | held v hv => exact getElem?_set_of_ne hv h (by rintro ⟨⟩)
  | blocked v hv => exact getElem?_set_of_ne hv h (by rintro ⟨⟩)
  | finished v _ hv =>
    rw [← h]
    refine List.getElem?_set_ne ?_
    rintro rfl
    exact ha rfl
  | spawned => exact getElem?_append_of_some h
  | notified => simp [Waiter.notifyAll, h, Waiter.wake]
  | _ => exact h

end Scheduler

/-! ## Every pending row has a place -/

variable {cfg : SchedulerConfig} {hasClient : Bool} {s s' : World} {a : WorldAction} {id : Nat}

/-- A call of a handler is for its own submission. -/
def Linked (s : World) : Prop :=
  ∀ (h : Nat) i p, s.handlers[h]? = some (.enqueuing i p) → p < s.sched.calls.length ∧
    ∀ task, s.sched.calls[p]? = some (.checked task) → task.submissionId = i

/-- Pending rows have a place. -/
structure Kept (s : World) : Prop where
  placed : ∀ id, Pending s.table id → Place s id
  linked : Linked s

/-- A step of the scheduler moves a submission from place to place. -/
theorem Place.sched {sched : State} {b : Action} (h : Place s id) (hl : Linked s)
    (hs : Step cfg s.sched b sched) (hb : ∀ w, b = .finish w → s.phases w ≠ .popped)
    {phases : Nat → Phase} (hphase : ∀ w, b ≠ .check w → phases w = s.phases w)
    (hpop : ∀ w, b = .check w → phases w = .popped) :
    Place { s with sched, phases } id := by
  cases h with
  | queued task ht hid =>
    rcases queued_step hs ht with ht | ⟨w, rfl, hw⟩
    · exact .queued task ht hid
    · exact .popped w task hw (hpop w rfl) hid
  | held h req limits i hh hid => exact .held h req limits i hh hid
  | entering h p i task hh hid hp =>
    rcases checked_step hs hp with hp' | hp' | ht
    · exact .entering h p i task hh hid hp'
    · exact .refused h p i hh hid hp'
    · exact .queued task ht (by rw [(hl h i p hh).2 task hp]; exact hid)
  | popped w task hw hph hid =>
    have hne : b ≠ .check w := by
      rintro rfl
      exact not_running_of_check hs hw
    exact .popped w task (running_step hs hw fun he => hb w he hph)
      ((hphase w hne).trans hph) hid
  | refused h p i hh hid hp => exact .refused h p i hh hid (returned_step hs hp)
  | failed hf => exact .failed hf

theorem Linked.sched {sched : State} {b : Action} (hl : Linked s) (hs : Step cfg s.sched b sched)
    (hb : ∀ task, b ≠ .enqueue task) (phases : Nat → Phase) :
    Linked { s with sched, phases } := by
  obtain ⟨hlen, hcalls⟩ := checked_of_step hs hb
  intro h i p hh
  obtain ⟨hp, htask⟩ := hl h i p hh
  exact ⟨hlen ▸ hp, fun task ht => htask task (hcalls p task ht)⟩

theorem Kept.schedule {b : Action} (h : Kept s) (hs : s.schedule cfg b = some s') : Kept s' := by
  cases b with
  | enqueue task => cases hs
  | finish w => cases hs
  | check w =>
    obtain ⟨sched, hb, rfl⟩ := Option.map_eq_some_iff.1 hs
    have hstep := (step_step hb).2
    refine ⟨fun id hp => ?_, h.linked.sched hstep (by rintro _ ⟨⟩) _⟩
    refine (h.placed id hp).sched h.linked hstep nofun (fun v hv => ?_) fun v hv => ?_
    · refine Function.update_of_ne ?_ ..
      rintro rfl
      exact hv rfl
    · cases hv
      exact Function.update_self ..
  | _ =>
    -- the phases stay as they are
    obtain ⟨sched, hb, rfl⟩ := Option.map_eq_some_iff.1 hs
    have hstep := (step_step hb).2
    exact ⟨fun id hp => (h.placed id hp).sched h.linked hstep nofun (fun _ _ => rfl) nofun,
      h.linked.sched hstep (by rintro _ ⟨⟩) s.phases⟩

theorem Kept.finish {w : Nat} (h : Kept s) (hs : s.finish cfg w = some s') : Kept s' := by
  rw [World.finish] at hs
  split_ifs at hs with hover
  obtain ⟨sched, hb, rfl⟩ := Option.map_eq_some_iff.1 hs
  have hstep := (step_step hb).2
  refine ⟨fun id hp => ?_, h.linked.sched hstep (by rintro _ ⟨⟩) s.phases⟩
  refine (h.placed id hp).sched h.linked hstep (fun v hv => ?_) (fun _ _ => rfl) nofun
  cases hv
  rw [hover]
  nofun

/-- The old places, with more handlers. -/
theorem Place.append (h : Place s id) (t : Table) (l : List Handler) :
    Place { s with table := t, handlers := s.handlers ++ l } id := by
  cases h with
  | queued task ht hid => exact .queued task ht hid
  | held k req limits i hh hid => exact .held k req limits i (getElem?_append_of_some hh) hid
  | entering k p i task hh hid hp =>
    exact .entering k p i task (getElem?_append_of_some hh) hid hp
  | popped w task hw hph hid => exact .popped w task hw hph hid
  | refused k p i hh hid hp => exact .refused k p i (getElem?_append_of_some hh) hid hp
  | failed hf => exact .failed hf

theorem Linked.append (h : Linked s) (t : Table) (req : Request) (limits : Int × Int)
    (i : Fin (2 ^ 31)) :
    Linked { s with table := t, handlers := s.handlers ++ [.inserted req limits i] } := by
  intro k j p hk
  rcases getElem?_concat_cases hk with hk | ⟨-, hk⟩
  · exact h k j p hk
  · cases hk

/-- The row of a handler that stores it is pending, and the handler has it. -/
theorem Kept.insert {req : Request} {stored : Stored} {find : Except Bytes Unit} {now : Nat}
    {db : Except Bytes Bool} (h : Kept s) (hs : s.insert req stored find now db = some s') :
    Kept s' := by
  have hpend := fun id => @pending_create s.table now id db req.userId req.problemId req.language
    req.code
  unfold World.insert at hs
  split at hs
  · next limits _ =>
    split at hs
    · next id t hc =>
      rw [hc] at hpend
      split_ifs at hs with hid
      cases hs
      refine ⟨fun id' hp => ?_, h.linked.append t req limits ⟨id, hid⟩⟩
      rcases hpend id' hp with hp' | he
      · exact (h.placed id' hp').append t _
      · cases he
        exact .held s.handlers.length req limits ⟨_, hid⟩ (by simp) rfl
    · next r t hne hc =>
      rw [hc] at hpend
      cases hs
      refine ⟨fun id hp => ?_, h.linked⟩
      rcases hpend id hp with hp' | he
      · have hplace := (h.placed id hp').append t []
        rwa [List.append_nil] at hplace
      · exact absurd he (hne id)
  · cases hs
    exact h

theorem Linked.enqueue {k : Nat} {req : Request} {limits : Int × Int} {i : Fin (2 ^ 31)}
    {task : JudgeTask} (h : Linked s) (hk : s.handlers[k]? = some (.inserted req limits i))
    (htask : task.submissionId = i) :
    Linked { s with
      sched := JudgeScheduler.enqueue s.sched task
      handlers := s.handlers.set k (.enqueuing i s.sched.calls.length) } := by
  have hlen : (JudgeScheduler.enqueue s.sched task).calls.length = s.sched.calls.length + 1 := by
    simp [JudgeScheduler.enqueue]
  intro j i' p hj
  by_cases hjk : k = j
  · subst hjk
    rw [getElem?_set_of_some hk] at hj
    cases hj
    refine ⟨by rw [hlen]; omega, fun task' ht => ?_⟩
    rcases calls_enqueue s.sched task with he | he
    · rw [he] at ht
      cases ht
      exact htask
    · rw [he] at ht
      cases ht
  · rw [List.getElem?_set_ne hjk] at hj
    obtain ⟨hp, ht⟩ := h j i' p hj
    refine ⟨by rw [hlen]; omega, fun task' hc => ht task' ?_⟩
    rcases getElem?_concat_cases hc with hc | ⟨he, -⟩
    · exact hc
    · omega

/-- A handler calls `enqueue`: its submission is in the call, or refused. -/
theorem Kept.enqueue {k : Nat} {stored : Stored} {reads : Reads} (h : Kept s)
    (hs : s.enqueue k stored reads = some s') : Kept s' := by
  unfold World.enqueue at hs
  split at hs
  · next req limits id hk =>
    cases hs
    have hnew : (s.handlers.set k (.enqueuing id s.sched.calls.length))[k]? =
      some (.enqueuing id s.sched.calls.length) := getElem?_set_of_some hk
    refine ⟨fun id' hp => ?_, h.linked.enqueue hk rfl⟩
    cases h.placed id' hp with
    | queued task ht hid => exact .queued task ht hid
    | held j req' limits' i hh hid =>
      by_cases hj : k = j
      · subst hj
        rw [hk] at hh
        cases hh
        rcases calls_enqueue s.sched (buildTask req limits stored reads id) with hc | hc
        · exact .entering k _ id _ hnew hid hc
        · exact .refused k _ id hnew hid hc
      · exact .held j req' limits' i ((List.getElem?_set_ne hj).trans hh) hid
    | entering j p i task hh hid hp =>
      exact .entering j p i task (getElem?_set_of_ne hk hh nofun) hid (getElem?_append_of_some hp)
    | popped w task hw hph hid => exact .popped w task hw hph hid
    | refused j p i hh hid hp =>
      exact .refused j p i (getElem?_set_of_ne hk hh nofun) hid (getElem?_append_of_some hp)
    | failed hf => exact .failed hf
  · cases hs

/-- The next statement of a worker for its task: other submissions stay where they are. -/
theorem Place.setPhase {w : Nat} {task : JudgeTask} {failures : List Nat} {t : Table}
    {phase : Phase} (h : Place s id) (hw : s.sched.threads[w]? = some (.awake (.running task)))
    (hne : s.phases w = .popped → (task.submissionId : Nat) ≠ id) (hf : s.failures ⊆ failures) :
    Place ({ s with table := t, failures }.setPhase w phase) id := by
  cases h with
  | queued task ht hid => exact .queued task ht hid
  | held k req limits i hh hid => exact .held k req limits i hh hid
  | entering k p i task hh hid hp => exact .entering k p i task hh hid hp
  | popped v task' hv hph hid =>
    have hvw : v ≠ w := by
      rintro rfl
      rw [hw, Option.some_inj] at hv
      cases hv
      exact hne hph hid
    exact .popped v task' hv ((Function.update_of_ne hvw ..).trans hph) hid
  | refused k p i hh hid hp => exact .refused k p i hh hid hp
  | failed hm => exact .failed (hf hm)

/-- A statement of a worker that leaves its own row not pending. -/
theorem Kept.done {w : Nat} {task : JudgeTask} {t : Table} {phase : Phase} (h : Kept s)
    (hw : s.sched.threads[w]? = some (.awake (.running task)))
    (hpend : ∀ id, Pending t id → Pending s.table id ∧ id ≠ task.submissionId) :
    Kept ({ s with table := t }.setPhase w phase) := by
  refine ⟨fun id hp => ?_, h.linked⟩
  obtain ⟨hp', hne⟩ := hpend id hp
  exact (h.placed id hp').setPhase hw (fun _ => hne.symm) (List.Subset.refl _)

/-- A statement of a worker that fails: the submission is noted, and the others are where they
    were. -/
theorem Kept.dropped {w : Nat} {task : JudgeTask} {t : Table} (h : Kept s)
    (hw : s.sched.threads[w]? = some (.awake (.running task)))
    (hpend : ∀ id, Pending t id → Pending s.table id) :
    Kept ({ s with table := t, failures := s.failures ++ [task.submissionId.val] }.setPhase w
      .over) := by
  refine ⟨fun id hp => ?_, h.linked⟩
  by_cases hid : (task.submissionId : Nat) = id
  · exact .failed (hid ▸ List.mem_append_right _ (List.mem_singleton_self _))
  · exact (h.placed id (hpend id hp)).setPhase hw (fun _ => hid) (List.subset_append_left _ _)

/-- The first statement of a worker: its row is not pending after it, or it has failed. -/
theorem Kept.claim {w now : Nat} {db : Sql} (h : Kept s)
    (hs : s.claim hasClient w now db = some s') : Kept s' := by
  unfold World.claim at hs
  split at hs
  · next task hw hph =>
    have hrun := fun id => @pending_markRunning s.table id task.submissionId db
    have hse := fun id => @pending_markFinished s.table now id task.submissionId db (bytes "se")
      (bytes "no docker client configured") none none
    cases hs
    -- With a client the row is marked running; without one it is finished as `se`.
    split_ifs with hc
    · split
      · next t ht =>
        rw [ht] at hrun
        exact h.done hw fun id hp => ⟨(hrun id hp).1, fun he => nomatch (hrun id hp).2 he⟩
      · next t ht =>
        rw [ht] at hrun
        exact h.done hw fun id hp => ⟨(hrun id hp).1, fun he => nomatch (hrun id hp).2 he⟩
      · next t ht =>
        rw [ht] at hrun
        exact h.dropped hw fun id hp => (hrun id hp).1
    · split
      · next t ht =>
        rw [ht] at hse
        exact h.done hw fun id hp => ⟨(hse id hp).1, fun he => nomatch (hse id hp).2 he⟩
      · next t ht =>
        rw [ht] at hse
        exact h.dropped hw fun id hp => (hse id hp).1
  · cases hs

theorem Kept.store {w now : Nat} {db : Sql} {status err : Bytes} {time mem : Option Int}
    (h : Kept s) (hs : s.store w now db status time mem err = some s') : Kept s' := by
  unfold World.store at hs
  split at hs
  · next task hw hph =>
    cases hs
    refine ⟨fun id hp => ?_, h.linked⟩
    refine (h.placed id (pending_markFinished hp).1).setPhase hw (fun hc => ?_)
      (List.Subset.refl _)
    rw [hph] at hc
    cases hc
  · cases hs

theorem Kept.step (h : Kept s) (hs : s.step cfg hasClient a = some s') : Kept s' := by
  cases a with
  | insert req stored find now db => exact h.insert hs
  | enqueue k stored reads => exact h.enqueue hs
  | sched b => exact h.schedule hs
  | claim w now db => exact h.claim hs
  | store w now db status time mem err => exact h.store hs
  | finish w => exact h.finish hs

theorem kept_of_init (h : (service cfg hasClient).init s) : Kept s := by
  obtain ⟨-, hh, -, ht⟩ := h
  constructor
  · rintro id ⟨r, hr, hp⟩
    exact absurd hp (ht id r hr)
  · intro k i p hk
    rw [hh] at hk
    cases hk

/-- In every reachable state each pending row is in the queue, or with a handler that has not
    called `enqueue` or is in it, or with a worker that has made no statement for it; or `enqueue`
    has refused it, or the statement of its worker has failed. -/
theorem pending_placed (cfg : SchedulerConfig) (hasClient : Bool) (s : World)
    (h : (service cfg hasClient).Reach System.Always s) (id : Nat) (hp : Pending s.table id) :
    Place s id :=
  (h.invariant (P := Kept) (fun _ => kept_of_init) fun _ _ _ hk _ hs => hk.step hs).placed id hp

/-- A submission to a problem without test cases. -/
def oneRequest : Request := ⟨1, 1, bytes "c", bytes "int main(){}"⟩

def oneProblem : Stored := ⟨some (1000, 256), [], none⟩

def allReads : Reads := ⟨.ok (), .ok (), .ok ()⟩

/-- The service just started, with an empty table. -/
def freshWorld : World := ⟨.new, .empty, [], fun _ => .over, []⟩

theorem init_freshWorld (cfg : SchedulerConfig) (hasClient : Bool) :
    (service cfg hasClient).init freshWorld := ⟨rfl, rfl, rfl, by rintro _ _ ⟨⟩⟩

/-- A submission is stored, and its handler calls `enqueue` as the call `k`. -/
def submit (k : Nat) : List WorldAction :=
  [.insert oneRequest oneProblem (.ok ()) 0 (.ok true), .enqueue k oneProblem allReads,
    .sched (.push k)]

/-- The worker takes the first submission, the second one waits, and the third one is refused. -/
def submitThree : List WorldAction :=
  startOne.map .sched ++ submit 0 ++ [.sched (.check 0)] ++ submit 1 ++ submit 2

theorem pending_placed_queued :
    ∃ s, (service oneWorker true).Reach System.Always s ∧ Pending s.table 2 ∧ Place s 2 := by
  obtain ⟨s, hs, hp⟩ := System.exists_exec_of_run (S := service oneWorker true) (s := freshWorld)
    (l := submitThree) (p := fun s => decide (Pending s.table 2)) (by decide +kernel)
  have hr := System.Reach.exec (.init (init_freshWorld oneWorker true)) hs
  have hp := of_decide_eq_true hp
  exact ⟨s, hr, hp, pending_placed oneWorker true s hr 2 hp⟩

/-- A handler before `enqueue`, or in it before the push or the refusal, for the submission. -/
def Handler.holds (s : World) (id : Nat) : Handler → Bool
  | .inserted _ _ i => i.val == id
  | .enqueuing i p =>
    i.val == id && match s.sched.calls[p]? with
      | some (.checked _) => true
      | _ => false

/-- A worker with the task of the submission. -/
def carries (id : Nat) : Worker → Bool
  | .awake (.running task) => task.submissionId.val == id
  | _ => false

/-- The row is pending, but neither in the queue nor with a handler or a worker. -/
def Orphaned (s : World) (id : Nat) : Prop :=
  Pending s.table id ∧ (∀ task ∈ s.sched.queue, task.submissionId.val ≠ id) ∧
    (∀ h ∈ s.handlers, h.holds s id = false) ∧ ∀ thread ∈ s.sched.threads, carries id thread = false

instance (s : World) (id : Nat) : Decidable (Orphaned s id) :=
  inferInstanceAs (Decidable (_ ∧ _ ∧ _ ∧ _))

/-- The rows 1 and 3 are pending for good: the statement of the worker failed for the one, and the
    queue was full for the other. The scheduler is not shut down. -/
theorem refused_stays_pending :
    ∃ s, (service oneWorker true).Reach System.Always s ∧ s.sched.shuttingDown = false ∧
      Orphaned s 1 ∧ Orphaned s 3 := by
  obtain ⟨s, hs, hp⟩ := System.exists_exec_of_run (S := service oneWorker true) (s := freshWorld)
    (l := submitThree ++ ([.claim 0 0 (.error (bytes "gone away")), .finish 0] : List WorldAction))
    (p := fun s => decide (s.sched.shuttingDown = false ∧ Orphaned s 1 ∧ Orphaned s 3))
    (by decide +kernel)
  exact ⟨s, .exec (.init (init_freshWorld oneWorker true)) hs, of_decide_eq_true hp⟩

end LiteCode.SubmissionRoutes
