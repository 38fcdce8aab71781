import LiteCode.Lib.ListIndex
import LiteCode.Lib.System
import LiteCode.Scheduler.Publish

/-!
# Counting submissions

The counter `litecode_submissions_total` of `src/judge/judge_scheduler.h`: any number of workers
run tasks against one table, which other clients of the database change as they like. One action
is one statement of a worker, one call of `record_task_metrics`, or such a change. The docker
calls in between do not touch the table, and their outcomes are given with the task.

Step 9 counts a row if `mark_finished` ended it. `finish_se` counts whether it did or not, and the
last handler of `worker_loop` does not count.

* `Counts`: the steps where `finish_se` ends its row, and the last handler does not;
* `counted_of_reach`: in every execution of such steps, the counter is the number of rows that
  workers moved to a terminal status, for each status, up to the calls about to be made;
* `alone_run`: a worker that nothing interrupts does what `run_one_task` does.
-/

namespace LiteCode.JudgeScheduler.Counting

open SubmissionRepo Judge

/-- A thread of `worker_loop`, between its statements. -/
inductive Worker
  | idle
  /-- In `run_one_task` without a docker client. -/
  | rejecting (env : TaskEnv) (task : JudgeTask)
  /-- In `run_one_task`, having claimed the row. -/
  | judging (env : TaskEnv) (task : JudgeTask)
  /-- Past `mark_finished`, about to count with these labels. -/
  | counting (labels : List Bytes)

/-- The task in hand. -/
def Worker.task : Worker → Option JudgeTask
  | .rejecting _ task => some task
  | .judging _ task => some task
  | _ => none

/-- The calls of `inc_counter` about to be made. -/
def Worker.labels : Worker → List Bytes
  | .counting labels => labels
  | _ => []

/-- The table, the counter and the workers. -/
structure State where
  table : Table
  /-- The labels with which the counter was incremented, in order. -/
  counted : List Bytes
  workers : List Worker
  /-- The statuses of the rows that workers moved to a terminal status, in order. -/
  moved : List Status

/-- The counter for one label. -/
def State.total (s : State) (label : Bytes) : Nat := s.counted.count label

/-- The calls of `inc_counter` that the workers are about to make. -/
def State.pending (s : State) : List Bytes := s.workers.flatMap Worker.labels

/-- The status of the row `id`, if it ended between the two tables. -/
def endedAt (t t' : Table) (id : Nat) : Option Status :=
  match t.row id, t'.row id with
  | some r, some r' =>
    if !r.status.terminal && r'.status.terminal then some r'.status else none
  | _, _ => none

/-- The statuses of the rows that ended between the two tables. -/
def ended (t t' : Table) : List Status := (t.rows.map (·.id)).filterMap (endedAt t t')

/-- A statement of a worker. -/
def State.write (s : State) (t : Table) : State :=
  { s with table := t, moved := s.moved ++ ended s.table t }

def State.setWorker (s : State) (w : Nat) (worker : Worker) : State :=
  { s with workers := s.workers.set w worker }

/-- The labels of the calls of `record_task_metrics`. -/
def labels (es : List Effect) : List Bytes :=
  es.filterMap fun
    | .recordMetrics status => some status
    | _ => none

/-- The atomic steps. -/
inductive Action
  /-- Another client of the database changes the table. -/
  | outside (t : Table)
  /-- The worker `w` takes a task: `run_one_task` up to `mark_running`. -/
  | take (w : Nat) (env : TaskEnv) (task : JudgeTask)
  /-- `run_one_task` of the worker `w` up to its `mark_finished`. -/
  | finish (w now : Nat)
  /-- `record_task_metrics`, and the rest of `run_one_task`. -/
  | count (w : Nat)
  /-- An exception escapes `run_one_task` before its `mark_finished`: the handlers of
      `worker_loop`, with the text of a `std::exception`. -/
  | escape (w now : Nat) (db : Sql) (what : Option Bytes)

/-- The steps to `mark_running`, with a metrics service installed. -/
def take (s : State) (w : Nat) (env : TaskEnv) (task : JudgeTask) : Option State :=
  match s.workers[w]? with
  | some .idle =>
    if !env.hasMetrics then none
    else if !env.hasClient then some (s.setWorker w (.rejecting env task))
    else
      let (r, t) := markRunning s.table env.markRunning task.submissionId
      match r with
      | .ok true => some ((s.write t).setWorker w (.judging env task))
      | _ => some (s.write t)
  | _ => none

/-- The rest of `run_one_task`. -/
def Worker.rest (cfg : Config) (t : Table) (now : Nat) : Worker → Option (Table × List Effect)
  | .rejecting env task =>
    some (finishSe env t now task.submissionId (bytes "no docker client configured"))
  | .judging env task => some (judgeClaimed cfg env t now task)
  | _ => none

/-- The step to `mark_finished`. -/
def finish (cfg : Config) (s : State) (w now : Nat) : Option State := do
  let worker ← s.workers[w]?
  let (t, es) ← worker.rest cfg s.table now
  some ((s.write t).setWorker w (.counting (labels es)))

/-- The calls of `inc_counter`. -/
def count (s : State) (w : Nat) : Option State :=
  match s.workers[w]? with
  | some (.counting labels) =>
    some { s.setWorker w .idle with counted := s.counted ++ labels }
  | _ => none

/-- The handlers of `worker_loop`. -/
def escape (s : State) (w now : Nat) (db : Sql) (what : Option Bytes) : Option State := do
  let worker ← s.workers[w]?
  let task ← worker.task
  let t := match what with
    | some what => (markFinished s.table now db task.submissionId (bytes "se") none none
        (bytes "scheduler internal error: " ++ what)).2
    | none => s.table
  some ((s.write t).setWorker w .idle)

/-- One step. -/
def step (cfg : Config) (s : State) : Action → Option State
  | .outside t => some { s with table := t }
  | .take w env task => take s w env task
  | .finish w now => finish cfg s w now
  | .count w => count s w
  | .escape w now db what => escape s w now db what

/-- The workers, from a start with the counter at 0. -/
def system (cfg : Config) : System State Action where
  init s := s.counted = [] ∧ s.moved = [] ∧ ∀ worker ∈ s.workers, worker = .idle
  step := step cfg

/-! ## Which steps count right -/

/-- The row has not ended. -/
def Open (t : Table) (id : Nat) : Prop := ∃ r, t.row id = some r ∧ r.status.terminal = false

/-- `mark_finished` with `se` ends the row. -/
def EndsSe (t : Table) (db : Sql) (id : Nat) : Prop := db = .ok () ∧ Open t id

instance (t : Table) (id : Nat) : Decidable (Open t id) :=
  decidable_of_iff (∃ r ∈ t.row id, r.status.terminal = false) Iff.rfl

instance (t : Table) (db : Sql) (id : Nat) : Decidable (EndsSe t db id) :=
  inferInstanceAs (Decidable (_ ∧ _))

/-- The rest of the worker ends the row if it goes through `finish_se`. -/
def Worker.EndsSe (t : Table) : Worker → Prop
  | .rejecting env task => Counting.EndsSe t env.markFinished task.submissionId
  | .judging env task => containerResult env task = none →
      Counting.EndsSe t env.markFinished task.submissionId
  | _ => True

instance (t : Table) : (worker : Worker) → Decidable (worker.EndsSe t)
  | .idle => isTrue trivial
  | .rejecting env task =>
    inferInstanceAs (Decidable (Counting.EndsSe t env.markFinished task.submissionId))
  | .judging env task => inferInstanceAs (Decidable (containerResult env task = none → _))
  | .counting _ => isTrue trivial

/-- The steps that count what they end. -/
def Counts (s : State) : Action → Prop
  | .finish w _ => ∀ worker ∈ s.workers[w]?, worker.EndsSe s.table
  | .escape w _ db what => ∀ worker ∈ s.workers[w]?, ∀ task ∈ worker.task,
      what ≠ none → ¬ EndsSe s.table db task.submissionId
  | _ => True

instance (s : State) : (a : Action) → Decidable (Counts s a)
  | .outside _ => isTrue trivial
  | .take _ _ _ => isTrue trivial
  | .finish w _ => inferInstanceAs (Decidable (∀ worker ∈ s.workers[w]?, worker.EndsSe s.table))
  | .count _ => isTrue trivial
  | .escape w _ _ _ => inferInstanceAs (Decidable (∀ worker ∈ s.workers[w]?, _))

variable {cfg : Config} {env : TaskEnv} {t t' : Table} {now id w : Nat} {task : JudgeTask}
  {s s' : State} {a : Action}

/-! ## What a statement ends -/

/-- The rows but one stay as they are. -/
theorem ended_eq (id : Nat) (h : ∀ id', id' ≠ id → t'.row id' = t.row id') :
    ended t t' = (endedAt t t' id).toList := by
  refine filterMap_of_nodup t.nodup (fun hm => ?_) fun id' hne => ?_
  · cases hr : t.row id with
    | none => rw [endedAt, hr]
    | some r =>
      exact absurd (List.mem_map.2 ⟨r, Table.mem_of_row hr, Table.id_of_row hr⟩) hm
  · rw [endedAt, h id' hne]
    cases t.row id' with
    | none => rfl
    | some r => simp

theorem ended_self : ended t t = [] := by
  refine List.filterMap_eq_nil_iff.2 fun id _ => ?_
  rw [endedAt]
  cases t.row id with
  | none => rfl
  | some r => simp

theorem open_iff : Open t id ↔
    ∃ r, t.row id = some r ∧ (r.status = .pending ∨ r.status = .running) := by
  refine exists_congr fun r => and_congr_right fun _ => ?_
  rw [← Bool.not_eq_true, Status.terminal_iff]
  exact not_and_or.trans (by rw [not_not, not_not])

/-- `mark_finished` ends a row exactly if it answers true. -/
theorem ended_markFinished (t : Table) (now : Nat) (db : Sql) (id : Nat) (status : Bytes)
    (time mem : Option Int) (err : Bytes) :
    (ended t (markFinished t now db id status time mem err).2).map Status.name =
      if (markFinished t now db id status time mem err).1 = .ok true then [status] else [] := by
  rcases markFinished_cases t now db id status time mem err with ⟨e, he⟩ | ⟨st, ht, rfl, rfl⟩
  · rw [he, ended_self, if_neg nofun]
    rfl
  · obtain ⟨hans, hrow⟩ := markFinished_spec t now id st time mem err ht
    rw [ended_eq id fun id' hne => ?_, hans]
    · -- An open row is ended by the call, and any other row keeps its status.
      by_cases ho : Open t id
      · obtain ⟨r, hr, hst⟩ := open_iff.1 ho
        have hnot : r.status.terminal = false := by
          obtain ⟨r', hr', hf⟩ := ho
          rw [hr] at hr'
          cases hr'
          exact hf
        rw [if_pos (by rw [decide_eq_true (open_iff.1 ho)]), endedAt, hr, hrow, hr]
        simp [hst, hnot, ht]
      · rw [if_neg (by simpa [open_iff] using ho), endedAt, hrow]
        cases hr : t.row id with
        | none => rfl
        | some r =>
          have hterm : r.status.terminal = true := by
            by_contra hn
            exact ho ⟨r, hr, by simpa using hn⟩
          simp [hterm]
    · rw [hrow]
      cases t.row id' with
      | none => rfl
      | some r => simp [hne]

theorem ended_markRunning (t : Table) (db : Sql) (id : Nat) :
    ended t (markRunning t db id).2 = [] := by
  cases db with
  | error e => exact ended_self
  | ok u =>
    refine List.filterMap_eq_nil_iff.2 fun id' _ => ?_
    rw [endedAt, (markRunning_spec t id).2]
    cases t.row id' with
    | none => rfl
    | some r =>
      simp only [Option.map_some]
      split_ifs <;> simp_all

/-! ## What a run counts -/

theorem labels_append (es es' : List Effect) : labels (es ++ es') = labels es ++ labels es' :=
  List.filterMap_append

theorem labels_outside {es : List Effect} (h : ∀ e ∈ es, e.Outside) : labels es = [] := by
  refine List.filterMap_eq_nil_iff.2 fun e he => ?_
  have := h e he
  cases e <;> first | rfl | cases this

theorem labels_around {p q : Table × List Effect} (h : Around p q) : labels p.2 = labels q.2 := by
  obtain ⟨pre, post, rfl, h⟩ := h
  have hpre := labels_outside fun e he => h e (List.mem_append_left post he)
  have hpost := labels_outside fun e he => h e (List.mem_append_right pre he)
  rw [labels_append, labels_append, hpre, hpost, List.append_nil, List.nil_append]

theorem labels_recordTaskMetrics (hm : env.hasMetrics = true) (status : Bytes) :
    labels (recordTaskMetrics env status) = [status] := by
  rw [recordTaskMetrics, if_pos hm]
  rfl

/-- Step 9 counts if `mark_finished` answers true. -/
theorem labels_persist (hm : env.hasMetrics = true) (result : JudgeResult) :
    labels (persist env t now id result).2 =
      if (markFinished t now env.markFinished id result.status (some result.timeUsedMs)
          (some result.memoryUsedKb) result.errorMessage).1 = .ok true then [result.status]
      else [] := by
  have hcheckin : labels
      (if result.status = bytes "ac" then [Effect.tryCheckin] else []) = [] := by
    split <;> rfl
  have hpublish : ∀ status time mem err, labels
      (if env.hasNotifier then [Effect.publish status time mem err] else []) = [] := by
    intro status time mem err
    split <;> rfl
  rw [persist_effects, apply_ite labels, labels_append, labels_append,
    labels_recordTaskMetrics hm, hcheckin, hpublish, List.append_nil, List.append_nil]
  rfl

theorem endsSe_iff (now : Nat) {db : Sql} {err : Bytes} :
    (markFinished t now db id (bytes "se") none none err).1 = .ok true ↔ EndsSe t db id := by
  cases db with
  | error e =>
    refine iff_of_false (fun h => ?_) fun h => nomatch h.1
    rcases markFinished_cases t now (.error e) id (bytes "se") none none err with
      ⟨e', he⟩ | ⟨st, -, -, hok⟩
    · rw [he] at h
      cases h
    · cases hok
  | ok u =>
    have h := (markFinished_spec t now id .se none none err (by decide)).1
    rw [show Status.name .se = bytes "se" from rfl] at h
    rw [h, Except.ok.injEq, decide_eq_true_iff, ← open_iff, EndsSe]
    exact (and_iff_right rfl).symm

/-- The metrics service is there. -/
def Worker.Metered : Worker → Prop
  | .rejecting env _ => env.hasMetrics = true
  | .judging env _ => env.hasMetrics = true
  | _ => True

theorem labels_finishSe_iff {err : Bytes} (hm : env.hasMetrics = true) :
    labels (finishSe env t now id err).2 =
        (ended t (finishSe env t now id err).1).map Status.name ↔
      EndsSe t env.markFinished id := by
  rw [finishSe, labels_recordTaskMetrics hm, ended_markFinished, ← endsSe_iff now]
  split_ifs with h
  · exact iff_of_true rfl h
  · exact iff_of_false not_false h

/-- The rest of `run_one_task` counts what it ends, exactly if `finish_se` ends its row. -/
theorem rest_iff {worker : Worker} {es : List Effect} (hm : worker.Metered)
    (h : worker.rest cfg t now = some (t', es)) :
    labels es = (ended t t').map Status.name ↔ worker.EndsSe t := by
  cases worker with
  | idle => cases h
  | counting l => cases h
  | rejecting env task =>
    cases h
    exact labels_finishSe_iff hm
  | judging env task =>
    have h := Option.some.inj h
    obtain ⟨q, hq, ha⟩ := judgeClaimed_around cfg env t now task
    have hlabels := labels_around ha
    have htable : (judgeClaimed cfg env t now task).1 = q.1 := by
      obtain ⟨pre, post, he, -⟩ := ha
      rw [he]
    rw [h] at hlabels htable
    rw [show es = ((t', es) : Table × List Effect).2 from rfl, hlabels,
      show t' = ((t', es) : Table × List Effect).1 from rfl, htable]
    simp only [Worker.EndsSe]
    cases hr : containerResult env task with
    | none =>
      rw [hr] at hq
      obtain ⟨err, rfl⟩ := hq
      exact (labels_finishSe_iff hm).trans ⟨fun h _ => h, fun h => h rfl⟩
    | some result =>
      rw [hr] at hq
      obtain rfl := hq
      refine iff_of_true ?_ nofun
      rw [labels_persist hm, persist_table, ended_markFinished]

/-! ## What a step keeps -/

/-- The counter and the calls about to be made are the statuses of the rows that ended. -/
structure Balanced (s : State) : Prop where
  perm : (s.counted ++ s.pending).Perm (s.moved.map Status.name)
  metered : ∀ worker ∈ s.workers, worker.Metered

theorem State.pending_setWorker {old : Worker} (new : Worker) (h : s.workers[w]? = some old) :
    ((s.setWorker w new).pending ++ old.labels).Perm (s.pending ++ new.labels) :=
  flatMap_set_perm h

/-- A statement of a worker, with what it is about to count then. -/
theorem Balanced.write {old new : Worker} (h : Balanced s) (hw : s.workers[w]? = some old)
    (ho : old.labels = []) (hm : new.Metered)
    (hn : new.labels = (ended s.table t).map Status.name) :
    Balanced ((s.write t).setWorker w new) := by
  have hp := State.pending_setWorker (s := s.write t) new hw
  rw [ho, List.append_nil] at hp
  refine ⟨?_, fun x hx => ?_⟩
  · have hp' : ((s.write t).setWorker w new).pending.Perm (s.pending ++ new.labels) := hp
    simp only [State.setWorker, State.write, List.map_append] at hp' ⊢
    refine (hp'.append_left s.counted).trans ?_
    rw [← List.append_assoc, hn]
    exact h.perm.append_right _
  · rcases List.mem_or_eq_of_mem_set hx with hx | rfl
    · exact h.metered x hx
    · exact hm

theorem State.write_self : s.write s.table = s := by
  rw [State.write, ended_self, List.append_nil]

theorem State.setWorker_self {worker : Worker} (h : s.workers[w]? = some worker) :
    s.setWorker w worker = s := by
  obtain ⟨hlt, rfl⟩ := List.getElem?_eq_some_iff.1 h
  rw [State.setWorker, List.set_getElem_self]

/-- Up to `mark_running` no row ends. -/
theorem take_cases (h : take s w env task = some s') :
    s.workers[w]? = some .idle ∧ ∃ t new, s' = (s.write t).setWorker w new ∧
      new.labels = [] ∧ new.Metered ∧ ended s.table t = [] := by
  simp only [take] at h
  split at h
  · rename_i hw
    refine ⟨hw, ?_⟩
    have hend := ended_markRunning s.table env.markRunning task.submissionId
    split_ifs at h with hm hc
    · cases h
      rw [Bool.not_eq_true, Bool.not_eq_false'] at hm
      exact ⟨s.table, .rejecting env task, by rw [State.write_self], rfl, hm, ended_self⟩
    · split at h
      · cases h
        rw [Bool.not_eq_true, Bool.not_eq_false'] at hm
        exact ⟨_, .judging env task, rfl, rfl, hm, hend⟩
      · cases h
        refine ⟨_, .idle, ?_, rfl, trivial, hend⟩
        exact (State.setWorker_self (s := s.write _) hw).symm
  · cases h

theorem Balanced.step (h : Balanced s) (hg : Counts s a) (hs : Counting.step cfg s a = some s') :
    Balanced s' := by
  cases a with
  | outside t =>
    cases hs
    exact ⟨h.perm, h.metered⟩
  | take w env task =>
    obtain ⟨hw, t, new, rfl, hl, hm, he⟩ := take_cases hs
    refine h.write hw rfl hm ?_
    rw [hl, he]
    rfl
  | finish w now =>
    obtain ⟨worker, hw, hs⟩ := Option.bind_eq_some_iff.1 hs
    obtain ⟨⟨t, es⟩, hr, hs⟩ := Option.bind_eq_some_iff.1 hs
    cases hs
    have hl := (rest_iff (h.metered _ (List.mem_of_getElem? hw)) hr).2 (hg worker hw)
    refine h.write hw ?_ trivial hl
    cases worker <;> first | rfl | cases hr
  | count w =>
    simp only [Counting.step, Counting.count] at hs
    split at hs
    · rename_i l hw
      cases hs
      have hp := State.pending_setWorker .idle hw
      refine ⟨?_, fun x hx => ?_⟩
      · simp only [State.setWorker, State.pending, Worker.labels, List.append_nil] at hp ⊢
        rw [List.append_assoc]
        exact ((List.perm_append_comm.trans hp).append_left _).trans h.perm
      · rcases List.mem_or_eq_of_mem_set hx with hx | rfl
        · exact h.metered x hx
        · trivial
    · cases hs
  | escape w now db what =>
    obtain ⟨worker, hw, hs⟩ := Option.bind_eq_some_iff.1 hs
    obtain ⟨task, ht, hs⟩ := Option.bind_eq_some_iff.1 hs
    cases hs
    refine h.write hw ?_ trivial ?_
    · cases worker <;> first | rfl | cases ht
    · cases what with
      | none =>
        rw [ended_self]
        rfl
      | some what =>
        rw [ended_markFinished, if_neg]
        · rfl
        · rw [endsSe_iff]
          exact hg worker hw task ht nofun

theorem Balanced.init (h : (system cfg).init s) : Balanced s := by
  obtain ⟨hc, hm, hw⟩ := h
  have hp : s.pending = [] := List.flatMap_eq_nil_iff.2 fun worker hx => by rw [hw worker hx]; rfl
  refine ⟨?_, fun worker hx => ?_⟩
  · rw [hc, hm, hp]
    exact .nil
  · rw [hw worker hx]
    trivial

/-- In every execution whose steps count what they end: for every label, and in the sum over the
    labels, the counter and the calls about to be made are the number of rows that a worker moved
    to a terminal status. -/
theorem counted_of_reach (h : (system cfg).Reach Counts s) :
    (∀ label, s.total label + s.pending.count label =
      (s.moved.map Status.name).count label) ∧
    s.counted.length + s.pending.length = s.moved.length := by
  have hb : Balanced s := h.invariant (fun s => Balanced.init) fun t a t' ht hg hs => ht.step hg hs
  refine ⟨fun label => ?_, ?_⟩
  · rw [State.total, ← List.count_append]
    exact hb.perm.count_eq label
  · rw [← List.length_append, hb.perm.length_eq, List.length_map]

/-- A claimed row with an accepted result is counted once. -/
theorem counted_of_reach_accepted :
    ∃ s, (system ⟨30, 16777216⟩).Reach Counts s ∧ s.moved = [.ac] ∧ s.total (bytes "ac") = 1 ∧
      s.counted.length = 1 := by
  obtain ⟨s, hexec, hs⟩ := System.exists_exec_of_runGuarded (S := system ⟨30, 16777216⟩)
    (G := Counts) (s := ⟨oneRow, [], [.idle], []⟩)
    (l := [.take 0 { plainEnv (statusLog (bytes "ac")) with hasMetrics := true } oneTask,
      .finish 0 100, .count 0])
    (p := fun s => decide (s.moved = [.ac]) && decide (s.pending = [])) (by decide +kernel)
  have hr : (system ⟨30, 16777216⟩).Reach Counts s :=
    ⟨_, _, ⟨rfl, rfl, by simp⟩, hexec⟩
  simp only [Bool.and_eq_true, decide_eq_true_eq] at hs
  obtain ⟨hlabel, hlength⟩ := counted_of_reach hr
  have hac := hlabel (bytes "ac")
  rw [hs.1, hs.2] at hac hlength
  exact ⟨s, hr, hs.1, hac, hlength⟩

/-- Without a docker client, a second task of one submission is counted again. -/
theorem stale_counted :
    ∃ s, (system ⟨30, 16777216⟩).Reach System.Always s ∧ s.moved = [.se] ∧ s.pending = [] ∧
      s.total (bytes "se") = 2 := by
  obtain ⟨s, hexec, hs⟩ := System.exists_exec_of_run (S := system ⟨30, 16777216⟩)
    (s := ⟨oneRow, [], [.idle], []⟩)
    (l := [.take 0 { plainEnv [] with hasMetrics := true, hasClient := false } oneTask,
      .finish 0 100, .count 0,
      .take 0 { plainEnv [] with hasMetrics := true, hasClient := false } oneTask,
      .finish 0 101, .count 0])
    (p := fun s => decide (s.moved = [.se]) && decide (s.pending = []) &&
      decide (s.total (bytes "se") = 2)) (by decide +kernel)
  simp only [Bool.and_eq_true, decide_eq_true_eq] at hs
  exact ⟨s, ⟨_, _, ⟨rfl, rfl, by simp⟩, hexec⟩, hs.1.1, hs.1.2, hs.2⟩

/-! ## A worker alone -/

/-- The steps of a worker that takes a task and is not interrupted. -/
def alone (t : Table) (env : TaskEnv) (task : JudgeTask) (w now : Nat) : List Action :=
  if env.hasClient ∧ (markRunning t env.markRunning task.submissionId).1 ≠ .ok true then
    [.take w env task]
  else [.take w env task, .finish w now, .count w]

/-- The rest of `run_one_task` and its count. -/
theorem rest_run (cfg : Config) {worker : Worker} {es : List Effect}
    (hw : s.workers[w]? = some worker) (hr : worker.rest cfg s.table now = some (t', es)) :
    ∃ s', (system cfg).run s [.finish w now, .count w] = some s' ∧ s'.table = t' ∧
      s'.counted = s.counted ++ labels es ∧ s'.workers = s.workers.set w .idle := by
  have hfin : finish cfg s w now = some ((s.write t').setWorker w (.counting (labels es))) := by
    rw [finish, hw, Option.bind_eq_bind, Option.bind_some, hr]
    rfl
  have hget : ((s.write t').setWorker w (.counting (labels es))).workers[w]? =
      some (.counting (labels es)) := getElem?_set_of_some hw
  refine ⟨{ ((s.write t').setWorker w (.counting (labels es))).setWorker w .idle with
    counted := s.counted ++ labels es }, ?_, rfl, rfl, List.set_set _⟩
  simp only [System.run, system, Counting.step, hfin, Option.bind_some, Counting.count, hget]
  rfl

theorem run_take {u : State} {l : List Action} (h : take s w env task = some u) :
    (system cfg).run s (.take w env task :: l) = (system cfg).run u l := by
  change (take s w env task).bind _ = _
  rw [h]
  rfl

/-- A worker that nothing interrupts does what `run_one_task` does. -/
theorem alone_run (hm : env.hasMetrics = true) (hw : s.workers[w]? = some .idle) :
    ∃ s', (system cfg).run s (alone s.table env task w now) = some s' ∧
      s'.table = (runOneTask cfg env s.table now task).1 ∧
      s'.counted = s.counted ++ labels (runOneTask cfg env s.table now task).2 ∧
      s'.workers = s.workers := by
  have hidle : s.workers.set w .idle = s.workers := congrArg State.workers
    (State.setWorker_self hw)
  -- The paths differ in their first step; `finish` and `count` are the same for all.
  have hrest : ∀ u new, take s w env task = some ((s.write u).setWorker w new) →
      ∀ t' es, new.rest cfg u now = some (t', es) →
      ∃ s', (system cfg).run s [.take w env task, .finish w now, .count w] = some s' ∧
        s'.table = t' ∧ s'.counted = s.counted ++ labels es ∧ s'.workers = s.workers := by
    intro u new ht t' es hr
    obtain ⟨s', hrun, htab, hc, hws⟩ := rest_run cfg (s := (s.write u).setWorker w new)
      (getElem?_set_of_some hw) hr
    refine ⟨s', ?_, htab, hc, hws.trans ?_⟩
    · rw [run_take ht]
      exact hrun
    · exact (List.set_set _).trans hidle
  cases hcl : env.hasClient with
  | false =>
    have ht : take s w env task = some ((s.write s.table).setWorker w (.rejecting env task)) := by
      simp only [take, hw, hm, hcl, State.write_self, Bool.not_false, Bool.not_true, if_true,
        Bool.false_eq_true, if_false]
    have hal : alone s.table env task w now = [.take w env task, .finish w now, .count w] := by
      simp [alone, hcl]
    have hrun : runOneTask cfg env s.table now task =
        finishSe env s.table now task.submissionId (bytes "no docker client configured") := by
      simp [runOneTask, hcl]
    rw [hal, hrun]
    exact hrest s.table _ ht _ _ rfl
  | true =>
    by_cases hok : (markRunning s.table env.markRunning task.submissionId).1 = .ok true
    · have ht : take s w env task = some ((s.write
          (markRunning s.table env.markRunning task.submissionId).2).setWorker w
            (.judging env task)) := by
        simp only [take, hw, hm, hcl, hok, if_false, Bool.not_true, Bool.false_eq_true]
      have hal : alone s.table env task w now = [.take w env task, .finish w now, .count w] := by
        simp [alone, hok]
      have hrun : runOneTask cfg env s.table now task = judgeClaimed cfg env
          (markRunning s.table env.markRunning task.submissionId).2 now task := by
        simp only [runOneTask, hcl, hok, Bool.not_true, Bool.false_eq_true, if_false]
      rw [hal, hrun]
      exact hrest _ _ ht _ _ rfl
    · have hal : alone s.table env task w now = [.take w env task] := by
        simp [alone, hok, hcl]
      have ht : take s w env task = some (s.write
          (markRunning s.table env.markRunning task.submissionId).2) := by
        simp only [take, hw, hm, hcl, if_false, Bool.not_true, Bool.false_eq_true]
      have hrun : runOneTask cfg env s.table now task =
          ((markRunning s.table env.markRunning task.submissionId).2, []) := by
        simp only [runOneTask, hcl, if_false, Bool.not_true, Bool.false_eq_true]
      rw [hal, hrun]
      exact ⟨_, run_take ht, rfl, (List.append_nil _).symm, rfl⟩

end LiteCode.JudgeScheduler.Counting
