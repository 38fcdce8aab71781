import LiteCode.Db.SubmissionRepo
import LiteCode.Judge.Result
import LiteCode.Judge.Script

/-!
# Judging one task

`run_one_task` of `src/judge/judge_scheduler.h`: a worker claims the row of a submission, writes
its task file, runs a judge container on it and stores the verdict. Every docker call, every file
operation and every statement may fail; their outcomes are given (`TaskEnv`).

A failure is stored as the verdict `se`, by `finish_se`. The verdict of a container that ran is
the string that its log gives, and `mark_finished` refuses a string that is not a terminal status
before any statement: the exception is caught, and the row stays `running`.

* `runOneTask`: the function, with the calls it makes (`Effect`);
* `runOneTask_terminal_iff`: a claimed row ends in a terminal status exactly if the log of the
  container, when it gets that far, does not name another status.
-/

namespace LiteCode.JudgeScheduler

open SubmissionRepo Judge

/-- `JudgeTask`. -/
structure JudgeTask where
  submissionId : Fin (2 ^ 31)
  userId : Int
  problemId : Int
  language : Bytes
  code : Bytes
  timeLimitMs : Int
  memoryLimitMb : Int
  compileTimeoutMs : Int
  testCases : List TestCase
  spjSource : Bytes
  spjLanguage : Bytes
  deriving DecidableEq, Repr

/-- `JudgeSchedulerConfig`: what `run_one_task` reads of it. -/
structure Config where
  judgeHardTimeoutSeconds : Int
  outputLimitBytes : Int
  deriving DecidableEq, Repr

/-- An optional string of the task file: an empty one is `null`. -/
def nullIfEmpty (s : Bytes) : Option Bytes := if s.isEmpty then none else some s

/-- The JSON object of `write_task_json`. -/
def taskFile (cfg : Config) (task : JudgeTask) : TaskFile where
  submissionId := task.submissionId
  language := task.language
  code := task.code
  timeLimitMs := task.timeLimitMs
  memoryLimitMb := task.memoryLimitMb
  compileTimeoutMs := task.compileTimeoutMs
  runHardTimeoutMs := cfg.judgeHardTimeoutSeconds * 1000
  outputLimitBytes := cfg.outputLimitBytes
  specialJudgeSource := nullIfEmpty task.spjSource
  specialJudgeLanguage := nullIfEmpty task.spjLanguage
  testCases := task.testCases

/-- The strings that `dump` writes. -/
def JudgeTask.strings (task : JudgeTask) : List Bytes :=
  [task.language, task.code, task.spjSource, task.spjLanguage] ++
    task.testCases.flatMap fun tc => [tc.input, tc.expectedOutput, tc.judgeType]

/-- How waiting for the container ends. -/
inductive Wait
  | exit (code : Int)
  | timeout
  | failed (e : Bytes)

/-- The outcomes of the calls of one run. An `.error` carries the text of the exception. -/
structure TaskEnv where
  hasClient : Bool
  markRunning : Sql
  makeTaskDir : Except Bytes Unit
  /-- The text of the exception of `dump` on a string that is not UTF-8. -/
  dumpError : Bytes
  writeFile : Except Bytes Unit
  /-- What `acquire` gives, if there is a pool. -/
  acquire : Option (Except Bytes (Option Bytes))
  discard : Except Bytes Unit
  create : Except Bytes Bytes
  start : Except Bytes Unit
  wait : Wait
  logs : Except Bytes Bytes
  markFinished : Sql
  hasMetrics : Bool
  hasNotifier : Bool
  floatToInt : Decimal → Int32

/-- The calls that a run makes, besides those of the database. -/
inductive Effect
  | makeTaskDir
  | acquire
  | create
  | start (cid : Bytes)
  | wait (cid : Bytes) (timeoutMs : Int)
  | kill (cid : Bytes)
  | logs (cid : Bytes)
  | remove (cid : Bytes)
  | removeTaskDir
  | release (poolId : Bytes)
  | recordMetrics (status : Bytes)
  | tryCheckin
  | publish (status : Bytes) (time mem : Option Int) (err : Option Bytes)
  deriving DecidableEq, Repr

/-- `write_task_json`. -/
def writeTaskJson (env : TaskEnv) (task : JudgeTask) : Except Bytes Unit :=
  if ∀ s ∈ task.strings, Utf8.WellFormed s then env.writeFile else .error env.dumpError

/-- `record_task_metrics`. -/
def recordTaskMetrics (env : TaskEnv) (status : Bytes) : List Effect :=
  if env.hasMetrics then [.recordMetrics status] else []

/-- `finish_se`. -/
def finishSe (env : TaskEnv) (t : Table) (now id : Nat) (err : Bytes) : Table × List Effect :=
  ((markFinished t now env.markFinished id (bytes "se") none none err).2,
    recordTaskMetrics env (bytes "se"))

/-- `try_remove`. -/
def tryRemove (cid : Bytes) : List Effect := if cid.isEmpty then [] else [.remove cid]

/-- `try_kill_and_remove`. -/
def tryKillAndRemove (cid : Bytes) : List Effect :=
  if cid.isEmpty then [] else .kill cid :: tryRemove cid

/-- The discarded pool container, if `acquire` gave one that could be removed: `pool_id` and
    `pool_gave_one`. -/
def poolContainer (env : TaskEnv) : Option Bytes :=
  match env.acquire, env.discard with
  | some (.ok (some id)), .ok () => some id
  | _, _ => none

/-- The calls of step 3: acquire a pool container and discard it. -/
def prewarm (env : TaskEnv) : List Effect :=
  match env.acquire with
  | none => []
  | some (.ok (some id)) => [.acquire, .remove id]
  | some _ => [.acquire]

/-- `cleanup_and_release`. -/
def cleanupAndRelease (env : TaskEnv) : List Effect :=
  .removeTaskDir :: match poolContainer env with
    | none => []
    | some id => if id.isEmpty then [] else [.release id]

/-- Step 9: store the result of the container, then count it, check in and publish it if that
    changed the row. -/
def persist (env : TaskEnv) (t : Table) (now id : Nat) (result : JudgeResult) :
    Table × List Effect :=
  let (r, t) := markFinished t now env.markFinished id result.status (some result.timeUsedMs)
    (some result.memoryUsedKb) result.errorMessage
  match r with
  | .ok true =>
    let published := Effect.publish result.status
      (if result.timeUsedMs > 0 then some result.timeUsedMs else none)
      (if result.memoryUsedKb > 0 then some result.memoryUsedKb else none)
      (if result.errorMessage.isEmpty then none else some result.errorMessage)
    (t, recordTaskMetrics env result.status ++
      (if result.status = bytes "ac" then [.tryCheckin] else []) ++
      (if env.hasNotifier then [published] else []))
  -- an exception is only logged, and a row that is done already is left alone
  | _ => (t, [])

/-- The steps 5 to 9, for a created container. -/
def runContainer (cfg : Config) (env : TaskEnv) (t : Table) (now id : Nat) (cid : Bytes) :
    Table × List Effect :=
  match env.start with
  | .error e =>
    let (t, es) := finishSe env t now id (bytes "docker start failed: " ++ e)
    (t, .start cid :: tryRemove cid ++ es ++ cleanupAndRelease env)
  | .ok () =>
    let waited := [.start cid, .wait cid (cfg.judgeHardTimeoutSeconds * 1000 + 5000)]
    match env.wait with
    | .timeout =>
      let (t, es) := finishSe env t now id (bytes "judge exceeded hard timeout (" ++
        decimalInt cfg.judgeHardTimeoutSeconds ++ bytes "s)")
      (t, waited ++ tryKillAndRemove cid ++ es ++ cleanupAndRelease env)
    | .failed e =>
      let (t, es) := finishSe env t now id (bytes "docker wait failed: " ++ e)
      (t, waited ++ tryKillAndRemove cid ++ es ++ cleanupAndRelease env)
    | .exit code =>
      let logs := env.logs.toOption.getD []
      let (t, es) := persist env t now id (parseJudgeResultJson env.floatToInt logs code)
      (t, waited ++ .logs cid :: tryRemove cid ++ es ++ cleanupAndRelease env)

/-- The steps 3 and 4, once the task file is written. -/
def createContainer (cfg : Config) (env : TaskEnv) (t : Table) (now id : Nat) :
    Table × List Effect :=
  match env.create with
  | .error e =>
    let (t, es) := finishSe env t now id (bytes "docker create failed: " ++ e)
    (t, prewarm env ++ .create :: es ++ cleanupAndRelease env)
  | .ok cid =>
    if cid.isEmpty then
      let (t, es) := finishSe env t now id (bytes "docker create returned empty id")
      (t, prewarm env ++ .create :: es ++ cleanupAndRelease env)
    else
      let (t, es) := runContainer cfg env t now id cid
      (t, prewarm env ++ .create :: es)

/-- The steps 2 to 9, for a claimed row. -/
def judgeClaimed (cfg : Config) (env : TaskEnv) (t : Table) (now : Nat) (task : JudgeTask) :
    Table × List Effect :=
  match env.makeTaskDir with
  | .error e => finishSe env t now task.submissionId (bytes "failed to write task.json: " ++ e)
  | .ok () =>
    match writeTaskJson env task with
    -- the source returns without `cleanup_and_release`, so the directory stays behind
    | .error e =>
      let (t, es) := finishSe env t now task.submissionId (bytes "failed to write task.json: " ++ e)
      (t, .makeTaskDir :: es)
    | .ok () =>
      let (t, es) := createContainer cfg env t now task.submissionId
      (t, .makeTaskDir :: es)

/-- `run_one_task`: the table after it, and the calls it made. -/
def runOneTask (cfg : Config) (env : TaskEnv) (t : Table) (now : Nat) (task : JudgeTask) :
    Table × List Effect :=
  if !env.hasClient then
    finishSe env t now task.submissionId (bytes "no docker client configured")
  else
    let (r, t) := markRunning t env.markRunning task.submissionId
    match r with
    | .ok true => judgeClaimed cfg env t now task
    -- another worker has the row, or the database is not there: nobody finishes it here
    | _ => (t, [])

/-! ## The row at the end -/

/-- The row `id` has a terminal status. -/
def Terminal (t : Table) (id : Nat) : Prop := ∃ r, t.row id = some r ∧ r.status.terminal

/-- The run claims the row. -/
def claimed (env : TaskEnv) (t : Table) (task : JudgeTask) : Prop :=
  env.hasClient ∧ (markRunning t env.markRunning task.submissionId).1 = .ok true

/-- The log of the container, if the run comes to reading it: the task file was written, and the
    container was created, started and awaited. A log that cannot be read counts as empty. -/
def containerLog (env : TaskEnv) (task : JudgeTask) : Option Bytes :=
  match env.makeTaskDir, writeTaskJson env task, env.create with
  | .ok (), .ok (), .ok cid =>
    if cid.isEmpty then none
    else match env.start, env.wait with
      | .ok (), .exit _ => some (env.logs.toOption.getD [])
      | _, _ => none
  | _, _, _ => none

/-- The names of the terminal statuses. -/
def terminalNames : List Bytes :=
  [bytes "ac", bytes "wa", bytes "re", bytes "tle", bytes "mle", bytes "ole", bytes "pe",
    bytes "ce", bytes "se"]

/-- The last line of the log that reads as a JSON object, if there is one, has no string as
    `status` or the name of a terminal status. -/
def NamesTerminal (logs : Bytes) : Prop :=
  ∀ pre line post j s, splitLines [] logs = pre ++ line :: post →
    (∀ l ∈ post, readLine l = none) → readLine line = some j →
    j.get? (bytes "status") = some (.str s) → s ∈ terminalNames

variable {env : TaskEnv} {t : Table} {now id : Nat} {task : JudgeTask}

theorem mem_terminalNames_iff (b : Bytes) :
    b ∈ terminalNames ↔ ∃ st : Status, st.terminal ∧ st.name = b := by
  constructor
  · intro h
    simp only [terminalNames, List.mem_cons, List.not_mem_nil, or_false] at h
    rcases h with rfl | rfl | rfl | rfl | rfl | rfl | rfl | rfl | rfl
    exacts [⟨.ac, by decide, rfl⟩, ⟨.wa, by decide, rfl⟩, ⟨.re, by decide, rfl⟩,
      ⟨.tle, by decide, rfl⟩, ⟨.mle, by decide, rfl⟩, ⟨.ole, by decide, rfl⟩,
      ⟨.pe, by decide, rfl⟩, ⟨.ce, by decide, rfl⟩, ⟨.se, by decide, rfl⟩]
  · rintro ⟨st, ht, rfl⟩
    revert ht
    cases st <;> decide

/-- Storing a status in a running row ends it iff the status is terminal: another one is
    refused. -/
theorem terminal_markFinished_iff {status err : Bytes} {time mem : Option Int} {r : SubmissionRow}
    (hr : t.row id = some r) (hrun : r.status = .running) :
    Terminal (markFinished t now (.ok ()) id status time mem err).2 id ↔
      status ∈ terminalNames := by
  constructor
  · rintro ⟨r', hr', ht⟩
    rcases markFinished_cases t now (.ok ()) id status time mem err with ⟨e, he⟩ | ⟨st, hst, hn, -⟩
    · rw [he] at hr'
      obtain rfl := Option.some_inj.1 (hr.symm.trans hr')
      simp [hrun] at ht
    · exact (mem_terminalNames_iff status).2 ⟨st, hst, hn⟩
  · intro hs
    obtain ⟨st, ht, rfl⟩ := (mem_terminalNames_iff status).1 hs
    have h := (markFinished_spec t now id st time mem err ht).2 id
    rw [hr, Option.map_some, if_pos ⟨rfl, .inr hrun⟩] at h
    exact ⟨_, h, ht⟩

theorem persist_table (result : JudgeResult) :
    (persist env t now id result).1 = (markFinished t now env.markFinished id result.status
      (some result.timeUsedMs) (some result.memoryUsedKb) result.errorMessage).2 := by
  rw [persist]
  rcases markFinished t now env.markFinished id result.status (some result.timeUsedMs)
    (some result.memoryUsedKb) result.errorMessage with ⟨_ | b, t'⟩
  · rfl
  · cases b <;> rfl

/-- Step 9 makes its calls if `mark_finished` answers true. -/
theorem persist_effects (result : JudgeResult) :
    (persist env t now id result).2 =
      if (markFinished t now env.markFinished id result.status (some result.timeUsedMs)
          (some result.memoryUsedKb) result.errorMessage).1 = .ok true then
        recordTaskMetrics env result.status ++
          (if result.status = bytes "ac" then [.tryCheckin] else []) ++
          (if env.hasNotifier then [.publish result.status
            (if result.timeUsedMs > 0 then some result.timeUsedMs else none)
            (if result.memoryUsedKb > 0 then some result.memoryUsedKb else none)
            (if result.errorMessage.isEmpty then none else some result.errorMessage)] else [])
      else [] := by
  rw [persist]
  rcases markFinished t now env.markFinished id result.status (some result.timeUsedMs)
    (some result.memoryUsedKb) result.errorMessage with ⟨_ | b, t'⟩
  · rfl
  · cases b <;> rfl

/-- The status that a run stores: the one of its result if the log was read, `se` otherwise. -/
def Stores (env : TaskEnv) (status : Bytes) : Option Bytes → Prop
  | none => status = bytes "se"
  | some logs => ∃ code, status = (parseJudgeResultJson env.floatToInt logs code).status

/-- After the claim, a run makes one call of `mark_finished`. -/
theorem judgeClaimed_table (cfg : Config) (env : TaskEnv) (t : Table) (now : Nat)
    (task : JudgeTask) : ∃ status time mem err,
      (judgeClaimed cfg env t now task).1 =
        (markFinished t now env.markFinished task.submissionId status time mem err).2 ∧
      Stores env status (containerLog env task) := by
  have hse : ∀ err, ∃ status time mem err',
      (finishSe env t now task.submissionId err).1 =
        (markFinished t now env.markFinished task.submissionId status time mem err').2 ∧
      Stores env status none := fun err => ⟨_, _, _, _, rfl, rfl⟩
  cases hdir : env.makeTaskDir with
  | error e => simpa [judgeClaimed, containerLog, hdir] using hse _
  | ok u =>
  cases hw : writeTaskJson env task with
  | error e => simpa [judgeClaimed, containerLog, hdir, hw] using hse _
  | ok u =>
  cases hc : env.create with
  | error e => simpa [judgeClaimed, createContainer, containerLog, hdir, hw, hc] using hse _
  | ok cid =>
  cases hcid : cid.isEmpty with
  | true => simpa [judgeClaimed, createContainer, containerLog, hdir, hw, hc, hcid] using hse _
  | false =>
  cases hst : env.start with
  | error e =>
    simpa [judgeClaimed, createContainer, runContainer, containerLog, hdir, hw, hc, hcid, hst]
      using hse _
  | ok u =>
  cases hwait : env.wait with
  | timeout =>
    simpa [judgeClaimed, createContainer, runContainer, containerLog, hdir, hw, hc, hcid, hst,
      hwait]
      using hse _
  | failed e =>
    simpa [judgeClaimed, createContainer, runContainer, containerLog, hdir, hw, hc, hcid, hst,
      hwait]
      using hse _
  | exit code =>
    -- the container ran: its log decides
    simp only [judgeClaimed, createContainer, runContainer, containerLog, hdir, hw, hc, hcid, hst,
      hwait, Bool.false_eq_true, if_false, persist_table]
    exact ⟨_, _, _, _, rfl, code, rfl⟩

/-- The status of a result is terminal iff the log does not name another one. -/
theorem status_mem_iff (floatToInt : Decimal → Int32) (logs : Bytes) (code : Int) :
    (parseJudgeResultJson floatToInt logs code).status ∈ terminalNames ↔ NamesTerminal logs := by
  have hse : bytes "se" ∈ terminalNames := by decide
  unfold parseJudgeResultJson
  split_ifs with he
  · rw [List.isEmpty_iff] at he
    subst he
    refine iff_of_true hse fun pre line post j s hl => ?_
    simp [splitLines] at hl
  · cases hf : (splitLines [] logs).reverse.findSome? readLine with
    | none =>
      refine iff_of_true hse fun pre line post j s hl hpost hj => ?_
      have := findSome?_reverse.2 ⟨pre, line, post, hl, hpost, hj⟩
      simp [hf] at this
    | some j =>
      constructor
      · intro h pre line post j' s hl hpost hj' hs
        have := findSome?_reverse.2 ⟨pre, line, post, hl, hpost, hj'⟩
        obtain rfl := Option.some_inj.1 (hf.symm.trans this)
        simpa [readResult, strField, hs] using h
      · intro h
        obtain ⟨pre, line, post, hl, hpost, hj⟩ := findSome?_reverse.1 hf
        simp only [readResult, strField]
        split
        · next s hs => exact h pre line post j s hl hpost hj hs
        · exact hse

/-- A claimed row is running. -/
theorem row_of_claimed (h : claimed env t task) :
    ∃ r, (markRunning t env.markRunning task.submissionId).2.row task.submissionId = some r ∧
      r.status = .running := by
  obtain ⟨-, h⟩ := h
  cases hdb : env.markRunning with
  | error e =>
    rw [hdb] at h
    cases h
  | ok u =>
    rw [hdb] at h
    obtain ⟨ha, hr⟩ := markRunning_spec t task.submissionId
    obtain ⟨r, hrow, hp⟩ : ∃ r, t.row task.submissionId = some r ∧ r.status = .pending := by
      simpa using Except.ok.inj (ha.symm.trans h)
    exact ⟨setRunning.set r, by rw [hr, hrow]; simp [hp], rfl⟩

/-- What a run stores is terminal iff the log, when it was read, does not name another status. -/
theorem mem_of_stores {status : Bytes} {log : Option Bytes} (h : Stores env status log) :
    status ∈ terminalNames ↔ ∀ logs ∈ log, NamesTerminal logs := by
  cases log with
  | none =>
    obtain rfl : status = bytes "se" := h
    simpa using (by decide : bytes "se" ∈ terminalNames)
  | some logs =>
    obtain ⟨code, rfl⟩ := h
    simpa using status_mem_iff env.floatToInt logs code

theorem runOneTask_claimed (cfg : Config) (now : Nat) (h : claimed env t task) :
    (runOneTask cfg env t now task).1 =
      (judgeClaimed cfg env (markRunning t env.markRunning task.submissionId).2 now task).1 := by
  simp only [runOneTask, h.1, h.2, Bool.not_true, Bool.false_eq_true, if_false]

/-- The status that the log names is stored in a claimed row. -/
theorem row_runOneTask (cfg : Config) (now : Nat) (hclaimed : claimed env t task)
    (hdb : env.markFinished = .ok ()) {logs : Bytes} (hlog : containerLog env task = some logs)
    {st : Status} (ht : st.terminal)
    (hst : ∀ code, (parseJudgeResultJson env.floatToInt logs code).status = st.name) :
    ∃ r, (runOneTask cfg env t now task).1.row task.submissionId = some r ∧ r.status = st := by
  obtain ⟨r, hr, hrun⟩ := row_of_claimed hclaimed
  obtain ⟨status, time, mem, err, he, hs⟩ := judgeClaimed_table cfg env
    (markRunning t env.markRunning task.submissionId).2 now task
  rw [hlog] at hs
  obtain ⟨code, hcode⟩ := hs
  rw [hst] at hcode
  have h := (markFinished_spec (markRunning t env.markRunning task.submissionId).2 now
    task.submissionId st time mem err ht).2 task.submissionId
  rw [hr, Option.map_some, if_pos ⟨rfl, .inr hrun⟩, ← hcode, ← hdb, ← he,
    ← runOneTask_claimed cfg now hclaimed] at h
  exact ⟨_, h, rfl⟩

/-- A claimed row ends in a terminal status exactly if the log of the container, when the run
    comes to reading it, does not name a status that is not terminal: its last line that reads as
    a JSON object, if there is one, has no string as `status`, or the name of a terminal status. -/
theorem runOneTask_terminal_iff (cfg : Config) (env : TaskEnv) (t : Table) (now : Nat)
    (task : JudgeTask) (hclaimed : claimed env t task) (hdb : env.markFinished = .ok ()) :
    Terminal (runOneTask cfg env t now task).1 task.submissionId ↔
      ∀ logs ∈ containerLog env task, NamesTerminal logs := by
  obtain ⟨r, hr, hrun⟩ := row_of_claimed hclaimed
  obtain ⟨status, time, mem, err, he, hst⟩ := judgeClaimed_table cfg env
    (markRunning t env.markRunning task.submissionId).2 now task
  rw [runOneTask_claimed cfg now hclaimed, he, hdb, terminal_markFinished_iff hr hrun,
    mem_of_stores hst]

/-- A table with one pending submission. -/
def oneRow : Table := (SubmissionRepo.create .empty 100 (.ok true) 7 3 (bytes "cpp") (bytes "x")).2

/-- Its task. -/
def oneTask : JudgeTask :=
  ⟨⟨1, by decide⟩, 7, 3, bytes "cpp", bytes "x", 1000, 256, 10000, [], [], []⟩

/-- Every call succeeds, and the container prints `logs`. -/
def plainEnv (logs : Bytes) : TaskEnv where
  hasClient := true
  markRunning := .ok ()
  makeTaskDir := .ok ()
  dumpError := []
  writeFile := .ok ()
  acquire := none
  discard := .ok ()
  create := .ok (bytes "c1")
  start := .ok ()
  wait := .exit 0
  logs := .ok logs
  markFinished := .ok ()
  hasMetrics := false
  hasNotifier := false
  floatToInt _ := 0

theorem claimed_oneRow (logs : Bytes) : claimed (plainEnv logs) oneRow oneTask :=
  ⟨rfl, show (markRunning oneRow (.ok ()) 1).1 = .ok true by decide +kernel⟩

/-- A log that is one object with a status. -/
def statusLog (status : Bytes) : Bytes :=
  bytes "\x7b\"status\":\"" ++ status ++ bytes "\"\x7d\n"

/-- A container that prints the verdict `ac`. -/
theorem runOneTask_terminal_ac : Terminal
    (runOneTask ⟨30, 16777216⟩ (plainEnv (statusLog (bytes "ac"))) oneRow 100 oneTask).1 1 := by
  refine (runOneTask_terminal_iff _ _ _ _ _ (claimed_oneRow _) rfl).2 fun logs hlogs => ?_
  obtain rfl := Option.some_inj.1 hlogs
  exact (status_mem_iff (fun _ => 0) _ 0).1 (by decide +kernel)

/-- A container that prints another string as the status: every call succeeds, and the row is left
    running. -/
theorem runOneTask_left_running :
    claimed (plainEnv (statusLog (bytes "accepted"))) oneRow oneTask ∧
    ((runOneTask ⟨30, 16777216⟩ (plainEnv (statusLog (bytes "accepted"))) oneRow 100
      oneTask).1.row 1).map (·.status) = some .running ∧
    ¬ Terminal (runOneTask ⟨30, 16777216⟩ (plainEnv (statusLog (bytes "accepted"))) oneRow 100
      oneTask).1 1 := by
  have h : ((runOneTask ⟨30, 16777216⟩ (plainEnv (statusLog (bytes "accepted"))) oneRow 100
      oneTask).1.row 1).map (·.status) = some .running := by decide +kernel
  refine ⟨claimed_oneRow _, h, ?_⟩
  rintro ⟨r, hr, ht⟩
  rw [hr, Option.map_some, Option.some_inj] at h
  rw [h] at ht
  cases ht

end LiteCode.JudgeScheduler
