import LiteCode.Config.LoadConfig
import LiteCode.Scheduler.Queue
import LiteCode.Scheduler.SampleRunner

/-!
# The timeouts of the judge

The setting `JUDGE_HARD_TIMEOUT_SECONDS` becomes two numbers of milliseconds: the hard timeout in
the task file, which the script keeps, and the time that the service waits for the container, which
is five seconds longer. Both are computed as `int`s, at each run of `run_one_task` and
`SampleRunner::run`.

The setting is read by `load_config`, which checks its neighbours and not this one. `start` of the
scheduler refuses a number below one (`valid_makeDefaultSchedulerConfig_iff`); the sample runner
does not, and neither has an upper limit.

* `TimeoutsExact`: both computations are exact and positive, and the wait is longer;
* `TimeoutsExact.lt_wait_runOneTask`, `TimeoutsExact.lt_wait_runBody`: then a container is awaited
  for longer than its script may take;
* `timeoutsExact_iff`: this holds of an accepted configuration exactly if the variable gives no
  number, or one within `1 .. 2147478`.
-/

namespace LiteCode.Config

open JudgeScheduler

/-! ## The computations -/

/-- The result of an operation on `int`s. An overflow is undefined. -/
def checked (n : Int) : Option Int := if IsInt32 n then some n else none

/-- `judge_hard_timeout_seconds * 1000`. -/
def hardTimeoutMs (seconds : Int) : Option Int := checked (seconds * 1000)

/-- `judge_hard_timeout_seconds * 1000 + 5000`. -/
def waitTimeoutMs (seconds : Int) : Option Int :=
  (hardTimeoutMs seconds).bind fun hard => checked (hard + 5000)

/-- `make_default_scheduler_config`. -/
def makeDefaultSchedulerConfig (c : JudgeConfig) (hasDb : Bool) : SchedulerConfig where
  judgeHardTimeoutSeconds := c.judgeHardTimeoutSeconds
  outputLimitBytes := c.outputLimitBytes
  maxConcurrent := c.maxConcurrentJudges
  maxQueueSize := Int32.ofInt c.maxQueueSize
  compileTimeoutMs := c.compileTimeoutSeconds * 1000
  hasDb

/-- The configuration that the sample runner keeps. -/
def sampleConfig (c : JudgeConfig) : SampleRunner.SampleConfig where
  judgeHardTimeoutSeconds := c.judgeHardTimeoutSeconds
  outputLimitBytes := c.outputLimitBytes
  taskDirParent := c.taskDirParent
  taskVolumeName := c.taskVolumeName
  sampleMaxCases := c.sampleMaxCases
  sampleMaxConcurrent := c.sampleMaxConcurrent

/-- The two timeouts of a configuration are the mathematical values and positive, and the container
    is awaited for longer than the script may take. -/
def TimeoutsExact (c : JudgeConfig) : Prop :=
  ∃ hard wait, hardTimeoutMs c.judgeHardTimeoutSeconds = some hard ∧
    waitTimeoutMs c.judgeHardTimeoutSeconds = some wait ∧
    hard = c.judgeHardTimeoutSeconds * 1000 ∧ wait = c.judgeHardTimeoutSeconds * 1000 + 5000 ∧
    0 < hard ∧ 0 < wait ∧ hard < wait

/-- The variable gives no number, or one that is small enough as an `int`. -/
def HardTimeoutSmall (v : Option Bytes) : Prop :=
  ∀ text ∈ v, ∀ n rest, stollRest text = some (n, rest) →
    1 ≤ IntType.int.narrow n ∧ IntType.int.narrow n ≤ 2147478

variable {env : Env} {file : Option Bytes} {envFilePath : Bytes} {overrideEnv : Bool}
  {c : AppConfig} {seconds wait ms : Int} {cid : Bytes}

theorem checked_eq_some_iff {n m : Int} : checked n = some m ↔ IsInt32 n ∧ n = m := by
  rw [checked]
  split_ifs with h
  · exact Option.some_inj.trans (and_iff_right h).symm
  · exact iff_of_false nofun fun hm => h hm.1

theorem waitTimeoutMs_eq_some_iff : waitTimeoutMs seconds = some wait ↔
    IsInt32 (seconds * 1000) ∧ IsInt32 (seconds * 1000 + 5000) ∧ seconds * 1000 + 5000 = wait := by
  simp only [waitTimeoutMs, hardTimeoutMs, Option.bind_eq_some_iff, checked_eq_some_iff]
  constructor
  · rintro ⟨hard, ⟨h, rfl⟩, hwait⟩
    exact ⟨h, hwait⟩
  · rintro ⟨h, hwait⟩
    exact ⟨_, ⟨h, rfl⟩, hwait⟩

/-- Both computations go well for these numbers of seconds. -/
theorem timeoutsExact_iff_range (c : JudgeConfig) :
    TimeoutsExact c ↔ 1 ≤ c.judgeHardTimeoutSeconds ∧ c.judgeHardTimeoutSeconds ≤ 2147478 := by
  simp only [TimeoutsExact, hardTimeoutMs, checked_eq_some_iff, waitTimeoutMs_eq_some_iff, IsInt32]
  constructor
  · rintro ⟨hard, wait, ⟨-, rfl⟩, ⟨-, hrange, rfl⟩, -, -, hpos, -⟩
    omega
  · intro h
    exact ⟨_, _, ⟨by omega, rfl⟩, ⟨by omega, by omega, rfl⟩, rfl, rfl, by omega, by omega, by omega⟩

/-! ## The runs -/

section Runs

variable {cfg : JudgeScheduler.Config} {taskEnv : TaskEnv} {t : SubmissionRepo.Table}
  {now id code : Nat} {err : Bytes} {task : JudgeTask}

@[simp]
theorem wait_notMem_finishSe : Effect.wait cid ms ∉ (finishSe taskEnv t now id err).2 := by
  rw [finishSe, recordTaskMetrics]
  split <;> simp

@[simp]
theorem wait_notMem_tryRemove {cid' : Bytes} : Effect.wait cid ms ∉ tryRemove cid' := by
  rw [tryRemove]
  split <;> simp

@[simp]
theorem wait_notMem_tryKillAndRemove {cid' : Bytes} :
    Effect.wait cid ms ∉ tryKillAndRemove cid' := by
  rw [tryKillAndRemove]
  split <;> simp

@[simp]
theorem wait_notMem_cleanupAndRelease : Effect.wait cid ms ∉ cleanupAndRelease taskEnv := by
  rw [cleanupAndRelease]
  cases poolContainer taskEnv with
  | none => simp
  | some id => cases id <;> simp

@[simp]
theorem wait_notMem_prewarm : Effect.wait cid ms ∉ prewarm taskEnv := by
  rw [prewarm]
  split <;> simp

@[simp]
theorem wait_notMem_persist {result : Judge.JudgeResult} :
    Effect.wait cid ms ∉ (persist taskEnv t now id result).2 := by
  rw [persist]
  split
  simp only
  split
  · simp only [recordTaskMetrics]
    split_ifs <;> simp
  · simp

theorem wait_of_mem_runContainer {cid' : Bytes}
    (h : Effect.wait cid ms ∈ (runContainer cfg taskEnv t now id cid').2) :
    ms = cfg.judgeHardTimeoutSeconds * 1000 + 5000 := by
  rw [runContainer] at h
  split at h
  · simp at h
  · split at h <;> simp at h <;> exact h.2

theorem wait_of_mem_createContainer
    (h : Effect.wait cid ms ∈ (createContainer cfg taskEnv t now id).2) :
    ms = cfg.judgeHardTimeoutSeconds * 1000 + 5000 := by
  rw [createContainer] at h
  split at h
  · simp at h
  · split_ifs at h
    · simp at h
    · simp only [List.mem_append, List.mem_cons, reduceCtorEq, wait_notMem_prewarm,
        false_or] at h
      exact wait_of_mem_runContainer h

/-- The scheduler waits for as long as computed. -/
theorem wait_of_mem_runOneTask (hwait : waitTimeoutMs cfg.judgeHardTimeoutSeconds = some wait)
    (hmem : Effect.wait cid ms ∈ (runOneTask cfg taskEnv t now task).2) : ms = wait := by
  rw [← (waitTimeoutMs_eq_some_iff.1 hwait).2.2]
  rw [runOneTask] at hmem
  split_ifs at hmem
  · simp at hmem
  · split at hmem
    split at hmem
    · rw [judgeClaimed] at hmem
      split at hmem
      · simp at hmem
      · split at hmem
        · simp at hmem
        · exact wait_of_mem_createContainer (by simpa using hmem)
    · simp at hmem

/-- And so does the sample runner. -/
theorem wait_of_mem_runBody {cfg : SampleRunner.SampleConfig} {sampleEnv : SampleRunner.SampleEnv}
    (hwait : waitTimeoutMs cfg.judgeHardTimeoutSeconds = some wait)
    (hmem : Effect.wait cid ms ∈ (SampleRunner.runBody cfg sampleEnv task).2) : ms = wait := by
  -- The ends of a run do not wait, so the wait is that of the started container.
  have hexit : ∀ calls message, Effect.wait cid ms ∉ calls →
      Effect.wait cid ms ∉ (SampleRunner.exit sampleEnv calls message).2 := by
    intro calls message h
    simp only [SampleRunner.exit, SampleRunner.recordRunMetrics]
    split_ifs <;> simp [h]
  have hparse : ∀ id, Effect.wait cid ms ∉ (SampleRunner.waitAndParse cfg sampleEnv id).2 := by
    intro id
    rw [SampleRunner.waitAndParse]
    split
    · exact hexit _ _ wait_notMem_tryKillAndRemove
    · exact hexit _ _ wait_notMem_tryKillAndRemove
    · simp only [SampleRunner.recordRunMetrics]
      split_ifs <;> simp
  rw [← (waitTimeoutMs_eq_some_iff.1 hwait).2.2]
  rw [SampleRunner.runBody] at hmem
  split_ifs at hmem
  · simp only [SampleRunner.recordRunMetrics] at hmem
    split_ifs at hmem <;> simp at hmem
  split at hmem
  · simp at hmem
  simp only [List.mem_cons, reduceCtorEq, false_or, SampleRunner.runInDir] at hmem
  split at hmem
  · exact absurd hmem (hexit _ _ (by simp))
  rw [SampleRunner.createContainer] at hmem
  split at hmem
  · exact absurd hmem (hexit _ _ (by simp))
  split_ifs at hmem
  · exact absurd hmem (hexit _ _ (by simp))
  simp only [List.mem_cons, reduceCtorEq, false_or, SampleRunner.startContainer] at hmem
  split at hmem
  · simp only [List.mem_cons, reduceCtorEq, false_or] at hmem
    exact absurd hmem (hexit _ _ wait_notMem_tryRemove)
  · simp only [List.mem_cons, reduceCtorEq, false_or, hparse, or_false, Effect.wait.injEq] at hmem
    exact hmem.2

/-- The task file has the hard timeout as computed. -/
theorem runHardTimeoutMs_taskFile {hard : Int}
    (h : hardTimeoutMs cfg.judgeHardTimeoutSeconds = some hard) :
    (taskFile cfg task).runHardTimeoutMs = hard := (checked_eq_some_iff.1 h).2

/-- With exact timeouts `run_one_task` waits for longer than the script may take. -/
theorem TimeoutsExact.lt_wait_runOneTask {c : JudgeConfig} (h : TimeoutsExact c)
    (hcfg : cfg.judgeHardTimeoutSeconds = c.judgeHardTimeoutSeconds)
    (hmem : Effect.wait cid ms ∈ (runOneTask cfg taskEnv t now task).2) :
    (taskFile cfg task).runHardTimeoutMs < ms := by
  obtain ⟨hard, wait, hhard, hwait, -, -, -, -, hlt⟩ := h
  rw [← hcfg] at hhard hwait
  rw [runHardTimeoutMs_taskFile hhard, wait_of_mem_runOneTask hwait hmem]
  exact hlt

/-- And so does the sample runner, with the configuration that it is given. -/
theorem TimeoutsExact.lt_wait_runBody {c : JudgeConfig} (h : TimeoutsExact c)
    {sampleEnv : SampleRunner.SampleEnv}
    (hmem : Effect.wait cid ms ∈ (SampleRunner.runBody (sampleConfig c) sampleEnv task).2) :
    c.judgeHardTimeoutSeconds * 1000 < ms := by
  obtain ⟨hard, wait, -, hwait, rfl, -, -, -, hlt⟩ := h
  rw [wait_of_mem_runBody hwait hmem]
  exact hlt

end Runs

/-! ## Accepted configurations -/

/-- `start` refuses what `load_config` does not check. -/
theorem valid_makeDefaultSchedulerConfig_iff {judge : JudgeConfig} (h : judge.Valid)
    (hasDb : Bool) : (makeDefaultSchedulerConfig judge hasDb).Valid ↔
      1 ≤ judge.judgeHardTimeoutSeconds ∧ hasDb = true := by
  have hmax := h.maxConcurrentJudges
  have hcompile := h.compileTimeoutSeconds.1
  simp only [SchedulerConfig.Valid, makeDefaultSchedulerConfig]
  constructor
  · rintro ⟨-, hhard, -, hdb⟩
    exact ⟨hhard, hdb⟩
  · rintro ⟨hhard, hdb⟩
    exact ⟨hmax, hhard, by omega, hdb⟩

/-- The setting is read and not checked. -/
theorem judgeHardTimeoutSeconds_of_loadConfig
    (h : loadConfig env file envFilePath overrideEnv = .ok c) :
    c.judge.judgeHardTimeoutSeconds =
      (effectiveEnv env file envFilePath overrideEnv).intOr .int "JUDGE_HARD_TIMEOUT_SECONDS"
        30 := by
  obtain ⟨-, -, -, hjudge, -⟩ := loadConfig_ok_iff.1 h
  rw [(loadJudge_ok_iff.1 hjudge).1]
  rfl

/-- The timeouts of an accepted configuration are exact if the variable gives no number, or one
    that is small enough; and only then. -/
theorem timeoutsExact_iff (env : Env) (file : Option Bytes) (envFilePath : Bytes)
    (overrideEnv : Bool) (c : AppConfig)
    (h : loadConfig env file envFilePath overrideEnv = .ok c) :
    TimeoutsExact c.judge ↔
      HardTimeoutSmall (effectiveEnv env file envFilePath overrideEnv
        (bytes "JUDGE_HARD_TIMEOUT_SECONDS")) := by
  rw [timeoutsExact_iff_range, judgeHardTimeoutSeconds_of_loadConfig h, Env.intOr,
    getenvIntOr_eq]
  cases effectiveEnv env file envFilePath overrideEnv (bytes "JUDGE_HARD_TIMEOUT_SECONDS") with
  | none => exact iff_of_true ⟨by decide, by decide⟩ nofun
  | some text =>
    rw [Option.bind_some, HardTimeoutSmall]
    cases hread : stollRest text with
    | none =>
      refine iff_of_true ⟨by decide, by decide⟩ ?_
      rintro _ ⟨⟩ n rest hn
      rw [hread] at hn
      cases hn
    | some p =>
      constructor
      · rintro hrange _ ⟨⟩ n rest hn
        rw [hread] at hn
        cases hn
        exact hrange
      · intro hsmall
        exact hsmall text rfl p.1 p.2 hread

/-- An environment with a secret and a value of the setting. -/
def hardTimeoutEnv (value : String) : Env := fun key =>
  if key = bytes "JWT_SECRET" then some (List.replicate 32 0x61)
  else if key = bytes "JUDGE_HARD_TIMEOUT_SECONDS" then some (bytes value)
  else none

theorem timeoutsExact_iff_sixty :
    ∃ c, loadConfig (hardTimeoutEnv "60") none [] false = .ok c ∧
      (TimeoutsExact c.judge ↔ HardTimeoutSmall (effectiveEnv (hardTimeoutEnv "60") none [] false
        (bytes "JUDGE_HARD_TIMEOUT_SECONDS"))) := by
  have hok : (loadConfig (hardTimeoutEnv "60") none [] false).toOption.isSome = true := by
    decide +kernel
  cases h : loadConfig (hardTimeoutEnv "60") none [] false with
  | error e => rw [h] at hok; cases hok
  | ok c => exact ⟨c, rfl, timeoutsExact_iff _ _ _ _ c h⟩

/-- With `2147479` the sum is no `int`. -/
theorem timeouts_overflow :
    ∃ c, loadConfig (hardTimeoutEnv "2147479") none [] false = .ok c ∧ ¬TimeoutsExact c.judge := by
  have hok : (loadConfig (hardTimeoutEnv "2147479") none [] false).toOption.any
      (fun c => c.judge.judgeHardTimeoutSeconds = 2147479) = true := by
    decide +kernel
  cases h : loadConfig (hardTimeoutEnv "2147479") none [] false with
  | error e => rw [h] at hok; cases hok
  | ok c =>
    rw [h] at hok
    refine ⟨c, rfl, fun hexact => ?_⟩
    have hrange := (timeoutsExact_iff_range c.judge).1 hexact
    have hval : c.judge.judgeHardTimeoutSeconds = 2147479 := of_decide_eq_true hok
    omega

end LiteCode.Config
