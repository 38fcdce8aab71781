import LiteCode.Lib.ListIndex
import LiteCode.Lib.System
import LiteCode.Scheduler.Cleanup
import LiteCode.Scheduler.TaskMount

/-!
# The sample runner

`SampleRunner::run` of `src/judge/sample_runner.h`: the samples of a problem are run in a fresh
container while the request waits. A semaphore bounds the number of such runs; a call that finds
no permit is refused at once.

Every call of the file system and of docker may fail, and each exit sets the error, cleans up and
records its metrics by hand. Three outcomes are not covered: `make_task_dir` is called outside of
every `try`, a log without a result gives the verdict `se` and no error, and so does a result
`se` without a message.

* `runBody`: what a run that has its permit returns, and the calls it makes (`Effect`);
* `permits_balance`: the permits and the runs in progress are as many as the semaphore began with;
* `contract_iff`: a run does what its comment says exactly if it meets none of the three outcomes.
-/

namespace LiteCode.SampleRunner

open Judge JudgeScheduler

/-! ## A run -/

/-- `JudgeConfig`: what the runner reads of it. -/
structure SampleConfig extends MountConfig where
  sampleMaxConcurrent : Int
  deriving DecidableEq, Repr

/-- `SampleRunner::Result`. -/
structure Result where
  verdict : JudgeResult := {}
  containerWallMs : Int := 0
  error : Bytes := []
  saturated : Bool := false
  deriving DecidableEq, Repr

/-- The outcomes of the calls of one run. An `.error` carries the text of the exception. Those of
    `kill`, `remove` and `remove_all` are not among them: whatever they throw is swallowed. -/
structure SampleEnv where
  hasClient : Bool
  makeTaskDir : Except Bytes Unit
  /-- The text of the exception of `dump` on a string that is not UTF-8. -/
  dumpError : Bytes
  writeFile : Except Bytes Unit
  create : Except Bytes Bytes
  start : Except Bytes Unit
  wait : Wait
  logs : Except Bytes Bytes
  hasMetrics : Bool
  wallMs : Int
  floatToInt : Decimal → Int32

/-- `write_task_json`. -/
def writeTaskJson (cfg : SampleConfig) (env : SampleEnv) (task : JudgeTask) :
    Except Bytes Unit :=
  if ∀ s ∈ (sized .sampleRunner cfg.toMountConfig task).strings, Utf8.WellFormed s then
    env.writeFile
  else .error env.dumpError

/-- `record_run_metrics`. -/
def recordRunMetrics (env : SampleEnv) (status : Bytes) : List Effect :=
  if env.hasMetrics then [.recordMetrics status] else []

/-- The result of an exit with an error. -/
def failed (message : Bytes) : Result where
  verdict := { errorMessage := message }
  error := message

/-- An exit with an error after the task directory was made. -/
def exit (env : SampleEnv) (calls : List Effect) (message : Bytes) : Result × List Effect :=
  (failed message, calls ++ .removeTaskDir :: recordRunMetrics env (bytes "se"))

/-- The result of a run whose container has exited. A log that cannot be read counts as empty. -/
def judged (env : SampleEnv) (code : Int) : Result :=
  let verdict := parseJudgeResultJson env.floatToInt (env.logs.toOption.getD []) code
  { verdict
    containerWallMs := env.wallMs
    error := if verdict.status = bytes "se" ∧ verdict.parsed = true then verdict.errorMessage
      else [] }

/-- `run` from `wait` on. -/
def waitAndParse (cfg : SampleConfig) (env : SampleEnv) (cid : Bytes) : Result × List Effect :=
  match env.wait with
  | .timeout => exit env (tryKillAndRemove cid) (bytes "judge exceeded hard timeout (" ++
      decimalInt cfg.judgeHardTimeoutSeconds ++ bytes "s)")
  | .failed e => exit env (tryKillAndRemove cid) (bytes "docker wait failed: " ++ e)
  | .exit code =>
    let r := judged env code
    (r, .logs cid :: tryRemove cid ++ .removeTaskDir :: recordRunMetrics env r.verdict.status)

/-- `run` from `start` on. -/
def startContainer (cfg : SampleConfig) (env : SampleEnv) (cid : Bytes) : Result × List Effect :=
  match env.start with
  | .error e =>
    let (r, es) := exit env (tryRemove cid) (bytes "docker start failed: " ++ e)
    (r, .start cid :: es)
  | .ok () =>
    let (r, es) := waitAndParse cfg env cid
    (r, .start cid :: .wait cid (cfg.judgeHardTimeoutSeconds * 1000 + 5000) :: es)

/-- `run` from `create` on. -/
def createContainer (cfg : SampleConfig) (env : SampleEnv) : Result × List Effect :=
  match env.create with
  | .error e => exit env [.create] (bytes "docker create failed: " ++ e)
  | .ok cid =>
    if cid.isEmpty then exit env [.create] (bytes "docker create returned empty id")
    else
      let (r, es) := startContainer cfg env cid
      (r, .create :: es)

/-- `run`, once the task directory is there. -/
def runInDir (cfg : SampleConfig) (env : SampleEnv) (task : JudgeTask) : Result × List Effect :=
  match writeTaskJson cfg env task with
  | .error e => exit env [] (bytes "write_task_json failed: " ++ e)
  | .ok () => createContainer cfg env

/-- `run` of a call that has its permit: what it returns, or the text of what it throws, and the
    calls it makes. -/
def runBody (cfg : SampleConfig) (env : SampleEnv) (task : JudgeTask) :
    Except Bytes Result × List Effect :=
  if !env.hasClient then
    (.ok (failed (bytes "docker client not configured")), recordRunMetrics env (bytes "se"))
  else match env.makeTaskDir with
    -- no `try` around this call
    | .error e => (.error e, [])
    | .ok () =>
      let (r, es) := runInDir cfg env task
      (.ok r, .makeTaskDir :: es)

/-- What a call that finds no permit returns. -/
def saturatedResult : Result where
  verdict := { errorMessage := bytes "sample runner saturated" }
  saturated := true

/-! ## Calls at the same time -/

/-- Where a call is. -/
inductive Pc
  /-- `try_acquire` has given it a permit; the calls it has made and those to come. -/
  | running (done todo : List Effect)
  /-- `try_acquire` has refused it. -/
  | refused
  /-- The destructor has given back its permit. -/
  | ended (done : List Effect)
  deriving DecidableEq

/-- A call of `run`. -/
structure Call where
  env : SampleEnv
  task : JudgeTask
  pc : Pc

/-- The semaphore and the calls. -/
structure State where
  permits : Int
  calls : List Call

/-- The next step of a call; a new one begins with `try_acquire`. -/
inductive Action
  | tryAcquire (env : SampleEnv) (task : JudgeTask)
  | call (p : Nat)
  | release (p : Nat)

/-- The call `p` goes on. -/
def State.goto (s : State) (p : Nat) (c : Call) (pc : Pc) : State :=
  { s with calls := s.calls.set p { c with pc } }

/-- One step. -/
def step (cfg : SampleConfig) (s : State) : Action → Option State
  | .tryAcquire env task =>
    if s.permits ≤ 0 then some { s with calls := s.calls ++ [⟨env, task, .refused⟩] }
    else some {
      permits := s.permits - 1
      calls := s.calls ++ [⟨env, task, .running [] (runBody cfg env task).2⟩] }
  | .call p => s.calls[p]?.bind fun c =>
    match c.pc with
    | .running done (e :: todo) => some (s.goto p c (.running (done ++ [e]) todo))
    | _ => none
  | .release p => s.calls[p]?.bind fun c =>
    match c.pc with
    | .running done [] => some { s.goto p c (.ended done) with permits := s.permits + 1 }
    | _ => none

/-- The number of permits that the constructor makes. -/
def maxRuns (cfg : SampleConfig) : Int :=
  if cfg.sampleMaxConcurrent < 1 then 1 else cfg.sampleMaxConcurrent

/-- The calls of one runner. -/
def system (cfg : SampleConfig) : System State Action where
  init s := s = ⟨maxRuns cfg, []⟩
  step := step cfg

/-- The call holds a permit. -/
def Call.inProgress (c : Call) : Bool :=
  match c.pc with
  | .running _ _ => true
  | _ => false

/-- The number of runs in progress. -/
def State.inProgress (s : State) : Nat := s.calls.countP Call.inProgress

/-! ## The contract of a run -/

/-- The result in a log: the last line that reads as a JSON object. -/
def resultIn (logs : Bytes) : Option Json := (splitLines [] logs).reverse.findSome? readLine

/-- The status of a result. -/
def statusOf (j : Json) : Bytes := strField j (bytes "status") (bytes "se")

/-- A run that makes the calls `es` gets the result `j` of `judge.sh`. -/
def Obtained (env : SampleEnv) (es : List Effect) (j : Json) : Prop :=
  ∃ cid logs, .logs cid ∈ es ∧ env.logs = .ok logs ∧ resultIn logs = some j

/-- Every container that is created is removed, or at least it is tried. -/
def Removed (env : SampleEnv) (es : List Effect) : Prop :=
  ∀ cid, env.create = .ok cid → cid ≠ [] → Followed .create (.remove cid) es

/-- What a run that ends with `x` has promised. -/
structure Contract (env : SampleEnv) (x : Except Bytes Result × List Effect) : Prop where
  returns : ∃ r, x.1 = .ok r
  removed : Removed env x.2
  error_iff : ∀ r, x.1 = .ok r →
    (r.error = [] ↔ (∃ j, Obtained env x.2 j ∧ statusOf j ≠ bytes "se") ∨ r.saturated = true)

/-- The container of a run exits. -/
structure Exits (cfg : SampleConfig) (env : SampleEnv) (task : JudgeTask) (code : Int) : Prop where
  client : env.hasClient = true
  taskDir : env.makeTaskDir = .ok ()
  written : writeTaskJson cfg env task = .ok ()
  created : ∃ cid, env.create = .ok cid ∧ cid ≠ []
  started : env.start = .ok ()
  awaited : env.wait = .exit code

/-- The outcomes that the code covers: the task directory is made, and a container that exits leaves
    a log with a result, which has a message if it is `se`. -/
structure Covered (cfg : SampleConfig) (env : SampleEnv) (task : JudgeTask) : Prop where
  taskDir : env.hasClient = true → env.makeTaskDir = .ok ()
  result : ∀ code, Exits cfg env task code → ∃ logs j, env.logs = .ok logs ∧
    resultIn logs = some j ∧ (statusOf j = bytes "se" → strField j (bytes "error_message") [] ≠ [])

variable {cfg : SampleConfig} {env : SampleEnv} {task : JudgeTask}

/-- An exit with an error. -/
structure Fails (x : Result × List Effect) : Prop where
  result : ∃ message, message ≠ [] ∧ x.1 = failed message
  logs : ∀ cid, .logs cid ∉ x.2

theorem not_mem_recordRunMetrics {e : Effect} {status : Bytes} (h : e ≠ .recordMetrics status) :
    e ∉ recordRunMetrics env status := by
  rw [recordRunMetrics]
  split_ifs <;> simp [h]

theorem mem_tryKillAndRemove {cid : Bytes} (h : cid ≠ []) : .remove cid ∈ tryKillAndRemove cid := by
  simp [tryKillAndRemove, tryRemove, h]

theorem fails_exit {calls : List Effect} {message : Bytes} (hm : message ≠ [])
    (hc : ∀ cid, .logs cid ∉ calls) : Fails (exit env calls message) := by
  refine ⟨⟨message, hm, rfl⟩, fun cid hmem => ?_⟩
  simp only [exit, List.mem_append, List.mem_cons, reduceCtorEq, false_or] at hmem
  exact hmem.elim (hc cid) (not_mem_recordRunMetrics (by simp))

/-- A message that begins with a text. -/
theorem append_ne_nil {a b : Bytes} (h : a ≠ []) : a ++ b ≠ [] :=
  List.append_ne_nil_of_left_ne_nil h b

theorem not_mem_exit {calls : List Effect} {message : Bytes} {e : Effect} (hc : e ∉ calls)
    (hdir : e ≠ .removeTaskDir) (hm : ∀ status, e ≠ .recordMetrics status) :
    e ∉ (exit env calls message).2 := by
  simp only [exit, List.mem_append, List.mem_cons, not_or]
  exact ⟨hc, hdir, not_mem_recordRunMetrics (hm _)⟩

/-- The calls of an exit that kills the container. -/
theorem not_mem_tryKillAndRemove {cid : Bytes} {e : Effect} (hk : e ≠ .kill cid)
    (hr : e ≠ .remove cid) : e ∉ tryKillAndRemove cid := by
  rw [tryKillAndRemove, tryRemove]
  split_ifs <;> simp [hk, hr]

/-- A started container is removed; the run fails, or the container exits. -/
theorem waitAndParse_cases (cfg : SampleConfig) (env : SampleEnv) {cid : Bytes} (h : cid ≠ []) :
    .remove cid ∈ (waitAndParse cfg env cid).2 ∧ .create ∉ (waitAndParse cfg env cid).2 ∧
      ((Fails (waitAndParse cfg env cid) ∧ ∀ code, env.wait ≠ .exit code) ∨
        ∃ code, env.wait = .exit code ∧ (waitAndParse cfg env cid).1 = judged env code ∧
          .logs cid ∈ (waitAndParse cfg env cid).2) := by
  have hkill : ∀ message, message ≠ [] →
      .remove cid ∈ (exit env (tryKillAndRemove cid) message).2 ∧
      .create ∉ (exit env (tryKillAndRemove cid) message).2 ∧
      Fails (exit env (tryKillAndRemove cid) message) := fun message hm =>
    ⟨List.mem_append_left _ (mem_tryKillAndRemove h),
      not_mem_exit (not_mem_tryKillAndRemove (by simp) (by simp)) (by simp) (by simp),
      fails_exit hm fun _ => not_mem_tryKillAndRemove (by simp) (by simp)⟩
  cases hw : env.wait with
  | timeout =>
    simp only [waitAndParse, hw]
    obtain ⟨hr, hc, hf⟩ := hkill _
      (append_ne_nil (append_ne_nil (a := bytes "judge exceeded hard timeout (") (by decide)))
    exact ⟨hr, hc, .inl ⟨hf, by simp⟩⟩
  | failed e =>
    simp only [waitAndParse, hw]
    obtain ⟨hr, hc, hf⟩ :=
      hkill _ (append_ne_nil (a := bytes "docker wait failed: ") (by decide))
    exact ⟨hr, hc, .inl ⟨hf, by simp⟩⟩
  | exit code =>
    simp only [waitAndParse, hw]
    refine ⟨by simp [tryRemove, h], ?_, .inr ⟨code, rfl, rfl, List.mem_cons_self⟩⟩
    simpa [tryRemove, h] using not_mem_recordRunMetrics (by simp)

/-- The calls of a run between `create` and its end: the container is removed; the run fails, or
    the container exits. -/
theorem startContainer_cases (cfg : SampleConfig) (env : SampleEnv) {cid : Bytes} (h : cid ≠ []) :
    .remove cid ∈ (startContainer cfg env cid).2 ∧ .create ∉ (startContainer cfg env cid).2 ∧
      ((Fails (startContainer cfg env cid) ∧
          ¬∃ code, env.start = .ok () ∧ env.wait = .exit code) ∨
        ∃ code, env.start = .ok () ∧ env.wait = .exit code ∧
          (startContainer cfg env cid).1 = judged env code ∧
          .logs cid ∈ (startContainer cfg env cid).2) := by
  cases hs : env.start with
  | error e =>
    simp only [startContainer, hs]
    have hf : Fails (exit env (tryRemove cid) (bytes "docker start failed: " ++ e)) :=
      fails_exit (append_ne_nil (by decide)) (by simp [tryRemove, h])
    refine ⟨?_, ?_, .inl ⟨⟨hf.result, fun x => ?_⟩, by simp⟩⟩
    · simp [exit, tryRemove, h]
    · simpa using not_mem_exit (by simp [tryRemove, h]) (by simp) (by simp)
    · simpa using hf.logs x
  | ok u =>
    simp only [startContainer, hs]
    obtain ⟨hr, hc, ⟨hf, hne⟩ | ⟨code, he, hj, hl⟩⟩ := waitAndParse_cases cfg env h
    · refine ⟨by simp [hr], by simp [hc], .inl ⟨⟨hf.result, fun x => ?_⟩, ?_⟩⟩
      · simp [hf.logs x]
      · rintro ⟨code, -, he⟩
        exact hne code he
    · exact ⟨by simp [hr], by simp [hc], .inr ⟨code, trivial, he, hj, by simp [hl]⟩⟩

/-- A run that has its directory: a created container is removed; the run fails, or the container
    exits. -/
theorem runInDir_cases (cfg : SampleConfig) (env : SampleEnv) (task : JudgeTask) :
    Removed env (runInDir cfg env task).2 ∧
      ((Fails (runInDir cfg env task) ∧ ∀ code, env.hasClient = true → env.makeTaskDir = .ok () →
          ¬Exits cfg env task code) ∨
        ∃ code, (env.hasClient = true → env.makeTaskDir = .ok () → Exits cfg env task code) ∧
          (runInDir cfg env task).1 = judged env code ∧
          ∃ cid, .logs cid ∈ (runInDir cfg env task).2) := by
  -- The run ends at the first call that fails; from the creation on, a removal follows.
  cases hw : writeTaskJson cfg env task with
  | error e =>
    simp only [runInDir, hw]
    refine ⟨fun cid _ _ => followed_of_not_mem (not_mem_exit (by simp) (by simp) (by simp)),
      .inl ⟨fails_exit (append_ne_nil (by decide)) (by simp), fun code _ _ h => ?_⟩⟩
    cases hw.symm.trans h.written
  | ok u =>
  simp only [runInDir, hw]
  cases hc : env.create with
  | error e =>
    simp only [createContainer, hc]
    refine ⟨fun cid h _ => (by cases hc.symm.trans h),
      .inl ⟨fails_exit (append_ne_nil (by decide)) (by simp), fun code _ _ h => ?_⟩⟩
    obtain ⟨cid, h, -⟩ := h.created
    cases hc.symm.trans h
  | ok cid =>
  by_cases hcid : cid = []
  · subst hcid
    simp only [createContainer, hc, List.isEmpty_nil, if_true]
    have hnone : ∀ cid, env.create = .ok cid → cid = [] := fun cid h =>
      (Except.ok.inj (hc.symm.trans h)).symm
    refine ⟨fun cid h hne => absurd (hnone cid h) hne,
      .inl ⟨fails_exit (by decide) (by simp), fun code _ _ h => ?_⟩⟩
    obtain ⟨cid, h, hne⟩ := h.created
    exact hne (hnone cid h)
  · simp only [createContainer, hc, List.isEmpty_iff, hcid, if_false]
    obtain ⟨hr, hn, hs⟩ := startContainer_cases cfg env hcid
    refine ⟨fun cid' h _ => ?_, ?_⟩
    · cases hc.symm.trans h
      exact (followed_cons hn).2 hr
    · rcases hs with ⟨hf, hne⟩ | ⟨code, hstart, hwait, hj, hl⟩
      · refine .inl ⟨⟨hf.result, fun x => ?_⟩, fun code _ _ h => hne ⟨code, h.started, h.awaited⟩⟩
        simp [hf.logs x]
      · exact .inr ⟨code, fun hclient hdir => ⟨hclient, hdir, hw, ⟨cid, hc, hcid⟩, hstart, hwait⟩,
          hj, cid, by simp [hl]⟩

/-- A run throws; or it fails; or its container exits. -/
theorem runBody_cases (cfg : SampleConfig) (env : SampleEnv) (task : JudgeTask) :
    (env.hasClient = true ∧ (∃ e, env.makeTaskDir = .error e) ∧
      ∃ e, (runBody cfg env task).1 = .error e) ∨
    Removed env (runBody cfg env task).2 ∧ (env.hasClient = true → env.makeTaskDir = .ok ()) ∧
      ((∃ message, message ≠ [] ∧ (runBody cfg env task).1 = .ok (failed message) ∧
          (∀ cid, .logs cid ∉ (runBody cfg env task).2) ∧ ∀ code, ¬Exits cfg env task code) ∨
        ∃ code, Exits cfg env task code ∧ (runBody cfg env task).1 = .ok (judged env code) ∧
          ∃ cid, .logs cid ∈ (runBody cfg env task).2) := by
  cases hclient : env.hasClient with
  | false =>
    simp only [runBody, hclient, Bool.not_false, if_true]
    refine .inr ⟨fun cid _ _ => followed_of_not_mem (not_mem_recordRunMetrics (by simp)), by simp,
      .inl ⟨_, by decide, rfl, fun cid => not_mem_recordRunMetrics (by simp), fun code h => ?_⟩⟩
    cases hclient.symm.trans h.client
  | true =>
    cases hdir : env.makeTaskDir with
    | error e =>
      exact .inl ⟨rfl, ⟨e, rfl⟩, e, by simp [runBody, hclient, hdir]⟩
    | ok u =>
      simp only [runBody, hclient, hdir, Bool.not_true, Bool.false_eq_true, if_false]
      obtain ⟨hr, hcases⟩ := runInDir_cases cfg env task
      refine .inr ⟨fun cid h hne => ⟨by simp, hr cid h hne⟩, fun _ => trivial, ?_⟩
      rcases hcases with ⟨hf, hne⟩ | ⟨code, hexit, hj, cid, hl⟩
      · obtain ⟨message, hm, hx⟩ := hf.result
        exact .inl ⟨message, hm, by rw [hx], fun cid => by simp [hf.logs cid],
          fun code => hne code hclient hdir⟩
      · exact .inr ⟨code, hexit hclient hdir, by rw [hj], cid, by simp [hl]⟩

theorem parse_of_result {floatToInt : Decimal → Int32} {logs : Bytes} {j : Json} (code : Int)
    (h : resultIn logs = some j) :
    parseJudgeResultJson floatToInt logs code = readResult floatToInt j := by
  rw [resultIn] at h
  cases logs with
  | nil => cases h
  | cons b logs =>
    simp only [parseJudgeResultJson, List.isEmpty_cons, Bool.false_eq_true, if_false, h]

theorem parsed_of_none {floatToInt : Decimal → Int32} {logs : Bytes} (code : Int)
    (h : resultIn logs = none) : (parseJudgeResultJson floatToInt logs code).parsed = false := by
  rw [resultIn] at h
  cases logs with
  | nil => rfl
  | cons b logs =>
    simp only [parseJudgeResultJson, List.isEmpty_cons, Bool.false_eq_true, if_false, h]

/-- The error of a run whose log has no result. -/
theorem judged_error_of_none {code : Int} (h : ∀ logs, env.logs = .ok logs → resultIn logs = none) :
    (judged env code).error = [] := by
  have hnone : resultIn (env.logs.toOption.getD []) = none := by
    cases hl : env.logs with
    | error e => rfl
    | ok logs => exact h logs hl
  simp [judged, parsed_of_none code hnone]

/-- The error of a run whose log has a result. -/
theorem judged_error_of_result {code : Int} {logs : Bytes} {j : Json} (hl : env.logs = .ok logs)
    (hj : resultIn logs = some j) : (judged env code).error =
      if statusOf j = bytes "se" then strField j (bytes "error_message") [] else [] := by
  simp only [judged, hl, Except.toOption, Option.getD_some, parse_of_result code hj, readResult,
    and_true, statusOf]
  split_ifs with hse <;> simp only [hse, if_true, if_false]

/-- A run whose container exits: its error is right exactly if the log has a result, and one that
    is `se` has a message. -/
theorem judged_error_iff (env : SampleEnv) (code : Int) {es : List Effect} {cid : Bytes}
    (hmem : .logs cid ∈ es) :
    ((judged env code).error = [] ↔ ∃ j, Obtained env es j ∧ statusOf j ≠ bytes "se") ↔
      ∃ logs j, env.logs = .ok logs ∧ resultIn logs = some j ∧
        (statusOf j = bytes "se" → strField j (bytes "error_message") [] ≠ []) := by
  by_cases h : ∀ logs, env.logs = .ok logs → resultIn logs = none
  · refine iff_of_false (fun he => ?_) ?_
    · obtain ⟨j, ⟨-, logs, -, hl, hj⟩, -⟩ := he.1 (judged_error_of_none h)
      cases (h logs hl).symm.trans hj
    · rintro ⟨logs, j, hl, hj, -⟩
      cases (h logs hl).symm.trans hj
  · push Not at h
    obtain ⟨logs, hl, hne⟩ := h
    obtain ⟨j, hj⟩ := Option.ne_none_iff_exists'.1 hne
    have hobtained : ∀ j', Obtained env es j' ↔ j' = j := by
      intro j'
      constructor
      · rintro ⟨-, logs', -, hl', hj'⟩
        cases hl.symm.trans hl'
        exact Option.some.inj (hj'.symm.trans hj)
      · rintro rfl
        exact ⟨cid, logs, hmem, hl, hj⟩
    have hresult : (∃ logs j, env.logs = .ok logs ∧ resultIn logs = some j ∧
        (statusOf j = bytes "se" → strField j (bytes "error_message") [] ≠ [])) ↔
        (statusOf j = bytes "se" → strField j (bytes "error_message") [] ≠ []) := by
      constructor
      · rintro ⟨logs', j', hl', hj', h⟩
        cases hl.symm.trans hl'
        obtain rfl := Option.some.inj (hj'.symm.trans hj)
        exact h
      · exact fun h => ⟨logs, j, hl, hj, h⟩
    rw [hresult, judged_error_of_result hl hj]
    simp only [hobtained, exists_eq_left]
    by_cases hse : statusOf j = bytes "se"
    · simp [hse]
    · simp [hse]

/-- What a run promises holds exactly if its outcomes are covered. -/
theorem contract_runBody (cfg : SampleConfig) (env : SampleEnv) (task : JudgeTask) :
    Contract env (runBody cfg env task) ↔ Covered cfg env task := by
  rcases runBody_cases cfg env task with ⟨hclient, ⟨e, hdir⟩, e', he⟩ | ⟨hr, hdir, hcases⟩
  · refine iff_of_false (fun h => ?_) fun h => ?_
    · obtain ⟨r, hx⟩ := h.returns
      cases he.symm.trans hx
    · cases hdir.symm.trans (h.taskDir hclient)
  · rcases hcases with ⟨message, hm, hx, hl, hno⟩ | ⟨code, hexit, hx, cid, hl⟩
    · refine iff_of_true ⟨⟨_, hx⟩, hr, fun r he => ?_⟩ ⟨hdir, fun code h => absurd h (hno code)⟩
      obtain rfl := Except.ok.inj (hx.symm.trans he)
      refine iff_of_false hm ?_
      rintro (⟨j, ⟨cid, -, hmem, -⟩, -⟩ | hs)
      · exact hl cid hmem
      · cases hs
    · have herr := judged_error_iff env code hl
      constructor
      · intro h
        refine ⟨hdir, fun _ _ => herr.1 ?_⟩
        simpa [judged] using h.error_iff _ hx
      · intro h
        refine ⟨⟨_, hx⟩, hr, fun r he => ?_⟩
        obtain rfl := Except.ok.inj (hx.symm.trans he)
        have := herr.2 (h.result code hexit)
        simpa [judged] using this

/-! ## Every call -/

/-- What a call that has ended gives back, and the calls it has made. -/
def Call.outcome (cfg : SampleConfig) (c : Call) : Option (Except Bytes Result × List Effect) :=
  match c.pc with
  | .running _ _ => none
  | .refused => some (.ok saturatedResult, [])
  | .ended done => some ((runBody cfg c.env c.task).1, done)

/-- A call that is refused keeps its promises: it is saturated. -/
theorem contract_refused (env : SampleEnv) : Contract env (.ok saturatedResult, []) := by
  refine ⟨⟨_, rfl⟩, fun _ _ _ => trivial, fun r hr => ?_⟩
  cases hr
  exact iff_of_true rfl (.inr rfl)

/-- The permits are handed round, and a run makes the calls of its body. -/
structure Inv (cfg : SampleConfig) (s : State) : Prop where
  balance : s.permits + s.inProgress = maxRuns cfg
  nonneg : 0 ≤ s.permits
  running : ∀ c ∈ s.calls, ∀ done todo, c.pc = .running done todo →
    done ++ todo = (runBody cfg c.env c.task).2
  ended : ∀ c ∈ s.calls, ∀ done, c.pc = .ended done → done = (runBody cfg c.env c.task).2

variable {s s' : State} {a : Action} {c : Call} {p : Nat}

theorem inProgress_goto (hp : s.calls[p]? = some c) (pc : Pc) :
    (s.goto p c pc).inProgress + (if c.inProgress then 1 else 0) =
      s.inProgress + if Call.inProgress { c with pc } then 1 else 0 :=
  countP_set_add hp

theorem inProgress_concat (s : State) (permits : Int) (c : Call) :
    State.inProgress ⟨permits, s.calls ++ [c]⟩ = s.inProgress + if c.inProgress then 1 else 0 := by
  rw [State.inProgress, List.countP_append, List.countP_singleton, State.inProgress]

/-- A call goes on. -/
theorem Inv.goto (h : Inv cfg s) {pc : Pc} {permits : Int}
    (hbalance : permits + (s.goto p c pc).inProgress = maxRuns cfg) (hnonneg : 0 ≤ permits)
    (hrunning : ∀ done todo, pc = .running done todo → done ++ todo = (runBody cfg c.env c.task).2)
    (hended : ∀ done, pc = .ended done → done = (runBody cfg c.env c.task).2) :
    Inv cfg { s.goto p c pc with permits } where
  balance := hbalance
  nonneg := hnonneg
  running x hx done todo hpc := by
    rcases List.mem_or_eq_of_mem_set hx with hx | rfl
    · exact h.running x hx done todo hpc
    · exact hrunning done todo hpc
  ended x hx done hpc := by
    rcases List.mem_or_eq_of_mem_set hx with hx | rfl
    · exact h.ended x hx done hpc
    · exact hended done hpc

/-- A call is added. -/
theorem Inv.concat (h : Inv cfg s) {permits : Int}
    (hbalance : permits + State.inProgress ⟨permits, s.calls ++ [c]⟩ = maxRuns cfg)
    (hnonneg : 0 ≤ permits)
    (hrunning : ∀ done todo, c.pc = .running done todo →
      done ++ todo = (runBody cfg c.env c.task).2)
    (hended : ∀ done, c.pc = .ended done → done = (runBody cfg c.env c.task).2) :
    Inv cfg ⟨permits, s.calls ++ [c]⟩ where
  balance := hbalance
  nonneg := hnonneg
  running := List.forall_mem_append.2 ⟨h.running, List.forall_mem_singleton.2 hrunning⟩
  ended := List.forall_mem_append.2 ⟨h.ended, List.forall_mem_singleton.2 hended⟩

/-- A new call is refused, or takes a permit and begins with the calls of its body. -/
theorem Inv.tryAcquire (h : Inv cfg s) {env : SampleEnv} {task : JudgeTask}
    (hs : step cfg s (.tryAcquire env task) = some s') : Inv cfg s' := by
  have hb := h.balance
  simp only [step] at hs
  split_ifs at hs with hfull <;> cases hs
  · refine h.concat ?_ h.nonneg (by simp) (by simp)
    rw [inProgress_concat]
    simpa [Call.inProgress] using hb
  · refine h.concat ?_ (by omega) ?_ (by simp)
    · rw [inProgress_concat]
      simp only [Call.inProgress, if_true]
      omega
    · rintro _ _ ⟨⟩
      rfl

theorem Inv.step (h : Inv cfg s) (hs : step cfg s a = some s') : Inv cfg s' := by
  cases a with
  | tryAcquire env task => exact h.tryAcquire hs
  | call p =>
    obtain ⟨c, hp, hs⟩ := Option.bind_eq_some_iff.1 hs
    have hc := List.mem_of_getElem? hp
    split at hs
    · next done e todo hpc =>
      cases hs
      have hcount := inProgress_goto hp (.running (done ++ [e]) todo)
      simp only [Call.inProgress, hpc, if_true] at hcount
      have hb := h.balance
      have hgoto :
          s.permits + (s.goto p c (.running (done ++ [e]) todo)).inProgress = maxRuns cfg := by
        omega
      refine h.goto hgoto h.nonneg ?_ (by simp)
      rintro _ _ ⟨⟩
      rw [← h.running c hc done (e :: todo) hpc]
      simp
    · cases hs
  | release p =>
    obtain ⟨c, hp, hs⟩ := Option.bind_eq_some_iff.1 hs
    have hc := List.mem_of_getElem? hp
    split at hs
    · next done hpc =>
      cases hs
      have hcount := inProgress_goto hp (.ended done)
      simp only [Call.inProgress, hpc, if_true, Bool.false_eq_true, if_false] at hcount
      have hb := h.balance
      have hn := h.nonneg
      refine h.goto (by omega) (by omega) (by simp) ?_
      rintro _ ⟨⟩
      rw [← h.running c hc done [] hpc, List.append_nil]
    · cases hs

theorem maxRuns_eq (cfg : SampleConfig) : maxRuns cfg = max 1 cfg.sampleMaxConcurrent := by
  rw [maxRuns]
  omega

theorem Inv.init (hs : (system cfg).init s) : Inv cfg s := by
  rw [show s = ⟨maxRuns cfg, []⟩ from hs]
  refine ⟨by simp [State.inProgress], ?_, by simp, by simp⟩
  change 0 ≤ maxRuns cfg
  rw [maxRuns_eq]
  omega

/-- A run in progress comes to its end by steps of its own. -/
theorem exec_ended (cfg : SampleConfig) (hp : s.calls[p]? = some c) {done todo : List Effect}
    (hpc : c.pc = .running done todo) : ∃ l s', (system cfg).Exec System.Always s l s' ∧
      s'.calls[p]? = some { c with pc := .ended (done ++ todo) } := by
  induction todo generalizing s c done with
  | nil =>
    have hs : step cfg s (.release p) =
        some { s.goto p c (.ended done) with permits := s.permits + 1 } := by
      simp only [step, hp, Option.bind_some, hpc]
    refine ⟨[.release p], _, .cons trivial hs (.nil _), ?_⟩
    rw [List.append_nil]
    exact getElem?_set_of_some hp
  | cons e todo ih =>
    have hs : step cfg s (.call p) = some (s.goto p c (.running (done ++ [e]) todo)) := by
      simp only [step, hp, Option.bind_some, hpc]
    have hp' : (s.goto p c (.running (done ++ [e]) todo)).calls[p]? =
        some { c with pc := .running (done ++ [e]) todo } := getElem?_set_of_some hp
    obtain ⟨l, s', hl, hs'⟩ := ih hp' rfl
    refine ⟨.call p :: l, s', .cons trivial hs hl, ?_⟩
    rw [hs', List.append_assoc, List.singleton_append]

/-- A call that finds a permit can run to its end. -/
theorem reach_ended (h : (system cfg).Reach System.Always s) (hpos : 0 < s.permits)
    (env : SampleEnv) (task : JudgeTask) : ∃ s' : State, (system cfg).Reach System.Always s' ∧
      ⟨env, task, .ended (runBody cfg env task).2⟩ ∈ s'.calls := by
  let t : State :=
    ⟨s.permits - 1, s.calls ++ [⟨env, task, .running [] (runBody cfg env task).2⟩]⟩
  have hs : (system cfg).step s (.tryAcquire env task) = some t := if_neg (by omega)
  have hp : t.calls[s.calls.length]? =
      some ⟨env, task, .running [] (runBody cfg env task).2⟩ := List.getElem?_concat_length
  obtain ⟨l, s', hl, hs'⟩ := exec_ended cfg hp rfl
  exact ⟨s', (h.step trivial hs).exec hl, List.mem_of_getElem? hs'⟩

/-- In every state that calls of one runner reach, in whatever order they go on: the permits and the
    runs in progress are as many as the semaphore began with, so that at most
    `max 1 sample_max_concurrent` runs are in progress; and a call that has ended has kept its
    promises exactly if it was refused or its outcomes are covered. -/
theorem contract_iff (cfg : SampleConfig) (s : State) (h : (system cfg).Reach System.Always s) :
    s.permits + s.inProgress = max 1 cfg.sampleMaxConcurrent ∧
    (s.inProgress : Int) ≤ max 1 cfg.sampleMaxConcurrent ∧
    ∀ c ∈ s.calls, ∀ x, c.outcome cfg = some x →
      (Contract c.env x ↔ c.pc = .refused ∨ Covered cfg c.env c.task) := by
  have hi : Inv cfg s := h.invariant (fun _ => Inv.init) fun _ _ _ ht _ hs => ht.step hs
  have hb := hi.balance
  have hn := hi.nonneg
  rw [maxRuns_eq] at hb
  refine ⟨hb, by omega, fun c hc x hx => ?_⟩
  rw [Call.outcome] at hx
  split at hx
  · cases hx
  · next hpc =>
    cases hx
    exact iff_of_true (contract_refused c.env) (.inl hpc)
  · next done hpc =>
    cases hx
    rw [hi.ended c hc done hpc, hpc]
    simp only [reduceCtorEq, false_or]
    exact contract_runBody cfg c.env c.task

/-- One run at a time. -/
def oneAtATime : SampleConfig := { composeConfig with sampleMaxConcurrent := 1 }

/-- Every call succeeds, and the container prints `logs`. -/
def printing (logs : Bytes) : SampleEnv where
  hasClient := true
  makeTaskDir := .ok ()
  dumpError := []
  writeFile := .ok ()
  create := .ok (bytes "c1")
  start := .ok ()
  wait := .exit 0
  logs := .ok logs
  hasMetrics := false
  wallMs := 0
  floatToInt _ := 0

theorem reach_idle : (system oneAtATime).Reach System.Always ⟨1, []⟩ := .init rfl

/-- A run that ends. -/
theorem contract_iff_printed : ∃ s : State, s.permits + s.inProgress = 1 ∧
    ∃ c ∈ s.calls, ∃ x, c.outcome oneAtATime = some x ∧
      (Contract c.env x ↔ c.pc = .refused ∨ Covered oneAtATime c.env c.task) := by
  obtain ⟨s, hs, hc⟩ := reach_ended reach_idle (by decide)
    (printing (bytes "\x7b\"status\":\"ac\"\x7d\n")) oneTask
  obtain ⟨hb, -, h⟩ := contract_iff oneAtATime s hs
  exact ⟨s, hb, _, hc, _, rfl, h _ hc _ rfl⟩

/-- The container prints nothing: the verdict is `se`, and there is no error. -/
theorem not_contract_empty : ∃ s : State, (system oneAtATime).Reach System.Always s ∧
    ∃ c ∈ s.calls, ∃ x, c.outcome oneAtATime = some x ∧ ¬Contract c.env x := by
  obtain ⟨s, hs, hc⟩ := reach_ended reach_idle (by decide) (printing []) oneTask
  refine ⟨s, hs, _, hc, _, rfl, fun h => ?_⟩
  have hexits : Exits oneAtATime (printing []) oneTask 0 :=
    ⟨rfl, rfl, by decide +kernel, ⟨bytes "c1", rfl, by decide⟩, rfl, rfl⟩
  obtain ⟨logs, j, hl, hj, -⟩ := ((contract_runBody _ _ _).1 h).result 0 hexits
  cases hl
  cases hj

end LiteCode.SampleRunner
