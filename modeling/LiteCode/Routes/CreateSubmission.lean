import Mathlib.Data.List.Sort
import LiteCode.Judge.Loop
import LiteCode.Judge.RoundTrip
import LiteCode.Scheduler.RunOneTask

/-!
# From a submission to its verdict

`create_submission_handler` of `src/routes/submission_routes.h`, from where the request is
authenticated and its body checked: it reads the problem, stores the submission, reads the judge
test cases and the special judge of the problem, and enqueues a task. The outcome of each read is
given (`Reads`). A worker then runs the task (`runOneTask`) in a container, whose log is what
`judgeSh` prints for the task file.

A verdict `ac` should be earned (`AcIsEarned`): the task had every judge test case of the problem,
in order, and each of them was run and accepted. The handler goes on when the test cases cannot be
read, with an empty list, and a task without test cases is accepted. So the verdict is earned
exactly if the test cases are read, or there are none, or no task is made
(`acIsEarned_iff`).
-/

namespace LiteCode.SubmissionRoutes

open SubmissionRepo Judge JudgeScheduler

/-- A text of the database, whose character set is UTF-8. -/
abbrev DbText := {t : Bytes // Utf8.WellFormed t}

/-- A row of `test_cases`: what the handler reads of it, and the columns of the query. -/
structure TestCaseRow where
  id : Nat
  input : DbText
  expectedOutput : DbText
  judgeType : DbText
  isSample : Bool
  orderNum : Int

/-- What the database stores for a problem: its limits, its test cases and its special judge. -/
structure Stored where
  /-- The limits of the problem, if it is there and not deleted. -/
  problem : Option (Int × Int)
  testCases : List TestCaseRow
  /-- The source and the language of the special judge. -/
  spj : Option (DbText × DbText)

/-- `ORDER BY order_num ASC, id ASC`. -/
def Before (a b : TestCaseRow) : Prop :=
  a.orderNum < b.orderNum ∨ a.orderNum = b.orderNum ∧ a.id ≤ b.id

instance : DecidableRel Before := fun _ _ => inferInstanceAs (Decidable (_ ∨ _))

/-- The judge test cases of the problem. -/
def Stored.judgeCases (stored : Stored) : List TestCaseRow :=
  stored.testCases.filter fun c => !c.isSample

/-- `list_for_problem` for the judge test cases. -/
def listForProblem (stored : Stored) : List TestCaseRow :=
  stored.judgeCases.insertionSort Before

/-- The outcomes of the reads of the handler. -/
structure Reads where
  find : Except Bytes Unit
  list : Except Bytes Unit
  spj : Except Bytes Unit

/-- The fields of a request that passed the checks of the body, and the user. -/
structure Request where
  userId : Int
  problemId : Int
  language : Bytes
  code : Bytes

/-- A test case of the task: the handler sends no `float_epsilon`. -/
def TestCaseRow.toInput (c : TestCaseRow) : TestCase :=
  ⟨c.input, c.expectedOutput, c.judgeType, none, c.orderNum⟩

/-- The task that the handler builds for a stored submission. A read that throws leaves the
    members it would set as they are. -/
def buildTask (req : Request) (limits : Int × Int) (stored : Stored) (reads : Reads)
    (id : Fin (2 ^ 31)) : JudgeTask where
  submissionId := id
  userId := req.userId
  problemId := req.problemId
  language := req.language
  code := req.code
  timeLimitMs := limits.1
  memoryLimitMb := limits.2
  compileTimeoutMs := 10000
  testCases := match reads.list with
    | .ok () => (listForProblem stored).map (·.toInput)
    | .error _ => []
  spjSource := match reads.spj, stored.spj with
    | .ok (), some spj => spj.1
    | _, _ => []
  spjLanguage := match reads.spj, stored.spj with
    | .ok (), some spj => spj.2
    | _, _ => []

/-- The response of the handler. -/
inductive Response
  | internalError (message : Bytes)
  | problemDoesNotExist
  | queueFull (submissionId : Nat)
  | created (submissionId : Nat)

/-- `create_submission_handler`: the response, the table after it, and the task if one was
    enqueued. `insert` is the outcome of the statement that stores the submission; `enqueue` is
    what the scheduler answers, if there is one. -/
def createSubmissionHandler (t : Table) (now : Nat) (req : Request) (stored : Stored)
    (reads : Reads) (insert : Except Bytes Bool) (enqueue : Option Bool) :
    Response × Table × Option JudgeTask :=
  match reads.find, stored.problem with
  | .error e, _ => (.internalError (bytes "internal error: " ++ e), t, none)
  | .ok (), none => (.problemDoesNotExist, t, none)
  | .ok (), some limits =>
    match create t now insert req.userId req.problemId req.language req.code with
    | (.error e, t) => (.internalError (bytes "internal error: " ++ e), t, none)
    | (.ok none, t) => (.problemDoesNotExist, t, none)
    | (.ok (some id), t) =>
      -- the id is an `int`, and one that is not positive is refused
      if h : id < 2 ^ 31 then
        match enqueue with
        | none => (.created id, t, none)
        | some false => (.queueFull id, t, none)
        | some true => (.created id, t, some (buildTask req limits stored reads ⟨id, h⟩))
      else (.problemDoesNotExist, t, none)

/-- What `judge.sh` does in the container of a task, which finds the task file or does not. -/
def containerOutcome (cfg : Config) (task : JudgeTask) (mounted : Bool) (shell : Judge.Env) :
    Outcome :=
  judgeSh (if mounted then .task (taskFile cfg task) else .noSubmissionId) shell

/-- The row `id` has the verdict `ac`. -/
def Accepted (t : Table) (id : Nat) : Prop := ∃ r, t.row id = some r ∧ r.status = .ac

/-- The task had every judge test case of the problem, in order, and each was run and accepted. -/
def Earned (stored : Stored) (task : JudgeTask) (outcome : Outcome) : Prop :=
  ∃ cases : List TestCaseRow, cases.Perm stored.judgeCases ∧ cases.Pairwise Before ∧
    task.testCases = cases.map (·.toInput) ∧
    outcome.results = (List.range cases.length).map fun i => (i, .ac)

/-- Every submission to the problem under these reads, however it is judged: if judging it gives
    it the verdict `ac`, this is earned. -/
def AcIsEarned (stored : Stored) (reads : Reads) : Prop :=
  ∀ t now req insert enqueue task,
    (createSubmissionHandler t now req stored reads insert enqueue).2.2 = some task →
    ∀ cfg env t' now' mounted shell,
      -- the log is what the script prints, if it can be read
      (env.logs = .ok (containerOutcome cfg task mounted shell).stdout ∨
        ∃ e, env.logs = .error e) →
      ¬Accepted t' task.submissionId →
      Accepted (runOneTask cfg env t' now' task).1 task.submissionId →
      Earned stored task (containerOutcome cfg task mounted shell)

/-! ## How a row gets its verdict -/

variable {t : Table} {now id : Nat}

/-- A row that `mark_finished` accepts was accepted before, or it is called with `ac`. -/
theorem accepted_markFinished {db : Sql} {id' : Nat} {status err : Bytes} {time mem : Option Int}
    (h : Accepted (markFinished t now db id' status time mem err).2 id) :
    Accepted t id ∨ status = bytes "ac" := by
  rcases markFinished_cases t now db id' status time mem err with ⟨e, he⟩ | ⟨st, ht, rfl, rfl⟩
  · rw [he] at h
    exact .inl h
  · obtain ⟨r, hr, hac⟩ := h
    rw [(markFinished_spec t now id' st time mem err ht).2 id] at hr
    obtain ⟨r', hr', rfl⟩ := Option.map_eq_some_iff.1 hr
    split_ifs at hac
    · exact .inr (congrArg Status.name hac)
    · exact .inl ⟨r', hr', hac⟩

theorem accepted_markRunning {db : Sql} {id' : Nat} (h : Accepted (markRunning t db id').2 id) :
    Accepted t id := by
  cases db with
  | error e => exact h
  | ok u =>
    obtain ⟨r, hr, hac⟩ := h
    rw [(markRunning_spec t id').2 id] at hr
    obtain ⟨r', hr', rfl⟩ := Option.map_eq_some_iff.1 hr
    split_ifs at hac
    · cases hac
    · exact ⟨r', hr', hac⟩

/-- A run that accepts a row has read a log that says so. -/
theorem accepted_runOneTask {cfg : Config} {env : TaskEnv} {task : JudgeTask}
    (hn : ¬Accepted t id) (h : Accepted (runOneTask cfg env t now task).1 id) :
    ∃ logs code, containerLog env task = some logs ∧
      (parseJudgeResultJson env.floatToInt logs code).status = bytes "ac" := by
  have hse : bytes "se" ≠ bytes "ac" := by decide
  rw [runOneTask] at h
  split_ifs at h with hc
  · exact ((accepted_markFinished h).elim hn hse).elim
  · have hn' : ¬Accepted (markRunning t env.markRunning task.submissionId).2 id :=
      fun h => hn (accepted_markRunning h)
    dsimp only at h
    split at h
    · obtain ⟨status, time, mem, err, he, hst⟩ := judgeClaimed_table cfg env
        (markRunning t env.markRunning task.submissionId).2 now task
      rw [he] at h
      have hac := (accepted_markFinished h).resolve_left hn'
      subst hac
      cases hl : containerLog env task with
      | none =>
        rw [hl] at hst
        exact absurd hst.symm hse
      | some logs =>
        rw [hl] at hst
        obtain ⟨code, hcode⟩ := hst
        exact ⟨logs, code, rfl, hcode.symm⟩
    · exact absurd h hn'

theorem containerLog_eq {env : TaskEnv} {task : JudgeTask} {logs : Bytes}
    (h : containerLog env task = some logs) : logs = env.logs.toOption.getD [] := by
  unfold containerLog at h
  split at h
  · split_ifs at h
    split at h
    · exact (Option.some_inj.1 h).symm
    · cases h
  · cases h

/-- The task of a request, if one is enqueued. -/
theorem task_of_handler {req : Request} {stored : Stored} {reads : Reads}
    {insert : Except Bytes Bool} {enqueue : Option Bool} {task : JudgeTask}
    (h : (createSubmissionHandler t now req stored reads insert enqueue).2.2 = some task) :
    reads.find = .ok () ∧ ∃ limits id, stored.problem = some limits ∧
      task = buildTask req limits stored reads id := by
  unfold createSubmissionHandler at h
  split at h
  · cases h
  · cases h
  · next limits hfind hprob =>
    refine ⟨hfind, limits, ?_⟩
    split at h
    · cases h
    · cases h
    · split_ifs at h
      split at h
      · cases h
      · cases h
      · exact ⟨_, hprob, (Option.some_inj.1 h).symm⟩

/-! ## Earned verdicts -/

instance : Std.Total Before := ⟨fun a b => by unfold Before; omega⟩

instance : IsTrans TestCaseRow Before := ⟨fun a b c => by unfold Before; omega⟩

/-- The test cases are known to the handler: it reads them, or there are none; or it makes no
    task. -/
def CasesKnown (stored : Stored) (reads : Reads) : Prop :=
  reads.list = .ok () ∨ stored.judgeCases = [] ∨ stored.problem = none ∨ reads.find ≠ .ok ()

theorem testCases_buildTask {req : Request} {limits : Int × Int} {stored : Stored} {reads : Reads}
    {id : Fin (2 ^ 31)} (h : reads.list = .ok () ∨ stored.judgeCases = []) :
    (buildTask req limits stored reads id).testCases = (listForProblem stored).map (·.toInput) := by
  rcases h with h | h
  · simp [buildTask, h]
  · have hl : listForProblem stored = [] := by simp [listForProblem, h]
    rw [hl, buildTask]
    split <;> simp_all

theorem earned_of_known {stored : Stored} {reads : Reads} (hk : CasesKnown stored reads) :
    AcIsEarned stored reads := by
  intro t now req insert enqueue task htask cfg env t' now' mounted shell hlogs hn hacc
  obtain ⟨hfind, limits, id, hprob, rfl⟩ := task_of_handler htask
  have hcases : reads.list = .ok () ∨ stored.judgeCases = [] := by
    -- in the last two cases there is no task
    rcases hk with h | h | h | h
    · exact .inl h
    · exact .inr h
    · simp [hprob] at h
    · exact absurd hfind h
  have htc : (buildTask req limits stored reads id).testCases = (listForProblem stored).map
      (·.toInput) := testCases_buildTask hcases
  obtain ⟨logs, code, hlog, hac⟩ := accepted_runOneTask hn hacc
  have hl := containerLog_eq hlog
  -- the log is what the script printed
  have hout : logs = (containerOutcome cfg (buildTask req limits stored reads id) mounted
      shell).stdout := by
    rcases hlogs with h | ⟨e, h⟩
    · rw [hl, h]
      rfl
    · rw [h] at hl
      obtain rfl : logs = [] := hl
      exact absurd hac (show bytes "se" ≠ bytes "ac" by decide)
  rw [hout] at hac
  have hres := ac_of_stdout hac
  -- without the task file the script ends in `die_se`
  cases mounted with
  | false =>
    rcases hres with ⟨sid, h⟩ | ⟨f, h, -⟩ <;> cases h
  | true =>
    refine ⟨listForProblem stored, List.perm_insertionSort _ _, List.pairwise_insertionSort _ _,
      htc, ?_⟩
    have := judgeSh_ac hres
    rw [containerOutcome, if_pos rfl, this]
    simp [taskFile, htc]

/-! ## A verdict that is not earned -/

/-- The status of a result does not depend on the exit status of the container. -/
theorem status_parse_code (floatToInt : Decimal → Int32) (logs : Bytes) (code code' : Int) :
    (parseJudgeResultJson floatToInt logs code).status =
      (parseJudgeResultJson floatToInt logs code').status := by
  unfold parseJudgeResultJson
  split_ifs
  · rfl
  · split <;> rfl

/-- A submission to a problem, and its task when the test cases were not read. -/
def lostRequest : Request := ⟨7, 3, bytes "cpp", bytes "x"⟩

theorem handler_lostRequest {limits : Int × Int} {stored : Stored} {reads : Reads}
    (hfind : reads.find = .ok ()) (hprob : stored.problem = some limits) :
    (createSubmissionHandler .empty 100 lostRequest stored reads (.ok true) (some true)).2.2 =
      some (buildTask lostRequest limits stored reads 1) := by
  simp only [createSubmissionHandler, hfind, hprob]
  rfl

/-- A task without test cases is accepted. -/
theorem judgeSh_noCases {f : TaskFile} {shell : Judge.Env} (hcode : f.code = bytes "x")
    (hlang : f.language = bytes "cpp") (h : f.testCases = []) :
    judgeSh (.task f) shell = .noCases f.submissionId := by
  have hc : ¬((jqRaw (bytes "x")).isEmpty ∨ jqRaw (bytes "x") = bytes "null") := by decide
  have hl : ¬(f.languageVar ≠ bytes "cpp" ∧ f.languageVar ≠ bytes "c") := by
    rw [TaskFile.languageVar, hlang]
    decide
  simp only [judgeSh, hcode, if_neg hc, if_neg hl, h, List.isEmpty_nil, if_true]

/-- The strings of the task are UTF-8, so that its file is written. -/
theorem wellFormed_lost {limits : Int × Int} {stored : Stored} {reads : Reads} {e : Bytes}
    (hlist : reads.list = .error e) :
    ∀ s ∈ (buildTask lostRequest limits stored reads 1).strings, Utf8.WellFormed s := by
  have htc : (buildTask lostRequest limits stored reads 1).testCases = [] := by
    simp [buildTask, hlist]
  have hspj : Utf8.WellFormed (buildTask lostRequest limits stored reads 1).spjSource ∧
      Utf8.WellFormed (buildTask lostRequest limits stored reads 1).spjLanguage := by
    simp only [buildTask]
    constructor
    · split
      · exact Subtype.property _
      · decide
    · split
      · exact Subtype.property _
      · decide
  simp only [JudgeTask.strings, htc, List.flatMap_nil, List.append_nil, List.forall_mem_cons]
  exact ⟨show Utf8.WellFormed (bytes "cpp") by decide, show Utf8.WellFormed (bytes "x") by decide,
    hspj.1, hspj.2, fun _ h => absurd h List.not_mem_nil⟩

/-- What the script prints for the first submission, without test cases. -/
def lostLog : Bytes := noCasesLine oneTask.submissionId ++ [0x0A]

theorem status_lostLog : (parseJudgeResultJson (fun _ => 0) lostLog 0).status = Status.ac.name := by
  decide +kernel

/-- When the test cases cannot be read, the submission is judged without any and accepted. -/
theorem accepted_lost {limits : Int × Int} {stored : Stored} {reads : Reads} {e : Bytes}
    (hlist : reads.list = .error e) (cfg : Config) :
    Accepted (runOneTask cfg (plainEnv lostLog) oneRow 100
      (buildTask lostRequest limits stored reads 1)).1 1 := by
  have hclaimed : claimed (plainEnv lostLog) oneRow (buildTask lostRequest limits stored reads 1) :=
    claimed_oneRow lostLog
  have hlog : containerLog (plainEnv lostLog) (buildTask lostRequest limits stored reads 1) =
      some lostLog := by
    have hw : writeTaskJson (plainEnv lostLog) (buildTask lostRequest limits stored reads 1) =
        .ok () := if_pos (wellFormed_lost hlist)
    rw [containerLog, hw]
    rfl
  exact row_runOneTask cfg 100 hclaimed rfl hlog (by decide) fun code =>
    (status_parse_code _ _ code 0).trans status_lostLog

/-- An accepted submission may have skipped every test case, if they could not be read. -/
theorem not_acIsEarned {limits : Int × Int} {stored : Stored} {reads : Reads} {e : Bytes}
    (hfind : reads.find = .ok ()) (hprob : stored.problem = some limits)
    (hlist : reads.list = .error e) (hne : stored.judgeCases ≠ []) : ¬AcIsEarned stored reads := by
  intro h
  have htc : (buildTask lostRequest limits stored reads 1).testCases = [] := by
    simp [buildTask, hlist]
  have hout : containerOutcome ⟨30, 16777216⟩ (buildTask lostRequest limits stored reads 1) true
      escEnv = .noCases 1 := judgeSh_noCases rfl rfl htc
  have hnot : ¬Accepted oneRow 1 := by
    rintro ⟨r, hr, hac⟩
    have hrow : (oneRow.row 1).map (·.status) = some .pending := by decide +kernel
    rw [hr, Option.map_some, Option.some_inj, hac] at hrow
    cases hrow
  obtain ⟨cases, hperm, -, hmap, -⟩ := h .empty 100 lostRequest (.ok true) (some true) _
    (handler_lostRequest hfind hprob) ⟨30, 16777216⟩ (plainEnv lostLog) oneRow 100 true escEnv
    (.inl (by rw [hout]; rfl)) hnot (accepted_lost hlist _)
  rw [htc, eq_comm, List.map_eq_nil_iff] at hmap
  subst hmap
  exact hne (List.nil_perm.1 hperm)

/-- Every verdict `ac` is earned exactly if the handler knows the test cases: it reads them, or
    the problem has no judge test cases, or no task is made because the problem is not found. -/
theorem acIsEarned_iff (stored : Stored) (reads : Reads) :
    AcIsEarned stored reads ↔ CasesKnown stored reads := by
  refine ⟨fun h => ?_, earned_of_known⟩
  by_contra hk
  simp only [CasesKnown, not_or, not_not] at hk
  obtain ⟨hlist, hne, hprob, hfind⟩ := hk
  obtain ⟨limits, hprob⟩ := Option.ne_none_iff_exists'.1 hprob
  cases hl : reads.list with
  | ok u => exact hlist hl
  | error e => exact not_acIsEarned hfind hprob hl hne h

/-- A problem with one judge test case. -/
def oneCase : Stored where
  problem := some (1000, 256)
  testCases := [⟨1, ⟨bytes "1", by decide⟩, ⟨bytes "2", by decide⟩, ⟨bytes "exact", by decide⟩,
    false, 0⟩]
  spj := none

/-- The database fails while the test cases are read. -/
def lostReads : Reads := ⟨.ok (), .error (bytes "lost connection"), .ok ()⟩

/-- The submission is accepted although its only test case was not judged. -/
theorem lost_not_earned :
    (∃ task, (createSubmissionHandler .empty 100 lostRequest oneCase lostReads (.ok true)
        (some true)).2.2 = some task ∧ task.testCases = [] ∧
      Accepted (runOneTask ⟨30, 16777216⟩ (plainEnv lostLog) oneRow 100 task).1 1) ∧
    oneCase.judgeCases.length = 1 ∧ ¬AcIsEarned oneCase lostReads :=
  ⟨⟨_, handler_lostRequest rfl rfl, rfl, accepted_lost rfl _⟩, rfl,
    not_acIsEarned rfl rfl rfl (by simp [Stored.judgeCases, oneCase])⟩

end LiteCode.SubmissionRoutes
