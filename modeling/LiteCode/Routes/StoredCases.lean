import LiteCode.Judge.Comparator
import LiteCode.Routes.CreateSubmission
import LiteCode.Scheduler.TaskMount

/-!
# From a stored test case to its comparison

A row of `test_cases` goes through four hands before it is compared: `list_for_problem` selects
columns of it, a handler copies them into the task, the task file carries them, and `judge.sh`
stages them as files. There are two such ways, for a submission (`create_submission_handler`) and
for a run of the samples (`run_samples_handler`, then `SampleRunner::run`).

The judge type of the row arrives, and so do its texts, except that the script adds a newline to a
text that does not end with one. The column `float_epsilon` is not among the selected ones, and both
handlers leave it out: the script then uses its default for every row. `cases_judged_iff` says for
which rows the comparison is the stored one.
-/

namespace LiteCode.SubmissionRoutes

open SubmissionRepo Judge JudgeScheduler

/-- A row of `test_cases`, with all its columns. -/
structure CaseRow where
  id : Nat
  input : DbText
  expectedOutput : DbText
  isSample : Bool
  orderNum : Int
  judgeType : JudgeType
  floatEpsilon : Option Decimal

/-- The selected columns of a row. -/
def CaseRow.toSample (row : CaseRow) : TestCaseRow where
  id := row.id
  input := row.input
  expectedOutput := row.expectedOutput
  judgeType := ⟨row.judgeType.name, by cases row.judgeType <;> decide⟩
  isSample := row.isSample
  orderNum := row.orderNum

/-- A problem with the rows of its test cases. -/
structure Problem where
  limits : Option (Int × Int)
  rows : List CaseRow
  spj : Option (DbText × DbText)

/-- What the handlers can read of it. -/
def Problem.stored (p : Problem) : Stored := ⟨p.limits, p.rows.map (·.toSample), p.spj⟩

/-- The samples, or the judge test cases, in their order. -/
def Problem.cases (p : Problem) (sample : Bool) : List CaseRow :=
  (p.rows.filter (·.isSample == sample)).insertionSort fun a b => Before a.toSample b.toSample

/-- `list_for_problem` for the samples. -/
def listSamples (stored : Stored) : List TestCaseRow :=
  (stored.testCases.filter (·.isSample)).insertionSort Before

/-- The errors of `run_samples_handler`. -/
inductive SampleError
  | internalError (message : Bytes)
  | problemDoesNotExist
  | noSamples
  | notConfigured

theorem zero_lt_ids : 0 < 2 ^ 31 := by decide

/-- The id of a task that is for no submission. -/
def noSubmission : Fin (2 ^ 31) := ⟨0, zero_lt_ids⟩

/-- `run_samples_handler` up to the call of the sample runner, if there is one: the task it is
    called with. -/
def runSamplesHandler (req : Request) (stored : Stored) (reads : Reads) (configured : Bool) :
    Except SampleError JudgeTask :=
  match reads.find, stored.problem with
  | .error e, _ => .error (.internalError (bytes "internal error: " ++ e))
  | .ok (), none => .error .problemDoesNotExist
  | .ok (), some limits =>
    match reads.list with
    | .error e => .error (.internalError (bytes "internal error: " ++ e))
    | .ok () =>
      if (listSamples stored).isEmpty then .error .noSamples
      else if !configured then .error .notConfigured
      -- the other members are set as for a submission, with the id 0
      else .ok { buildTask req limits stored reads noSubmission with
        testCases := ((listSamples stored).take 4).map (·.toInput) }

/-- The script compares the case `tc` as the row says: with its texts, without BOM and CRs, by its
    judge type, and with its tolerance, if it has one. -/
structure JudgedBy (row : CaseRow) (tc : TestCase) : Prop where
  input : (stageCase tc).input = stripCrlf (stripBom row.input)
  expected : (stageCase tc).expected = stripCrlf (stripBom row.expectedOutput)
  call : ∀ out, compareCall (stageCase tc) out = some (row.judgeType.call (stageCase tc) out)
  epsilon : row.judgeType = .floatEps → ∀ e ∈ row.floatEpsilon,
    (stageCase tc).floatEpsilon = e.toRat
  /-- The answer of the call decides the case. -/
  verdict : row.judgeType ≠ .special → ∀ σ r out,
    compareCase σ tc r out = .ok (compared tc r out row.judgeType.reject)

/-- Every line of the texts of the row ends with a newline, and its tolerance, if it is used, is the
    default of the script. -/
structure CaseRow.Plain (row : CaseRow) : Prop where
  input : Newlined (stripCrlf (stripBom row.input))
  expected : Newlined (stripCrlf (stripBom row.expectedOutput))
  epsilon : row.judgeType = .floatEps → ∀ e ∈ row.floatEpsilon, e.toRat = 1 / 1000000

/-- A row is judged as it is stored exactly if nothing of it is lost on the way. -/
theorem judgedBy_toInput_iff (row : CaseRow) :
    JudgedBy row row.toSample.toInput ↔ row.Plain := by
  have hstaged : (stageCase row.toSample.toInput).floatEpsilon = 1 / 1000000 := rfl
  constructor
  · intro h
    refine ⟨(normalizedFile_eq_iff _).1 h.input, (normalizedFile_eq_iff _).1 h.expected, ?_⟩
    intro hk e he
    rw [← h.epsilon hk e he, hstaged]
  · intro h
    have hk : JudgeType.ofName? (stageCase row.toSample.toInput).judgeType = some row.judgeType :=
      JudgeType.ofName?_jqRaw row.judgeType
    refine ⟨(normalizedFile_eq_iff _).2 h.input, (normalizedFile_eq_iff _).2 h.expected,
      fun out => ?_, fun hf e he => ?_, fun hs _ _ _ => compareCase_of_call hk hs⟩
    · rw [compareCall, hk, Option.map_some]
    · rw [hstaged, h.epsilon hf e he]

/-! ## The cases of a task -/

variable {p : Problem}

/-- The rows of one kind, in the order of their numbers. -/
theorem filter_map_toSample (p : Problem) (sample : Bool) :
    (p.stored.testCases.filter fun c => c.isSample == sample).insertionSort Before =
      (p.cases sample).map (·.toSample) := by
  rw [Problem.cases, List.map_insertionSort _ Before CaseRow.toSample _ fun _ _ _ _ => Iff.rfl,
    Problem.stored, List.filter_map]
  rfl

/-- What `list_for_problem` reads. -/
theorem listForProblem_stored (p : Problem) :
    listForProblem p.stored = (p.cases false).map (·.toSample) := by
  rw [← filter_map_toSample, listForProblem, Stored.judgeCases]
  congr 2
  funext c
  cases c.isSample <;> rfl

/-- What `list_samples_for_problem` reads. -/
theorem listSamples_stored (p : Problem) :
    listSamples p.stored = (p.cases true).map (·.toSample) := by
  rw [← filter_map_toSample, listSamples]
  congr 2
  funext c
  cases c.isSample <;> rfl

/-- The rows arrive one by one. -/
theorem forall₂_judgedBy_iff (rows : List CaseRow) :
    List.Forall₂ (fun row tc => JudgedBy row tc ↔ row.Plain) rows
      ((rows.map (·.toSample)).map (·.toInput)) := by
  induction rows with
  | nil => exact .nil
  | cons row rows ih => exact .cons (judgedBy_toInput_iff row) ih

/-- The rows of the judge test cases that the handler reads. -/
def Problem.read (p : Problem) (list : Except Bytes Unit) : List CaseRow :=
  match list with
  | .ok () => p.cases false
  | .error _ => []

/-- The cases of a run of the samples. -/
theorem testCases_runSamplesHandler {req : Request} {stored : Stored} {reads : Reads}
    {configured : Bool} {task : JudgeTask} {cfg : MountConfig}
    (h : runSamplesHandler req stored reads configured = .ok task) :
    (taskFile cfg.toConfig (sized .sampleRunner cfg task)).testCases =
      ((listSamples stored).take (min (max 1 cfg.sampleMaxCases).toNat 4)).map (·.toInput) := by
  unfold runSamplesHandler at h
  split at h
  · cases h
  · cases h
  · split at h
    · cases h
    · split_ifs at h
      cases h
      simp only [taskFile, sized, ← List.map_take, List.take_take]

/-- In every submission, and in every run of the samples, the script compares the cases of the plain
    rows as these say, and no others. -/
theorem cases_judged_iff (p : Problem) (reads : Reads) (cfg : MountConfig) :
    (∀ t now req insert enqueue task,
      (createSubmissionHandler t now req p.stored reads insert enqueue).2.2 = some task →
      List.Forall₂ (fun row tc => JudgedBy row tc ↔ row.Plain) (p.read reads.list)
        (taskFile cfg.toConfig (sized .runOneTask cfg task)).testCases) ∧
    ∀ req configured task, runSamplesHandler req p.stored reads configured = .ok task →
      List.Forall₂ (fun row tc => JudgedBy row tc ↔ row.Plain)
        ((p.cases true).take (min 4 (max 1 cfg.sampleMaxCases).toNat))
        (taskFile cfg.toConfig (sized .sampleRunner cfg task)).testCases := by
  constructor
  · intro t now req insert enqueue task h
    obtain ⟨-, limits, id, -, rfl⟩ := task_of_handler h
    cases hl : reads.list with
    | error e =>
      simp only [taskFile, sized, buildTask, hl]
      exact .nil
    | ok =>
      simp only [taskFile, sized, buildTask, hl, listForProblem_stored]
      exact forall₂_judgedBy_iff _
  · intro req configured task h
    rw [testCases_runSamplesHandler h, listSamples_stored, ← List.map_take, Nat.min_comm]
    exact forall₂_judgedBy_iff _

/-- A case with a tolerance of one hundredth. -/
def looseRow (sample : Bool) : CaseRow where
  id := 1
  input := ⟨bytes "3\n", by decide⟩
  expectedOutput := ⟨bytes "1.5\n", by decide⟩
  isSample := sample
  orderNum := 0
  judgeType := .floatEps
  floatEpsilon := some ⟨false, 1, -2⟩

/-- A case without a tolerance of its own. -/
def defaultRow : CaseRow := { looseRow false with id := 2, floatEpsilon := none }

/-- A problem with these two, and with a sample like the first one. -/
def looseProblem : Problem := ⟨some (1000, 256), [looseRow false, defaultRow, looseRow true], none⟩

/-- A submission to it. -/
def looseRequest : Request := ⟨7, 3, bytes "cpp", bytes "x"⟩

/-- Every read succeeds. -/
def goodReads : Reads := ⟨.ok (), .ok (), .ok ()⟩

/-- The task of the submission, and that of a run of the samples. -/
def looseTask : JudgeTask :=
  buildTask looseRequest (1000, 256) looseProblem.stored goodReads oneTask.submissionId

def looseSamples : JudgeTask :=
  { buildTask looseRequest (1000, 256) looseProblem.stored goodReads noSubmission with
    testCases := [(looseRow true).toSample.toInput] }

/-- The cases that the script finds in the task file, in both ways. -/
def submittedCases : List TestCase :=
  (taskFile composeConfig.toConfig (sized .runOneTask composeConfig looseTask)).testCases

def sampledCases : List TestCase :=
  (taskFile composeConfig.toConfig (sized .sampleRunner composeConfig looseSamples)).testCases

/-- The task that the handler makes of the example. -/
theorem looseTask_of_handler : (createSubmissionHandler .empty 0 looseRequest looseProblem.stored
    goodReads (.ok true) (some true)).2.2 = some looseTask := by
  rfl

theorem looseSamples_of_handler :
    runSamplesHandler looseRequest looseProblem.stored goodReads true = .ok looseSamples := by
  rfl

/-- The row of the example loses its epsilon. -/
theorem not_plain_looseRow (sample : Bool) : ¬(looseRow sample).Plain := by
  intro h
  have he := h.epsilon rfl _ rfl
  revert he
  decide +kernel

theorem plain_defaultRow : defaultRow.Plain where
  input := by decide
  expected := by decide
  epsilon _ := nofun

/-- The case without a tolerance is compared as stored. -/
theorem cases_judged_iff_loose :
    List.Forall₂ (fun row tc => JudgedBy row tc ↔ row.Plain) [looseRow false, defaultRow]
      submittedCases ∧
    List.Forall₂ (fun row tc => JudgedBy row tc ↔ row.Plain) [looseRow true] sampledCases ∧
    ¬(looseRow false).Plain ∧ defaultRow.Plain := by
  obtain ⟨h, h'⟩ := cases_judged_iff looseProblem goodReads composeConfig
  exact ⟨h _ _ _ _ _ _ looseTask_of_handler, h' _ _ _ looseSamples_of_handler,
    not_plain_looseRow false, plain_defaultRow⟩

/-- The tolerance of the row is one hundredth, and the script passes one millionth. -/
theorem epsilon_dropped :
    (looseRow false).floatEpsilon.map Decimal.toRat = some (1 / 100) ∧
    (createSubmissionHandler .empty 0 looseRequest looseProblem.stored goodReads (.ok true)
      (some true)).2.2 = some looseTask ∧
    submittedCases.head?.map (fun tc => compareCall (stageCase tc) (bytes "1.501\n")) =
      some (some (.floatEps (bytes "1.501\n") (bytes "1.5\n") (1 / 1000000))) ∧
    ¬List.Forall₂ JudgedBy (looseProblem.cases false) submittedCases ∧
    runSamplesHandler looseRequest looseProblem.stored goodReads true = .ok looseSamples ∧
    sampledCases.map (fun tc => compareCall (stageCase tc) (bytes "1.501\n")) =
      [some (.floatEps (bytes "1.501\n") (bytes "1.5\n") (1 / 1000000))] ∧
    ¬List.Forall₂ JudgedBy (looseProblem.cases true) sampledCases := by
  refine ⟨by decide +kernel, rfl, by decide +kernel, fun h => ?_, rfl, by decide +kernel,
    fun h => ?_⟩
  · have h : List.Forall₂ JudgedBy [looseRow false, defaultRow] submittedCases := h
    cases h with
    | cons hrow => exact not_plain_looseRow false ((judgedBy_toInput_iff _).1 hrow)
  · have h : List.Forall₂ JudgedBy [looseRow true] sampledCases := h
    cases h with
    | cons hrow => exact not_plain_looseRow true ((judgedBy_toInput_iff _).1 hrow)

end LiteCode.SubmissionRoutes
