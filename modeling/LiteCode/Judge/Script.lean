import LiteCode.Lib.Json
import LiteCode.Judge.Common

/-!
# The judge script

`judge/judge.sh` with `judge/lib/cgroup.sh` and `judge/lib/spj.sh`: the script that runs in a
container, compiles a submission, runs it on every test case and prints the result as one line of
JSON. What the compilers, the programs, the comparators and the clocks yield is given
(`SpjCompile`, `Compile`, `CaseRun`). The file operations of the script are assumed to succeed,
and the programs it runs not to write its own files.

The script runs under `set -e`. `compile_spj` and `run_spj` switch the option off and on again
before they return, so that a status other than zero ends the script in their caller although the
caller switched the option off: the option is a global state, which the functions of `lib/spj.sh`
pass along (`Shell`).

* `caseLoop`: the loop over the test cases; `judgeCase` is its body for a case that is run;
* `judgeSh`: the whole script; `Outcome.stdout`: what it prints.
-/

namespace LiteCode.Judge

/-! ## The option `errexit` -/

/-- A piece of the script: it reads and writes the option `errexit`, and it may end the script
    with a status. -/
abbrev Shell := StateT Bool (Except Nat)

/-- `set -e`, `set +e`. -/
def setErrexit (on : Bool) : Shell Unit := set on

/-- A command that ends with the status `rc`. -/
def command (rc : Nat) : Shell Nat := do
  if (← get) && rc != 0 then throw rc else return rc

/-- What the special judge does on a case: a file that it needs is not readable, or it exits, in
    both cases with the contents of `spj_stdout` after it. -/
inductive SpjRun
  | unreadable (stdout : Bytes)
  | exit (rc : Nat) (stdout : Bytes)
  deriving DecidableEq, Repr

/-- The file `spj_stdout`. -/
def SpjRun.stdout : SpjRun → Bytes
  | .unreadable out => out
  | .exit _ out => out

/-- `run_spj`. -/
def runSpj : SpjRun → Shell Nat
  | .unreadable _ => return 2
  | .exit rc _ => do
    setErrexit false
    setErrexit true
    return rc

/-- `compare_special_with`: its last command is the call of `run_spj`. -/
def compareSpecialWith (r : SpjRun) : Shell Nat := do
  command (← runSpj r)

/-- The call of `compare_special_with` in the loop: `SPJ_RC`. -/
def spjRc (r : SpjRun) : Shell Nat := do
  setErrexit false
  let rc ← command (← compareSpecialWith r)
  setErrexit true
  return rc

/-- What compiling the special judge yields. -/
structure SpjCompile where
  rc : Nat
  binary : Bool
  deriving DecidableEq, Repr

/-- `compile_spj` on a source that has just been written. -/
def compileSpj (c : SpjCompile) : Shell Nat := do
  setErrexit false
  setErrexit true
  if c.rc ≠ 0 then return c.rc
  else if !c.binary then return 1
  else return 0

/-! ## The task -/

/-- An element of `test_cases` in `task.json`. -/
structure TestCase where
  input : Bytes
  expectedOutput : Bytes
  judgeType : Bytes
  floatEpsilon : Option Decimal
  orderNum : Int
  deriving DecidableEq, Repr

/-- The file `task.json`, as the scheduler writes it. -/
structure TaskFile where
  submissionId : Fin (2 ^ 31)
  language : Bytes
  code : Bytes
  timeLimitMs : Int
  memoryLimitMb : Int
  compileTimeoutMs : Int
  runHardTimeoutMs : Int
  outputLimitBytes : Int
  specialJudgeSource : Option Bytes
  specialJudgeLanguage : Option Bytes
  testCases : List TestCase
  deriving DecidableEq, Repr

/-- A shell variable that is set to the output of `jq -r` for a string. -/
def jqRaw (s : Bytes) : Bytes := commandSubst (s ++ [0x0A])

/-- An optional string, where the text `null` counts as none. -/
def jqOptional (s : Option Bytes) : Bytes :=
  let v := jqRaw (s.getD [])
  if v = bytes "null" then [] else v

/-- `LANGUAGE`. -/
def TaskFile.languageVar (t : TaskFile) : Bytes :=
  if (jqRaw t.language).isEmpty then bytes "cpp" else jqRaw t.language

/-- The judge type of a case as the script reads it back from its file. -/
def TestCase.jt (tc : TestCase) : Bytes := jqRaw tc.judgeType

/-- Where the special judge of the task stands: `SPECIAL_JUDGE_ENABLED` and `SPJ_COMPILE_RC`. -/
inductive Spj
  | absent
  | failed
  | ready
  deriving DecidableEq, Repr

/-- The special judge is compiled if there is a source and a case needs it. A language other than
    `cpp` counts as a failed compilation. -/
def prepareSpj (t : TaskFile) (c : SpjCompile) : Shell Spj := do
  let source := jqOptional t.specialJudgeSource
  let language := jqOptional t.specialJudgeLanguage
  if source.isEmpty || !t.testCases.any (·.jt == bytes "special") then return .absent
  else if language != bytes "cpp" then return .failed
  else
    -- `compile_spj` has switched the option on again when `command` looks at its status
    setErrexit false
    let rc ← command (← compileSpj c)
    setErrexit true
    return if rc = 0 ∧ c.binary then .ready else .failed

/-! ## One case -/

/-- What running a case yields: the wall clock before it (ms), the exit status of the program
    under `timeout`, its stdout and stderr, the CPU time before and after it (µs) and the memory
    peak of the container (bytes), whether the comparator of its judge type accepts, and what the
    special judge does. -/
structure CaseRun where
  now : Nat
  rc : Nat
  out : Bytes
  err : Bytes
  cpuBefore : Nat
  cpuAfter : Nat
  memPeak : Nat
  accept : Bool
  spj : SpjRun
  deriving DecidableEq, Repr

/-- `elapsed_since_ms`. -/
def elapsedSinceMs (fromUsec toUsec : Nat) : Nat :=
  if toUsec ≤ fromUsec then 0 else (toUsec - fromUsec + 999) / 1000

/-- `mem_kb_peak`. -/
def memKbPeak (peak : Nat) : Nat := if peak = 0 then 0 else (peak + 1023) / 1024

def CaseRun.timeMs (r : CaseRun) : Nat := elapsedSinceMs r.cpuBefore r.cpuAfter

def CaseRun.memKb (r : CaseRun) : Nat := memKbPeak r.memPeak

/-- What the loop reads and does not change. -/
structure Setup where
  timeLimitMs : Int
  hardTimeoutMs : Int
  outputLimitBytes : Int
  spj : Spj
  startMs : Nat
  deriving DecidableEq, Repr

/-- `RUNTIME_ERROR_TRUNCATE_BYTES` and `COMPILE_ERROR_TRUNCATE_BYTES`. -/
def runtimeErrorTruncateBytes : Nat := 2048

def compileErrorTruncateBytes : Nat := 4096

/-- What the body of the loop decides: the status of the case, a new error message if it sets one,
    and the arguments of the case line. -/
structure CaseOutcome where
  status : Verdict
  error : Option Bytes
  info : Info
  input : Option Bytes
  expected : Option Bytes
  actual : Option Bytes
  stderr : Option Bytes
  deriving DecidableEq, Repr

/-- An outcome with all four files. -/
def CaseOutcome.full (tc : TestCase) (r : CaseRun) (out : Bytes) (status : Verdict)
    (error : Option Bytes) (info : Info) : CaseOutcome :=
  ⟨status, error, info, some (normalizedFile tc.input), some (normalizedFile tc.expectedOutput),
    some out, some r.err⟩

/-- An outcome with the output and the stderr of the program only. -/
def CaseOutcome.raw (r : CaseRun) (out : Bytes) (status : Verdict) (error : Bytes) (info : Info) :
    CaseOutcome :=
  ⟨status, some error, info, none, none, some out, some r.err⟩

/-- A case that a comparator decides; a rejected one gets the status `reject`. -/
def compared (tc : TestCase) (r : CaseRun) (out : Bytes) (reject : Verdict) : CaseOutcome :=
  .full tc r out (if r.accept then .ac else reject) none .null

/-- `spj_stdout_for_info 256`. -/
def spjStdoutForInfo (r : SpjRun) : Bytes :=
  commandSubst (truncateText (commandSubst r.stdout) 256)

/-- A case with a compiled special judge, by its exit status. -/
def specialOutcome (tc : TestCase) (r : CaseRun) (out : Bytes) (rc : Nat) : CaseOutcome :=
  let info := spjStdoutForInfo r.spj
  match rc with
  | 0 => .full tc r out .ac none .null
  | 1 => .full tc r out .wa none (if info.isEmpty then .null else .spj info)
  | rc => .raw r out .se (bytes "special judge crashed (exit=" ++ decimal rc ++ bytes ")")
      (if info.isEmpty then .spjExit rc else .spjExitReason rc info)

/-- A case whose program exits normally: compare its output. -/
def compareCase (σ : Setup) (tc : TestCase) (r : CaseRun) (out : Bytes) :
    Except Nat CaseOutcome :=
  if tc.jt = bytes "exact" then .ok (compared tc r out .wa)
  else if tc.jt = bytes "ignore_trailing" then .ok (compared tc r out .pe)
  else if tc.jt = bytes "float_eps" then .ok (compared tc r out .wa)
  else if tc.jt = bytes "ignore_case" then .ok (compared tc r out .wa)
  else if tc.jt = bytes "ignore_all_whitespace" then .ok (compared tc r out .wa)
  else if tc.jt = bytes "special" then
    match σ.spj with
    | .failed => .ok ⟨.se, some spjErrDefault, .spjCompileFailed, none, none, none, none⟩
    | .absent => .ok (.full tc r out .wa none .noSpecialJudge)
    -- only `rc` 0 and the 2 of an unreadable file get past `spjRc`
    | .ready => do
      let (rc, _) ← (spjRc r.spj).run true
      return specialOutcome tc r out rc
  else .ok (.full tc r out .se (some (bytes "unknown judge_type: " ++ tc.jt)) .null)

/-- The body of the loop for a case that is run: the output limit comes first, then the exit
    status of the program. -/
def judgeCase (σ : Setup) (tc : TestCase) (r : CaseRun) : Except Nat CaseOutcome :=
  if (r.out.length : Int) > σ.outputLimitBytes then
    .ok (.raw r r.out .ole (bytes "output exceeded " ++ decimalInt σ.outputLimitBytes ++
      bytes " bytes (got " ++ decimal r.out.length ++ bytes ")")
      (.output r.out.length σ.outputLimitBytes))
  else match r.rc with
    | 0 => compareCase σ tc r (r.out.take σ.outputLimitBytes.toNat)
    | 124 => .ok (.raw r r.out .tle (bytes "time limit exceeded (" ++ decimal r.timeMs ++
        bytes " ms > " ++ decimalInt σ.timeLimitMs ++ bytes " ms)") .null)
    | 137 => .ok (.raw r r.out .mle (bytes "memory limit exceeded") .oomKilled)
    | rc =>
      let stderr := commandSubst r.err
      let text := if stderr.isEmpty then bytes "runtime error: exit code " ++ decimal rc else stderr
      .ok (.raw r r.out .re (commandSubst (truncateText text runtimeErrorTruncateBytes)) .null)

/-! ## The loop -/

/-- The variables of the loop, and the case lines written so far. -/
structure LoopState where
  totalTimeMs : Nat
  totalMemKb : Nat
  finalStatus : Verdict
  failedCaseIndex : Option Nat
  errorMessage : Bytes
  cases : List CaseLine
  deriving DecidableEq, Repr

def LoopState.init : LoopState := ⟨0, 0, .ac, none, [], []⟩

/-- A case line without times and texts. -/
def bareLine (i : Nat) (status : Verdict) : CaseLine :=
  ⟨i, status, 0, 0, .null, none, none, none, none⟩

/-- The case line of an outcome. -/
def CaseOutcome.line (o : CaseOutcome) (i : Nat) (r : CaseRun) : CaseLine :=
  ⟨i, o.status, r.timeMs, r.memKb, o.info, o.input, o.expected, o.actual, o.stderr⟩

/-- The state after a case that was run: `update_max` for the time and the memory, and a status
    other than `ac` becomes the final one. -/
def LoopState.commit (s : LoopState) (i : Nat) (r : CaseRun) (o : CaseOutcome) : LoopState where
  totalTimeMs := max s.totalTimeMs r.timeMs
  totalMemKb := max s.totalMemKb r.memKb
  finalStatus := if o.status = .ac then s.finalStatus else o.status
  failedCaseIndex := if o.status = .ac then s.failedCaseIndex else some i
  errorMessage := o.error.getD s.errorMessage
  cases := s.cases ++ [o.line i r]

/-- `ELAPSED` is over the hard timeout. -/
def Setup.timedOut (σ : Setup) (r : CaseRun) : Bool :=
  (r.now : Int) - σ.startMs > σ.hardTimeoutMs

/-- The loop over the test cases from the index `i` on. -/
def caseLoop (σ : Setup) : Nat → LoopState → List (TestCase × CaseRun) → Except Nat LoopState
  | _, s, [] => .ok s
  | i, s, (tc, r) :: l =>
    -- the script checks the clock before it looks at `FINAL_STATUS`, and breaks
    if σ.timedOut r then
      .ok { s with
        finalStatus := .se
        failedCaseIndex := some i
        errorMessage := bytes "judge script exceeded hard timeout (" ++
          decimalInt σ.hardTimeoutMs ++ bytes " ms)"
        cases := s.cases ++ [bareLine i .se] }
    else if s.finalStatus ≠ .ac then
      caseLoop σ (i + 1) { s with cases := s.cases ++ [bareLine i .skipped] } l
    else do
      let o ← judgeCase σ tc r
      caseLoop σ (i + 1) (s.commit i r o) l

/-! ## The script -/

/-- The task file that the script finds. -/
inductive TaskInput
  | empty
  | noSubmissionId
  | task (t : TaskFile)

/-- What compiling the submission yields. -/
structure Compile where
  rc : Nat
  binary : Bool
  stderr : Bytes
  deriving DecidableEq, Repr

/-- What the programs that the script calls yield. -/
structure Env where
  spjCompile : SpjCompile
  compile : Compile
  startMs : Nat
  run : Nat → CaseRun

/-- How the script ends: `set -e` ends it without a line, or one of its printers is called. -/
inductive Outcome
  | died (rc : Nat)
  | dieSe (sid : Option (Fin (2 ^ 31))) (msg : Bytes)
  | noCases (sid : Fin (2 ^ 31))
  | final (f : Final)
  deriving DecidableEq, Repr

/-- The line of a submission without test cases. -/
def noCasesLine (sid : Fin (2 ^ 31)) : Bytes :=
  bytes "\x7b\"submission_id\":" ++ decimal sid ++
  bytes (",\"status\":\"ac\",\"time_used_ms\":0,\"memory_used_kb\":0,\"error_message\":null," ++
    "\"failed_case_index\":null,\"case_results\":[]\x7d")

/-- What the script prints. -/
def Outcome.stdout : Outcome → Bytes
  | .died _ => []
  | .dieSe sid msg => dieSeJson sid msg ++ [0x0A]
  | .noCases sid => noCasesLine sid ++ [0x0A]
  | .final f => emitFinalJson f ++ [0x0A]

/-- The exit status of the script. -/
def Outcome.exitCode : Outcome → Nat
  | .died rc => rc
  | .dieSe _ _ => 2
  | .noCases _ => 0
  | .final _ => 0

/-- A result without case lines. -/
def Final.bare (sid : Fin (2 ^ 31)) (status : Verdict) (error : Bytes) : Final :=
  ⟨sid, status, error, 0, 0, none, []⟩

/-- The result of the compilation if the script ends with it. -/
def compileError (t : TaskFile) (c : Compile) : Option Final :=
  let seconds := (t.compileTimeoutMs + 999).tdiv 1000
  match c.rc with
  | 0 =>
    if c.binary then none
    else some (.bare t.submissionId .se (bytes "compile returned 0 but binary missing"))
  -- `timeout` ended the compiler, by its first or by its second signal
  | 124 | 137 => some (.bare t.submissionId .ce (commandSubst (truncateText
      (bytes "Compilation timeout (limit " ++ decimalInt seconds ++ bytes "s)")
      compileErrorTruncateBytes)))
  | rc =>
    let stderr := commandSubst c.stderr
    let text := if stderr.isEmpty then
      bytes "compilation failed (exit " ++ decimal rc ++ bytes ")" else stderr
    some (.bare t.submissionId .ce (commandSubst (truncateText text compileErrorTruncateBytes)))

/-- The sections C to E: compile, run the cases, print the result. -/
def judgeTask (t : TaskFile) (env : Env) (spj : Spj) : Outcome :=
  match compileError t env.compile with
  | some f => .final f
  | none =>
    let σ : Setup := ⟨t.timeLimitMs, t.runHardTimeoutMs, t.outputLimitBytes, spj, env.startMs⟩
    match caseLoop σ 0 .init (t.testCases.mapIdx fun i tc => (tc, env.run i)) with
    | .error rc => .died rc
    | .ok s => .final ⟨t.submissionId, s.finalStatus, s.errorMessage, s.totalTimeMs, s.totalMemKb,
        s.failedCaseIndex, s.cases⟩

/-- The script. -/
def judgeSh (input : TaskInput) (env : Env) : Outcome :=
  match input with
  | .empty => .dieSe none (bytes "task json empty")
  | .noSubmissionId => .dieSe none (bytes "submission_id missing")
  | .task t =>
    let language := t.languageVar
    let code := jqRaw t.code
    if code.isEmpty ∨ code = bytes "null" then .dieSe t.submissionId (bytes "code missing")
    else if language ≠ bytes "cpp" ∧ language ≠ bytes "c" then
      .dieSe t.submissionId (bytes "unsupported language: " ++ language)
    else if t.testCases.isEmpty then .noCases t.submissionId
    else match (prepareSpj t env.spjCompile).run true with
      | .error rc => .died rc
      | .ok (spj, _) => judgeTask t env spj

end LiteCode.Judge
