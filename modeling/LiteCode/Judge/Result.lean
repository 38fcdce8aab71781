import LiteCode.Lib.Json

/-!
# Reading the result of the judge

`parse_judge_result_json` of `src/judge/judge_scheduler.h`: the stdout of the judge container is
split into lines, and the last line that reads as a JSON object is the result. Every field has a
default that stands when the member is missing or has another type.

What a conversion of a `double` to `int` gives is a parameter `floatToInt`; it is only used for a
number with a fraction or an exponent, or one that does not fit in 64 bits.

* `parseJudgeResultJson_last`: the result of a log that ends with a given line;
* `parseJudgeResultJson_none`: a log of one line that is not read gives `se`.
-/

namespace LiteCode.Judge

/-- `CaseResult`. -/
structure CaseResult where
  index : Int := 0
  status : Bytes := []
  timeMs : Int := 0
  memKb : Int := 0
  info : Bytes := []
  input : Bytes := []
  expectedOutput : Bytes := []
  actualOutput : Bytes := []
  caseStderr : Bytes := []
  deriving DecidableEq, Repr

/-- `JudgeResult`. -/
structure JudgeResult where
  status : Bytes := bytes "se"
  timeUsedMs : Int := 0
  memoryUsedKb : Int := 0
  errorMessage : Bytes := []
  failedCaseIndex : Int := -1
  parsed : Bool := false
  caseResults : List CaseResult := []
  deriving DecidableEq, Repr

/-- The lines of a log: a CR is dropped, and a last line without newline counts if it is not
    empty. -/
def splitLines : Bytes → Bytes → List Bytes
  | cur, [] => if cur.isEmpty then [] else [cur]
  | cur, c :: t =>
    if c = 0x0A then cur :: splitLines [] t
    else if c ≠ 0x0D then splitLines (cur ++ [c]) t
    else splitLines cur t

/-- The JSON object of a line, if its first character after blanks is a brace and it reads as
    one. -/
def readLine (line : Bytes) : Option Json :=
  match line.dropWhile fun b => b == 0x20 || b == 0x09 with
  | 0x7B :: _ =>
    match Json.parse line with
    | some (.obj l) => some (.obj l)
    | _ => none
  | _ => none

section

variable (floatToInt : Decimal → Int32)

/-- `get<int>()`: 64-bit numbers are cut to 32 bits. -/
def getInt : JsonNum → Int
  | .unsigned n => (n : Int).bmod (2 ^ 32)
  | .integer n => n.bmod (2 ^ 32)
  | .float d => (floatToInt d).toInt

/-- A member that is a number, or a default. -/
def intField (j : Json) (key : Bytes) (dflt : Int) : Int :=
  match j.get? key with
  | some (.num n) => getInt floatToInt n
  | _ => dflt

/-- A member that is a string, or a default. -/
def strField (j : Json) (key : Bytes) (dflt : Bytes) : Bytes :=
  match j.get? key with
  | some (.str s) => s
  | _ => dflt

/-- An element of `case_results`; what is not an object is left out. -/
def readCase : Json → Option CaseResult
  | .obj l =>
    let cj := Json.obj l
    some {
      index := intField floatToInt cj (bytes "index") 0
      status := strField cj (bytes "status") []
      timeMs := intField floatToInt cj (bytes "time_ms") 0
      memKb := intField floatToInt cj (bytes "mem_kb") 0
      info := strField cj (bytes "info") []
      input := strField cj (bytes "input") []
      expectedOutput := strField cj (bytes "expected_output") []
      actualOutput := strField cj (bytes "actual_output") []
      caseStderr := strField cj (bytes "stderr") [] }
  | _ => none

/-- The result that a JSON object gives. -/
def readResult (j : Json) : JudgeResult where
  status := strField j (bytes "status") (bytes "se")
  timeUsedMs := intField floatToInt j (bytes "time_used_ms") 0
  memoryUsedKb := intField floatToInt j (bytes "memory_used_kb") 0
  errorMessage := strField j (bytes "error_message") []
  failedCaseIndex := intField floatToInt j (bytes "failed_case_index") (-1)
  parsed := true
  caseResults := match j.get? (bytes "case_results") with
    | some (.arr l) => l.filterMap (readCase floatToInt)
    | _ => []

/-- The suffix of an error message when the container did not exit with zero. -/
def waitExit (waitExitCode : Int) : Bytes :=
  if waitExitCode ≠ 0 then bytes " (wait exit=" ++ decimalInt waitExitCode ++ bytes ")" else []

/-- `parse_judge_result_json`. -/
def parseJudgeResultJson (logs : Bytes) (waitExitCode : Int) : JudgeResult :=
  if logs.isEmpty then
    { errorMessage := bytes "judge produced no stdout" ++ waitExit waitExitCode }
  else match (splitLines [] logs).reverse.findSome? readLine with
    | some j => readResult floatToInt j
    | none =>
      { errorMessage := bytes "judge produced no parseable result JSON" ++ waitExit waitExitCode }

end

/-! ## The last line -/

theorem splitLines_append (cur : Bytes) {line : Bytes} (h : ∀ b ∈ line, b ≠ 0x0A ∧ b ≠ 0x0D)
    (t : Bytes) : splitLines cur (line ++ t) = splitLines (cur ++ line) t := by
  induction line generalizing cur with
  | nil => simp
  | cons b line ih =>
    have hb := h b List.mem_cons_self
    have ih := ih (cur ++ [b]) fun c hc => h c (List.mem_cons_of_mem _ hc)
    simp [splitLines, hb, ih]

/-- The lines before a newline do not depend on what follows it. -/
theorem splitLines_newline (cur pre t : Bytes) :
    splitLines cur (pre ++ 0x0A :: t) = splitLines cur (pre ++ [0x0A]) ++ splitLines [] t := by
  induction pre generalizing cur with
  | nil => simp [splitLines]
  | cons b pre ih =>
    simp only [List.cons_append, splitLines]
    split_ifs <;> simp [ih]

theorem splitLines_line {line : Bytes} (h : ∀ b ∈ line, b ≠ 0x0A ∧ b ≠ 0x0D) :
    splitLines [] (line ++ [0x0A]) = [line] := by
  rw [splitLines_append [] h]
  simp [splitLines]

/-- The line that decides: the last one that reads as an object. -/
theorem findSome?_reverse {lines : List Bytes} {j : Json} :
    lines.reverse.findSome? readLine = some j ↔ ∃ pre line post, lines = pre ++ line :: post ∧
      (∀ l ∈ post, readLine l = none) ∧ readLine line = some j := by
  rw [List.findSome?_eq_some_iff]
  constructor
  · rintro ⟨l₁, a, l₂, he, ha, hn⟩
    refine ⟨l₂.reverse, a, l₁.reverse, ?_, by simpa using hn, ha⟩
    rw [← List.reverse_reverse lines, he]
    simp
  · rintro ⟨pre, line, post, rfl, hn, ha⟩
    exact ⟨post.reverse, line, pre.reverse, by simp, ha, by simpa using hn⟩

/-- The result of a line that reads as an object and stands at the end of the log. -/
theorem parseJudgeResultJson_last (floatToInt : Decimal → Int32) {pre line : Bytes} {j : Json}
    (waitExitCode : Int) (hpre : pre = [] ∨ ∃ p, pre = p ++ [0x0A])
    (h : ∀ b ∈ line, b ≠ 0x0A ∧ b ≠ 0x0D) (hj : readLine line = some j) :
    parseJudgeResultJson floatToInt (pre ++ line ++ [0x0A]) waitExitCode =
      readResult floatToInt j := by
  have hlines : ∃ ls, splitLines [] (pre ++ line ++ [0x0A]) = ls ++ [line] := by
    rcases hpre with rfl | ⟨p, rfl⟩
    · exact ⟨[], splitLines_line h⟩
    · refine ⟨splitLines [] (p ++ [0x0A]), ?_⟩
      rw [List.append_assoc, List.append_assoc, List.singleton_append, splitLines_newline,
        splitLines_line h]
  obtain ⟨ls, hlines⟩ := hlines
  have hne : (pre ++ line ++ [0x0A]).isEmpty = false := by simp
  rw [parseJudgeResultJson, hne, hlines, List.reverse_append]
  simp [hj]

/-- The status of a log of one line that does not read as an object. -/
theorem parseJudgeResultJson_none (floatToInt : Decimal → Int32) {line : Bytes}
    (waitExitCode : Int) (h : ∀ b ∈ line, b ≠ 0x0A ∧ b ≠ 0x0D)
    (hj : readLine line = none) :
    (parseJudgeResultJson floatToInt (line ++ [0x0A]) waitExitCode).status = bytes "se" := by
  have hne : (line ++ [0x0A]).isEmpty = false := by simp
  rw [parseJudgeResultJson, hne, splitLines_line h]
  simp [hj]

end LiteCode.Judge
