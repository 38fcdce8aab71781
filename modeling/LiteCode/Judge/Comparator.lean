import Mathlib.Data.Rat.Defs
import Mathlib.Algebra.Field.Rat
import LiteCode.Judge.Script

/-!
# How a case is compared

The staging of a test case in `judge.sh`, and the call of a comparator of `judge/lib/compare.sh`
that the script makes for it. The files of a case are its input and its expected output, with the
BOM and the CRs removed, its judge type and its tolerance.

* `stageCase`: the files of a case;
* `compareCall`: the comparator that is called, with its arguments;
* `compareCase_of_call`: the verdict of a case that is run is the answer of that call;
* `normalizedFile_eq_iff`: the files hold the texts of the case, if these are empty or end with a
  newline; one newline is added to the others.
-/

namespace LiteCode

/-- The value of a decimal number. -/
def Decimal.toRat (d : Decimal) : ℚ := (if d.neg then -1 else 1) * d.mant * (10 : ℚ) ^ d.exp

namespace Judge

/-- The values of the column `judge_type`. -/
inductive JudgeType
  | exact
  | ignoreTrailing
  | floatEps
  | special
  | ignoreCase
  | ignoreAllWhitespace
  deriving DecidableEq, Repr

/-- The string of a judge type. -/
def JudgeType.name : JudgeType → Bytes
  | .exact => bytes "exact"
  | .ignoreTrailing => bytes "ignore_trailing"
  | .floatEps => bytes "float_eps"
  | .special => bytes "special"
  | .ignoreCase => bytes "ignore_case"
  | .ignoreAllWhitespace => bytes "ignore_all_whitespace"

/-- The branches of the script, in their order. -/
def judgeTypes : List JudgeType :=
  [.exact, .ignoreTrailing, .floatEps, .ignoreCase, .ignoreAllWhitespace, .special]

/-- The branch that a string takes, if it is none of the last one. -/
def JudgeType.ofName? (s : Bytes) : Option JudgeType := judgeTypes.find? (·.name == s)

/-- The directory of a case. -/
structure CaseFiles where
  input : Bytes
  expected : Bytes
  judgeType : Bytes
  /-- The number in the file `float_epsilon`. -/
  floatEpsilon : ℚ

/-- The staging of a case. A tolerance that is `null` is replaced by a default. -/
def stageCase (tc : TestCase) : CaseFiles where
  input := normalizedFile tc.input
  expected := normalizedFile tc.expectedOutput
  judgeType := tc.jt
  floatEpsilon := (tc.floatEpsilon.map (·.toRat)).getD (1 / 1000000)

/-- A call of a comparator, with its arguments. -/
inductive Call
  | exact (out expected : Bytes)
  | ignoreTrailing (out expected : Bytes)
  | floatEps (out expected : Bytes) (eps : ℚ)
  | special (out expected input : Bytes)
  | ignoreCase (out expected : Bytes)
  | ignoreAllWhitespace (out expected : Bytes)
  deriving DecidableEq

/-- The call that the branch of a judge type makes. -/
def JudgeType.call (k : JudgeType) (f : CaseFiles) (out : Bytes) : Call :=
  match k with
  | .exact => .exact out f.expected
  | .ignoreTrailing => .ignoreTrailing out f.expected
  | .floatEps => .floatEps out f.expected f.floatEpsilon
  | .special => .special out f.expected f.input
  | .ignoreCase => .ignoreCase out f.expected
  | .ignoreAllWhitespace => .ignoreAllWhitespace out f.expected

/-- The comparator for the output of a case, unless its judge type is not known. -/
def compareCall (f : CaseFiles) (out : Bytes) : Option Call :=
  (JudgeType.ofName? f.judgeType).map fun k => k.call f out

/-- The status of an output that a comparator rejects. -/
def JudgeType.reject : JudgeType → Verdict
  | .ignoreTrailing => .pe
  | _ => .wa

/-! ## The verdict of a case -/

variable {σ : Setup} {tc : TestCase} {r : CaseRun} {out : Bytes} {k : JudgeType}

theorem JudgeType.name_of_ofName? {s : Bytes} (h : ofName? s = some k) : s = k.name := by
  have := List.find?_some h
  exact (beq_iff_eq.1 this).symm

/-- A comparator that is no special judge decides the case. -/
theorem compareCase_of_call (h : JudgeType.ofName? (stageCase tc).judgeType = some k)
    (hk : k ≠ .special) : compareCase σ tc r out = .ok (compared tc r out k.reject) := by
  have hjt : tc.jt = k.name := JudgeType.name_of_ofName? h
  rw [compareCase, hjt]
  cases k with
  | special => exact absurd rfl hk
  | _ => rfl

/-- The strings of the judge types pass through the script. -/
theorem JudgeType.ofName?_jqRaw (k : JudgeType) : ofName? (jqRaw k.name) = some k := by
  cases k <;> decide

/-! ## The texts of a case -/

/-- Every line of the text ends with a newline. -/
def Newlined (t : Bytes) : Prop := t = [] ∨ [0x0A] <:+ t

instance (t : Bytes) : Decidable (Newlined t) := inferInstanceAs (Decidable (_ ∨ _))

/-- The newline of `jq` has nothing to do with a BOM. -/
theorem stripBom_append_newline (t : Bytes) : stripBom (t ++ [0x0A]) = stripBom t ++ [0x0A] := by
  fun_cases stripBom t with
  | case1 t => rfl
  | case2 t hne =>
    -- the newline does not complete a BOM
    refine stripBom.eq_2 _ fun t' he => ?_
    rcases List.eq_nil_or_concat' t' with rfl | ⟨t', b, rfl⟩
    · have hlast := congrArg List.getLast? he
      rw [List.getLast?_concat] at hlast
      exact absurd hlast (by decide)
    · change t ++ [0x0A] = (0xEF :: 0xBB :: 0xBF :: t') ++ [b] at he
      exact hne t' (List.append_inj' he rfl).1

/-- The newline of `jq -r` stays unless it makes an empty last line. -/
theorem sedDropLastEmptyLine_append (t : Bytes) :
    sedDropLastEmptyLine (t ++ [0x0A]) = if Newlined t then t else t ++ [0x0A] := by
  have hlast : t ++ [0x0A] = [0x0A] ∨ [0x0A, 0x0A] <:+ t ++ [0x0A] ↔ Newlined t := by
    refine or_congr (by simp) ?_
    change [0x0A] ++ [0x0A] <:+ t ++ [0x0A] ↔ _
    exact List.suffix_append_self_iff
  simp only [sedDropLastEmptyLine, hlast, List.dropLast_concat]

/-- A file of a case holds its text without the BOM and the CRs, and with a newline at its end. -/
theorem normalizedFile_eq (t : Bytes) :
    normalizedFile t = if Newlined (stripCrlf (stripBom t)) then stripCrlf (stripBom t)
      else stripCrlf (stripBom t) ++ [0x0A] := by
  have hstrip : stripCrlf (stripBom t ++ [0x0A]) = stripCrlf (stripBom t) ++ [0x0A] :=
    List.filter_append ..
  rw [normalizedFile, stripBom_append_newline, hstrip, sedDropLastEmptyLine_append]

/-- The file holds the text exactly if its lines end with newlines. -/
theorem normalizedFile_eq_iff (t : Bytes) :
    normalizedFile t = stripCrlf (stripBom t) ↔ Newlined (stripCrlf (stripBom t)) := by
  rw [normalizedFile_eq]
  split_ifs with h
  · exact iff_of_true rfl h
  · refine iff_of_false (fun he => ?_) h
    simpa using congrArg List.length he

end Judge

end LiteCode
