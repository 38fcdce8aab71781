import LiteCode.Judge.Comparator
import LiteCode.Lib.Lines
import LiteCode.Lib.Stoi
import Mathlib.Data.List.Forall2

/-!
# The comparators

`judge/lib/compare.sh`: the comparators of the judge types, on the contents of the two files. They
are pipelines of `cmp`, `tr`, GNU sed and gawk; the judge image sets no locale, so that these work
on bytes. The special judge is a program of the problem (see `LiteCode.Judge.Script`).

* `compareExact`, `compareIgnoreTrailing`, `compareIgnoreCase`, `compareIgnoreAllWhitespace`,
  `compareFloatEps`: as in the script; `Call.accepts` is the answer to a call of `judge.sh`;
* `judgeCase_accepts`: the verdict of a case whose program runs normally is that answer;
* `compareIgnoreCase_sound_iff`: the letter case is swapped in both files, so that only identical
  files are accepted.
-/

namespace LiteCode.Judge

/-! ## Comparing bytes and lines -/

/-- `compare_exact`: `cmp -s`. -/
def compareExact (a b : Bytes) : Bool := a == b

/-- `[ \t]`. -/
def isBlank (b : UInt8) : Bool := b == 0x20 || b == 0x09

/-- The last byte of the line is a blank. -/
def endsInBlank (l : Bytes) : Bool := l.getLast?.any isBlank

/-- `s/[ \t]+$//`. -/
def rstrip (l : Bytes) : Bytes := l.rdropWhile isBlank

/-- `sed -E 's/[ \t]+$//'`. -/
def rstripLines (t : Bytes) : Bytes := editLines 0x0A (fun l => some (rstrip l)) t

/-- `compare_ignore_trailing`. -/
def compareIgnoreTrailing (a b : Bytes) : Bool := rstripLines a == rstripLines b

/-- `[:upper:]` and `[:lower:]`. -/
def isUpper (b : UInt8) : Bool := 0x41 ≤ b && b ≤ 0x5A

def isLower (b : UInt8) : Bool := 0x61 ≤ b && b ≤ 0x7A

/-- `tr '[:upper:][:lower:]' '[:lower:][:upper:]'`, on one byte. -/
def swapCase (b : UInt8) : UInt8 :=
  if isUpper b then b + 0x20
  else if isLower b then b - 0x20
  else b

/-- `compare_ignore_case`. -/
def compareIgnoreCase (a b : Bytes) : Bool := a.map swapCase == b.map swapCase

/-- `s/[ \t]+/ /g; /^[[:space:]]*$/d`: `none` if the line is deleted. -/
def foldLine (l : Bytes) : Option Bytes :=
  let l := squeeze isBlank 0x20 false l
  if l.all isSpace then none else some l

/-- `sed -E 's/[ \t]+/ /g; /^[[:space:]]*$/d'`. -/
def foldLines (t : Bytes) : Bytes := editLines 0x0A foldLine t

/-- `compare_ignore_all_whitespace`. -/
def compareIgnoreAllWhitespace (a b : Bytes) : Bool := foldLines a == foldLines b

/-! ## Comparing numbers -/

/-- `split` at `/[ \t]+/`, on a line with bytes: a run of blanks at an end of the line makes an
    empty token. `run` tells that the text before ends with such a run. -/
def splitBlanks : Bool → Bytes → List Bytes
  | _, [] => [[]]
  | run, c :: t =>
    if isBlank c then (if run then [] else [[]]) ++ splitBlanks true t
    else (splitBlanks false t).modifyHead (c :: ·)

/-- `split(line, t, /[ \t]+/)`. -/
def awkSplit (line : Bytes) : List Bytes := if line.isEmpty then [] else splitBlanks false line

/-- The number that a token stands for, if it is one: the regular expressions of `isnum`, with
    the parts of the token that they tell apart. -/
def number? (s : Bytes) : Option Decimal :=
  let (neg, i) := takeSign s
  let int := i.takeWhile Json.isDigit
  (Json.scanFrac (i.dropWhile Json.isDigit)).bind fun (frac, i) =>
    if int.isEmpty && frac.isNone then none
    else (Json.scanExp i).bind fun (exp, rest) =>
      if rest.isEmpty then
        let f := frac.getD []
        some ⟨neg, Json.digitsVal (int ++ f), exp.getD 0 - f.length⟩
      else none

/-- `isnum`. -/
def isnum (s : Bytes) : Bool := (number? s).isSome

/-- The value of a token that is a number. -/
def tokenValue (s : Bytes) : ℚ := ((number? s).map (·.toRat)).getD 0

/-- `absv`. -/
def absv (x : ℚ) : ℚ := if x < 0 then -x else x

/-- `feq`. -/
def feq (eps x y : ℚ) : Bool :=
  if x = y then true
  else
    let d := absv (x - y)
    if d ≤ eps then true
    else
      let big := if absv y > absv x then absv y else absv x
      if big < 1 / 10 ^ 300 then false
      else d / big ≤ eps

/-- The checks of a pair of tokens. -/
def tokenOk (eps : ℚ) (p : Bytes × Bytes) : Bool :=
  isnum p.1 && isnum p.2 && feq eps (tokenValue p.1) (tokenValue p.2)

/-- The main loop over the records of the second file, after `fnr` of them; `tok` are the tokens
    of the lines of the first file. `none` if it fails, else the last `FNR`. -/
def awkMain (eps : ℚ) (tok : List (List Bytes)) : Nat → List Bytes → Option Nat
  | fnr, [] => some fnr
  | fnr, line :: rest =>
    match tok[fnr]? with
    | none => none
    | some ta =>
      if line.isEmpty && ta.isEmpty then awkMain eps tok (fnr + 1) rest
      else
        let t := awkSplit line
        if t.length ≠ ta.length then none
        else if (ta.zip t).all (tokenOk eps) then awkMain eps tok (fnr + 1) rest
        else none

/-- `compare_float_eps`: the first file is read as a whole before the main loop. -/
def compareFloatEps (a b : Bytes) (eps : ℚ) : Bool :=
  let tok := (records [] a).map awkSplit
  awkMain eps tok 0 (records [] b) == some tok.length

/-! ## The answers to the calls -/

/-- The answer to a call of a comparator, `none` for the special judge. -/
def Call.accepts : Call → Option Bool
  | .exact out expected => some (compareExact out expected)
  | .ignoreTrailing out expected => some (compareIgnoreTrailing out expected)
  | .floatEps out expected eps => some (compareFloatEps out expected eps)
  | .special _ _ _ => none
  | .ignoreCase out expected => some (compareIgnoreCase out expected)
  | .ignoreAllWhitespace out expected => some (compareIgnoreAllWhitespace out expected)

/-- The run has the answer of the comparator that the script calls for its output. -/
def Answered (tc : TestCase) (r : CaseRun) : Prop :=
  ∀ c ∈ compareCall (stageCase tc) r.out, ∀ b ∈ c.accepts, r.accept = b

instance (tc : TestCase) (r : CaseRun) : Decidable (Answered tc r) :=
  inferInstanceAs (Decidable (∀ c ∈ compareCall (stageCase tc) r.out, _))

variable {σ : Setup} {tc : TestCase} {r : CaseRun} {k : JudgeType} {b : Bool}

/-- A case whose program exits normally, within the output limit, is judged by the comparator of
    its judge type. -/
theorem judgeCase_accepts (hrc : r.rc = 0) (hout : (r.out.length : Int) ≤ σ.outputLimitBytes)
    (hk : JudgeType.ofName? (stageCase tc).judgeType = some k)
    (hb : (k.call (stageCase tc) r.out).accepts = some b) (ha : Answered tc r) :
    ∃ o, judgeCase σ tc r = .ok o ∧ o.status = if b then .ac else k.reject := by
  have hk' : k ≠ .special := by
    rintro rfl
    cases hb
  have hacc : r.accept = b := ha _ (by rw [compareCall, hk]; rfl) _ hb
  have htake : r.out.take σ.outputLimitBytes.toNat = r.out := List.take_of_length_le (by omega)
  refine ⟨compared tc r r.out k.reject, ?_, ?_⟩
  · rw [judgeCase, if_neg (not_lt.2 hout), hrc]
    change compareCase σ tc r _ = _
    rw [htake, compareCase_of_call hk hk']
  · rw [← hacc]
    rfl

/-! ## The expected output of an exact case -/

theorem stripBom_of_not {t : Bytes} (h : ¬[0xEF, 0xBB, 0xBF] <+: t) : stripBom t = t := by
  fun_cases stripBom t with
  | case1 t => exact absurd (List.prefix_append _ t) h
  | case2 t hne => rfl

/-- The staged file of a text without CRs and BOM is that text, if every line of it ends with a
    newline. -/
theorem normalizedFile_eq_self_iff {t : Bytes} (hcr : 0x0D ∉ t)
    (hbom : ¬[0xEF, 0xBB, 0xBF] <+: t) : normalizedFile t = t ↔ t = [] ∨ [0x0A] <:+ t := by
  have hstrip : stripCrlf (stripBom t) = t := by
    rw [stripBom_of_not hbom]
    exact List.filter_eq_self.2 fun b hb => bne_iff_ne.2 fun he => hcr (he ▸ hb)
  have hiff := normalizedFile_eq_iff t
  rwa [hstrip] at hiff

/-- A program that prints the expected output of an `exact` case, which has no CR and no BOM, is
    accepted iff that output is empty or ends with a newline. -/
theorem judgeCase_exact_iff (hjt : tc.judgeType = JudgeType.exact.name)
    (hcr : 0x0D ∉ tc.expectedOutput) (hbom : ¬[0xEF, 0xBB, 0xBF] <+: tc.expectedOutput)
    (hrc : r.rc = 0) (hout : r.out = tc.expectedOutput)
    (hlen : (r.out.length : Int) ≤ σ.outputLimitBytes) (ha : Answered tc r) :
    (∃ o, judgeCase σ tc r = .ok o ∧ o.status = .ac) ↔
      tc.expectedOutput = [] ∨ [0x0A] <:+ tc.expectedOutput := by
  have hk : JudgeType.ofName? (stageCase tc).judgeType = some .exact := by
    change JudgeType.ofName? (jqRaw tc.judgeType) = _
    rw [hjt, JudgeType.ofName?_jqRaw]
  obtain ⟨o, ho, hs⟩ := judgeCase_accepts hrc hlen hk rfl ha
  -- The output is compared with a file that ends with a newline if it has a line at all.
  have hcmp : compareExact r.out (normalizedFile tc.expectedOutput) = true ↔
      tc.expectedOutput = [] ∨ [0x0A] <:+ tc.expectedOutput := by
    rw [compareExact, beq_iff_eq, hout, eq_comm, normalizedFile_eq_self_iff hcr hbom]
  rw [← hcmp]
  constructor
  · rintro ⟨o', ho', hac⟩
    rw [ho] at ho'
    cases ho'
    rw [hac] at hs
    split_ifs at hs with h
    · exact h
    · cases hs
  · intro h
    refine ⟨o, ho, hs.trans ?_⟩
    exact if_pos h

/-- The case and the run of the expected output `t`, printed as it is. -/
def echoCase (t : Bytes) : TestCase := ⟨[], t, bytes "exact", none, 0⟩

def echoRun (t : Bytes) (accept : Bool) : CaseRun :=
  ⟨0, 0, t, [], 0, 1000, 0, accept, .unreadable []⟩

def echoSetup : Setup := ⟨1000, 30000, 1024, .absent, 0⟩

theorem judgeCase_exact_newline :
    (∃ o, judgeCase echoSetup (echoCase (bytes "abc\n")) (echoRun (bytes "abc\n") true) = .ok o ∧
      o.status = .ac) ↔ bytes "abc\n" = [] ∨ [0x0A] <:+ bytes "abc\n" :=
  judgeCase_exact_iff (by decide) (by decide) (by decide) (by decide) (by decide) (by decide)
    (by decide +kernel)

/-- The expected output `abc` is staged with a newline, which the program does not print. -/
theorem judgeCase_exact_rejects : Answered (echoCase (bytes "abc")) (echoRun (bytes "abc") false) ∧
    ¬∃ o, judgeCase echoSetup (echoCase (bytes "abc")) (echoRun (bytes "abc") false) = .ok o ∧
      o.status = .ac := by
  refine ⟨by decide +kernel, ?_⟩
  rintro ⟨o, ho, hs⟩
  have hwa : judgeCase echoSetup (echoCase (bytes "abc")) (echoRun (bytes "abc") false) =
      .ok (compared (echoCase (bytes "abc")) (echoRun (bytes "abc") false) (bytes "abc") .wa) := by
    decide +kernel
  rw [hwa] at ho
  cases ho
  cases hs

/-! ## The letter case -/

/-- The upper- and the lower-case form of the same letter. -/
def CaseForms (x y : UInt8) : Prop :=
  isUpper x ∧ y = x + 0x20 ∨ isUpper y ∧ x = y + 0x20

instance (x y : UInt8) : Decidable (CaseForms x y) := inferInstanceAs (Decidable (_ ∨ _))

/-- Two texts of the same length with the same bytes, up to the case of ASCII letters. -/
def SameUpToCase (a b : Bytes) : Prop := List.Forall₂ (fun x y => x = y ∨ CaseForms x y) a b

theorem swapCase_swapCase (b : UInt8) : swapCase (swapCase b) = b := by
  obtain ⟨⟨b⟩⟩ := b
  revert b
  decide +kernel

/-- Both files are mapped by the same bijection. -/
theorem compareIgnoreCase_iff (a b : Bytes) : compareIgnoreCase a b = true ↔ a = b := by
  rw [compareIgnoreCase, beq_iff_eq]
  exact (Function.LeftInverse.injective swapCase_swapCase).list_map.eq_iff

/-- The lengths differ, or a position differs in more than the case of a letter. -/
def DifferInMore (a b : Bytes) : Prop :=
  a.length ≠ b.length ∨ ∃ p ∈ a.zip b, p.1 ≠ p.2 ∧ ¬CaseForms p.1 p.2

instance (a b : Bytes) : Decidable (DifferInMore a b) :=
  inferInstanceAs (Decidable (_ ∨ ∃ p ∈ a.zip b, _))

theorem sameUpToCase_iff (a b : Bytes) : SameUpToCase a b ↔ ¬DifferInMore a b := by
  rw [SameUpToCase, List.forall₂_iff_zip, DifferInMore, not_or, not_not]
  refine and_congr_right fun _ => ?_
  constructor
  · rintro h ⟨p, hp, hne, hcase⟩
    rcases h hp with he | hc
    · exact hne he
    · exact hcase hc
  · intro h x y hp
    by_contra hxy
    rw [not_or] at hxy
    exact h ⟨(x, y), hp, hxy.1, hxy.2⟩

theorem SameUpToCase.refl (a : Bytes) : SameUpToCase a a :=
  List.forall₂_same.2 fun _ _ => .inl rfl

/-- The comparator accepts the files that are the same up to the letter case and no others iff the
    two files are identical or differ in more than the letter case. -/
theorem compareIgnoreCase_sound_iff (a b : Bytes) :
    (compareIgnoreCase a b = true ↔ SameUpToCase a b) ↔ a = b ∨ DifferInMore a b := by
  rw [compareIgnoreCase_iff, sameUpToCase_iff]
  constructor
  · intro h
    by_cases hd : DifferInMore a b
    · exact .inr hd
    · exact .inl (h.2 hd)
  · rintro (rfl | hd)
    · exact ⟨fun _ => (sameUpToCase_iff a a).1 (.refl a), fun _ => rfl⟩
    · refine ⟨fun he => ?_, fun hn => absurd hd hn⟩
      subst he
      exact (sameUpToCase_iff a a).1 (.refl a)

/-- `Hello World` and `HELLO world` are told apart. -/
theorem compareIgnoreCase_hello :
    ¬(compareIgnoreCase (bytes "Hello World\n") (bytes "HELLO world\n") = true ↔
      SameUpToCase (bytes "Hello World\n") (bytes "HELLO world\n")) := by
  have hsame : SameUpToCase (bytes "Hello World\n") (bytes "HELLO world\n") :=
    (sameUpToCase_iff _ _).2 (by decide +kernel)
  intro h
  exact absurd (h.2 hsame) (by decide +kernel)

end LiteCode.Judge
