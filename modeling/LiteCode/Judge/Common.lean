import Mathlib.Data.List.DropRight
import Mathlib.Tactic.SplitIfs
import LiteCode.Lib.Bytes

/-!
# The text tools of the judge script

`judge/lib/common.sh`: how `judge.sh` normalises texts, cuts them and pastes them into JSON. The
judge image sets no locale, so that bash counts and replaces bytes.

* `commandSubst`: what `"$(...)"` keeps of an output (no zero byte, no trailing newline);
* `truncateText`, `jsonEscape`: as in the script. `jsonEscape` is a sequence of replacements,
  which amounts to one pass over the bytes (`jsonEscape_eq`);
* `jsonOrFile`, `emitCaseLine`, `emitFinalJson`: the printers of the result.
-/

namespace LiteCode.Judge

/-- `tr -d '\r'`. -/
def stripCrlf (t : Bytes) : Bytes := t.filter (· != 0x0D)

/-- `sed -E '1s/^\xEF\xBB\xBF//'`. -/
def stripBom : Bytes → Bytes
  | 0xEF :: 0xBB :: 0xBF :: t => t
  | t => t

/-- Without the newlines at the end. -/
def rstripNewlines (t : Bytes) : Bytes := t.rdropWhile (· == 0x0A)

/-- `"$(...)"`: bash drops the zero bytes of the output, then the newlines at its end. -/
def commandSubst (t : Bytes) : Bytes := rstripNewlines (t.filter (· != 0))

/-- `sed -e '$ {/^$/d}'`: the last line is deleted if it is empty. -/
def sedDropLastEmptyLine (t : Bytes) : Bytes :=
  if t = [0x0A] ∨ [0x0A, 0x0A] <:+ t then t.dropLast else t

/-- The file that `judge.sh` writes for a text of a test case: `jq -r` prints it with a newline,
    then a BOM, the CRs and an empty last line are removed. -/
def normalizedFile (t : Bytes) : Bytes :=
  sedDropLastEmptyLine (stripCrlf (stripBom (t ++ [0x0A])))

/-- `truncate_text`. -/
def truncateText (text : Bytes) (limit : Nat) : Bytes :=
  if text.length ≤ limit then text
  else text.take limit ++ bytes "\n[...truncated, total " ++ decimal text.length ++ bytes " bytes]"

/-- `${s//c/r}`. -/
def replaceByte (c : UInt8) (r : Bytes) (s : Bytes) : Bytes :=
  s.flatMap fun b => if b = c then r else [b]

/-- `json_escape`: backslash, double quote, newline, tab, and CR (removed). -/
def jsonEscape (s : Bytes) : Bytes :=
  -- the backslash comes first, or the later escapes would be escaped again
  let s := replaceByte 0x5C [0x5C, 0x5C] s
  let s := replaceByte 0x22 [0x5C, 0x22] s
  let s := replaceByte 0x0A [0x5C, 0x6E] s
  let s := replaceByte 0x09 [0x5C, 0x74] s
  replaceByte 0x0D [] s

/-- What `json_escape` makes of one byte. -/
def escapeByte (b : UInt8) : Bytes :=
  if b = 0x5C then [0x5C, 0x5C]
  else if b = 0x22 then [0x5C, 0x22]
  else if b = 0x0A then [0x5C, 0x6E]
  else if b = 0x09 then [0x5C, 0x74]
  else if b = 0x0D then []
  else [b]

/-- The text that is pasted for a file: its contents, cut after `max` bytes. -/
def fileText (contents : Bytes) (max : Nat) : Bytes :=
  commandSubst (truncateText (commandSubst contents) max)

/-- `json_or_file`: the contents of a file as a JSON string, or `null` without a file. -/
def jsonOrFile (file : Option Bytes) (max : Nat) : Bytes :=
  match file with
  | none => bytes "null"
  | some contents => bytes "\"" ++ commandSubst (jsonEscape (fileText contents max)) ++ bytes "\""

/-- The statuses that the script prints. -/
inductive Verdict
  | ac
  | wa
  | tle
  | mle
  | re
  | ole
  | pe
  | ce
  | se
  | skipped
  deriving DecidableEq, Repr

/-- The string of a status. -/
def Verdict.name : Verdict → Bytes
  | .ac => bytes "ac"
  | .wa => bytes "wa"
  | .tle => bytes "tle"
  | .mle => bytes "mle"
  | .re => bytes "re"
  | .ole => bytes "ole"
  | .pe => bytes "pe"
  | .ce => bytes "ce"
  | .se => bytes "se"
  | .skipped => bytes "skipped"

/-- The infos that `judge.sh` attaches to a case. The text of a special judge is a shell variable,
    cut before. -/
inductive Info
  | null
  | output (rawBytes : Nat) (limit : Int)
  | oomKilled
  | spjCompileFailed
  | noSpecialJudge
  | spj (reason : Bytes)
  | spjExit (rc : Nat)
  | spjExitReason (rc : Nat) (reason : Bytes)
  deriving DecidableEq, Repr

/-- The default of `SPJ_ERR`. -/
def spjErrDefault : Bytes := bytes "special judge source failed to compile"

/-- The part of an info that is pasted as it is. -/
def Info.raw : Info → Bytes
  | .null => []
  | .output rawBytes limit =>
    bytes "output " ++ decimal rawBytes ++ bytes " > " ++ decimalInt limit ++ bytes " bytes"
  | .oomKilled => bytes "OOM killed"
  | .spjCompileFailed => bytes "spj compile failed: " ++ spjErrDefault
  | .noSpecialJudge => bytes "no special judge configured"
  | .spj _ => []
  | .spjExit rc => bytes "spj exit=" ++ decimal rc
  | .spjExitReason rc _ => bytes "spj exit=" ++ decimal rc ++ bytes ": "

/-- The part of an info that goes through `json_escape`. -/
def Info.escaped : Info → Bytes
  | .spj reason => reason
  | .spjExitReason _ reason => reason
  | _ => []

/-- The JSON literal of an info. -/
def Info.literal : Info → Bytes
  | .null => bytes "null"
  | info => bytes "\"" ++ info.raw ++ commandSubst (jsonEscape info.escaped) ++ bytes "\""

/-- The arguments of `emit_case_line`; a file is given by its contents (`none` for the argument
    `null`). -/
structure CaseLine where
  index : Nat
  status : Verdict
  timeMs : Nat
  memKb : Nat
  info : Info
  input : Option Bytes
  expected : Option Bytes
  actual : Option Bytes
  stderr : Option Bytes
  deriving DecidableEq, Repr

/-- The default byte limit of the texts of a case, and of its stderr. -/
def caseTextMax : Nat := 4096

def caseStderrMax : Nat := 2048

/-- `emit_case_line`: one line of `case_results.jsonl`, without its newline. -/
def emitCaseLine (c : CaseLine) : Bytes :=
  bytes "\x7b\"index\":" ++ decimal c.index ++
  bytes ",\"status\":\"" ++ c.status.name ++
  bytes "\",\"time_ms\":" ++ decimal c.timeMs ++
  bytes ",\"mem_kb\":" ++ decimal c.memKb ++
  bytes ",\"info\":" ++ c.info.literal ++
  bytes ",\"input\":" ++ commandSubst (jsonOrFile c.input caseTextMax) ++
  bytes ",\"expected_output\":" ++ commandSubst (jsonOrFile c.expected caseTextMax) ++
  bytes ",\"actual_output\":" ++ commandSubst (jsonOrFile c.actual caseTextMax) ++
  bytes ",\"stderr\":" ++ commandSubst (jsonOrFile c.stderr caseStderrMax) ++
  bytes "\x7d"

/-- The file `case_results.jsonl`. -/
def jsonl (cases : List CaseLine) : Bytes := cases.flatMap fun c => emitCaseLine c ++ [0x0A]

/-- The records of awk: the lines of a file. -/
def records : Bytes → Bytes → List Bytes
  | [], [] => []
  | cur, [] => [cur]
  | cur, b :: t => if b = 0x0A then cur :: records [] t else records (cur ++ [b]) t

/-- `awk 'NR>1{printf ","} {printf "%s", $0}'`. -/
def awkJoin : List Bytes → Bytes
  | [] => []
  | l :: ls => l ++ ls.flatMap fun l' => bytes "," ++ l'

/-- `emit_case_results_from_jsonl`. -/
def emitCaseResultsFromJsonl (file : Bytes) : Bytes :=
  bytes "[" ++ awkJoin (records [] file) ++ bytes "]"

/-- The arguments of `emit_final_json`, with the case lines written before it. -/
structure Final where
  sid : Fin (2 ^ 31)
  status : Verdict
  error : Bytes
  timeMs : Nat
  memKb : Nat
  failedIndex : Option Nat
  cases : List CaseLine
  deriving DecidableEq, Repr

/-- `err_json` in `emit_final_json`: an empty message is `null`. -/
def errJson (err : Bytes) : Bytes :=
  if err.isEmpty then bytes "null"
  else bytes "\"" ++ commandSubst (jsonEscape err) ++ bytes "\""

/-- A number or `null`: `fid_json` in `emit_final_json`. -/
def fidJson : Option Nat → Bytes
  | none => bytes "null"
  | some i => decimal i

/-- `emit_final_json`: the line of the result, without its newline. -/
def emitFinalJson (f : Final) : Bytes :=
  bytes "\x7b\"submission_id\":" ++ decimal f.sid ++
  bytes ",\"status\":\"" ++ f.status.name ++
  bytes "\",\"time_used_ms\":" ++ decimal f.timeMs ++
  bytes ",\"memory_used_kb\":" ++ decimal f.memKb ++
  bytes ",\"error_message\":" ++ errJson f.error ++
  bytes ",\"failed_case_index\":" ++ fidJson f.failedIndex ++
  bytes ",\"case_results\":" ++ commandSubst (emitCaseResultsFromJsonl (jsonl f.cases)) ++
  bytes "\x7d"

/-- `die_se_json`. -/
def dieSeJson (sid : Option (Fin (2 ^ 31))) (msg : Bytes) : Bytes :=
  bytes "\x7b\"submission_id\":" ++ fidJson (sid.map Fin.val) ++
  bytes ",\"status\":\"se\",\"time_used_ms\":0,\"memory_used_kb\":0,\"error_message\":\"" ++
  commandSubst (jsonEscape msg) ++
  bytes "\",\"failed_case_index\":null,\"case_results\":[]\x7d"

/-! ## The texts as the shell holds them -/

/-- `json_escape` is one pass over the bytes. -/
theorem jsonEscape_eq (s : Bytes) : jsonEscape s = s.flatMap escapeByte := by
  simp only [jsonEscape, replaceByte, List.flatMap_assoc]
  congr 1
  funext b
  unfold escapeByte
  split_ifs with h₁ h₂ h₃ h₄ h₅ <;> simp_all

@[simp]
theorem jsonEscape_nil : jsonEscape [] = [] := rfl

@[simp]
theorem jsonEscape_cons (b : UInt8) (s : Bytes) :
    jsonEscape (b :: s) = escapeByte b ++ jsonEscape s := by
  simp only [jsonEscape_eq, List.flatMap_cons]

/-- An escaped text has no newline, and no CR. -/
theorem ne_of_mem_jsonEscape {s : Bytes} {c : UInt8} (h : c ∈ jsonEscape s) :
    c ≠ 0x0A ∧ c ≠ 0x0D := by
  rw [jsonEscape_eq, List.mem_flatMap] at h
  obtain ⟨b, -, h⟩ := h
  unfold escapeByte at h
  split_ifs at h with h₁ h₂ h₃ h₄ h₅
  · grind
  · grind
  · grind
  · grind
  · grind
  · rw [List.mem_singleton] at h
    exact h ▸ ⟨h₃, h₅⟩

/-- Dropping the zero bytes commutes with the escapes, which make none. -/
theorem filter_jsonEscape (s : Bytes) :
    (jsonEscape s).filter (· != 0) = jsonEscape (s.filter (· != 0)) := by
  induction s with
  | nil => rfl
  | cons b s ih =>
    rw [jsonEscape_cons, List.filter_append, ih, List.filter_cons]
    -- no escape sequence has a zero byte, so only a zero of `s` itself is dropped
    by_cases hb : b = 0
    · subst hb
      rfl
    · have he : (escapeByte b).filter (· != 0) = escapeByte b := by
        unfold escapeByte
        split_ifs <;> simp [hb]
      simp [hb, he]

/-- A text that does not end in a newline stands. -/
theorem rstripNewlines_of_not_mem {t : Bytes} (h : 0x0A ∉ t) : rstripNewlines t = t := by
  refine List.rdropWhile_eq_self_iff.2 fun hne => ?_
  simpa using fun he : t.getLast hne = 0x0A => h (he ▸ List.getLast_mem hne)

/-- A text without newline and zero byte stands. -/
theorem commandSubst_of_not_mem {t : Bytes} (h : 0x0A ∉ t) (h₀ : 0 ∉ t) : commandSubst t = t := by
  have hf : t.filter (· != 0) = t :=
    List.filter_eq_self.2 fun b hb => by simpa using fun he : b = 0 => h₀ (he ▸ hb)
  rw [commandSubst, hf, rstripNewlines_of_not_mem h]

theorem commandSubst_jsonEscape (s : Bytes) :
    commandSubst (jsonEscape s) = jsonEscape (s.filter (· != 0)) := by
  rw [commandSubst, filter_jsonEscape]
  exact rstripNewlines_of_not_mem fun h => (ne_of_mem_jsonEscape h).1 rfl

/-- A shell variable has no zero byte. -/
theorem not_mem_commandSubst (t : Bytes) : 0 ∉ commandSubst t := by
  intro h
  have h := (List.rdropWhile_prefix _ _).subset h
  simpa using (List.mem_filter.1 h).2

theorem not_mem_fileText (t : Bytes) (max : Nat) : 0 ∉ fileText t max := not_mem_commandSubst _

end LiteCode.Judge
