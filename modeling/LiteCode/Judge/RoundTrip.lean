import Mathlib.Data.List.Forall2
import LiteCode.Lib.JsonEscape
import LiteCode.Lib.JsonLiteral
import LiteCode.Judge.Script
import LiteCode.Judge.Result

/-!
# The result line, printed and read back

`judge.sh` prints its result as a line of JSON that is put together from shell variables and
files, and the scheduler reads it with a strict JSON parser. The line is an object of literals
(`emitFinalJson_eq`), of which the numbers and the statuses always read as values; a text does so
iff it is clean (`Clean`): `json_escape` does nothing about control characters other than tab,
newline and CR, nor about bytes that are not UTF-8, which a cut after a number of bytes can make
of a valid text.

* `scanString_jsonEscape`: what the parser makes of an escaped text;
* `roundTrip_iff`: the line is well-formed and the result is read back exactly if every text in it
  is legible and every number an `int`.
-/

namespace LiteCode.Judge

open Json

/-! ## Escaped texts -/

/-- The control characters of a text are tabs, newlines and CRs. -/
def Printable (t : Bytes) : Prop := ∀ b ∈ t, b < 0x20 → b = 0x09 ∨ b = 0x0A ∨ b = 0x0D

instance (t : Bytes) : Decidable (Printable t) := List.decidableBAll _ t

/-- The first byte is printable, and so is the rest. -/
theorem printable_cons {b : UInt8} {t : Bytes} :
    Printable (b :: t) ↔ (b < 0x20 → b = 0x09 ∨ b = 0x0A ∨ b = 0x0D) ∧ Printable t := by
  simp [Printable]

/-- A byte other than a carriage return is kept. -/
theorem stripCrlf_cons {b : UInt8} (h : b ≠ 0x0D) (t : Bytes) :
    stripCrlf (b :: t) = b :: stripCrlf t := by
  simp [stripCrlf, h]

/-- What the scanner of strings makes of an escaped text, from any state of the UTF-8 machine. -/
def scanned (q : Utf8.State) (t rest : Bytes) : Option (Bytes × Bytes) :=
  if Utf8.run q (stripCrlf t) = some Utf8.start ∧ Printable t then some (stripCrlf t, rest)
  else none

/-- A byte that is not escaped, or an escaped one: it is read, and the machine steps. -/
theorem scanned_cons {q : Utf8.State} {b : UInt8} (hb : b ≠ 0x0D)
    (hp : b < 0x20 → b = 0x09 ∨ b = 0x0A ∨ b = 0x0D) (t rest : Bytes) :
    scanned q (b :: t) rest = (Utf8.step q b).bind fun q' =>
      (scanned q' t rest).map fun p => (b :: p.1, p.2) := by
  simp only [scanned, stripCrlf_cons hb, Utf8.run, printable_cons]
  cases Utf8.step q b with
  | none => simp
  | some q' =>
    simp only [Option.bind_some]
    split_ifs <;> simp_all

/-- An escaped text is scanned back, as far as it is UTF-8. -/
theorem scanString_jsonEscape {q : Utf8.State} (hq : q.Good) (t rest : Bytes) :
    scanString q (jsonEscape t ++ 0x22 :: rest) = scanned q t rest := by
  induction t generalizing q with
  | nil =>
    rcases hq with rfl | ⟨hq, hlo⟩
    · simp [scanString_quote, scanned, stripCrlf, Utf8.run, Printable]
    · have hne : q ≠ Utf8.start := by rintro rfl; cases hq
      simp [scanString_of_owed hq hlo, scanned, stripCrlf, Utf8.run, hne]
  | cons b t ih =>
    -- the bytes with an escape are ASCII: between characters they are read, inside one nothing is
    have hesc : ∀ c, escapeByte b = [0x5C, c] → c ≠ 0x75 → escapedByte c = some b → b < 0x80 →
        b ≠ 0x0D → (b < 0x20 → b = 0x09 ∨ b = 0x0A ∨ b = 0x0D) →
        scanString q (jsonEscape (b :: t) ++ 0x22 :: rest) = scanned q (b :: t) rest := by
      intro c he hu hc hlt hcr hp
      rw [scanned_cons hcr hp, jsonEscape_cons, he]
      simp only [List.cons_append, List.nil_append]
      rcases hq with rfl | ⟨hq, hlo⟩
      · rw [scanString_escape hu hc, ih Utf8.good_start, Utf8.step_start_of_lt hlt]
        rfl
      · rw [scanString_of_owed hq hlo (by decide), Utf8.step_of_owed hq hlo hlt]
        rfl
    by_cases h₁ : b = 0x5C
    · subst h₁
      exact hesc 0x5C rfl (by decide) rfl (by decide) (by decide) (by decide)
    by_cases h₂ : b = 0x22
    · subst h₂
      exact hesc 0x22 rfl (by decide) rfl (by decide) (by decide) (by decide)
    by_cases h₃ : b = 0x0A
    · subst h₃
      exact hesc 0x6E rfl (by decide) rfl (by decide) (by decide) (by decide)
    by_cases h₄ : b = 0x09
    · subst h₄
      exact hesc 0x74 rfl (by decide) rfl (by decide) (by decide) (by decide)
    by_cases h₅ : b = 0x0D
    · subst h₅
      have he : jsonEscape (0x0D :: t) = jsonEscape t := by simp [escapeByte]
      have hs : stripCrlf (0x0D :: t) = stripCrlf t := by simp [stripCrlf]
      rw [he, ih hq, scanned, scanned, hs]
      exact if_congr (by simp [printable_cons]) rfl rfl
    have he : jsonEscape (b :: t) = b :: jsonEscape t := by
      simp [escapeByte, h₁, h₂, h₃, h₄, h₅]
    rw [he, List.cons_append, scanString.eq_def]
    simp only [h₁, h₂, and_false, if_false]
    split_ifs with hlt
    · refine (if_neg fun hc => ?_).symm
      simpa [h₃, h₄, h₅] using (printable_cons.1 hc.2).1 hlt
    · rw [scanned_cons h₅ fun h => absurd h hlt]
      cases hs : Utf8.step q b with
      | none => rfl
      | some q' => simp only [ih (Utf8.good_of_step hs), Option.bind_some]

/-- A text that `json_escape` makes a JSON string of: without its CRs it is well-formed UTF-8, and
    its only control characters are tabs, newlines and CRs. -/
def Clean (t : Bytes) : Prop := Utf8.WellFormed (stripCrlf t) ∧ Printable t

instance (t : Bytes) : Decidable (Clean t) := inferInstanceAs (Decidable (_ ∧ _))

/-! ## What is pasted -/

/-- Two texts that differ in removed CRs and in the newlines at their ends. -/
def SameText (t t' : Bytes) : Prop :=
  rstripNewlines (stripCrlf t) = rstripNewlines (stripCrlf t')

/-- A text in the line: its source, what bash holds of it, and the number of bytes up to which the
    source is kept. A shell variable has no zero byte, and a source that has none and is within
    the limit is held up to the newlines at its end. -/
structure Pasted where
  source : Bytes
  shown : Bytes
  limit : Option Nat
  noZero : 0 ∉ shown
  kept : (∀ m ∈ limit, source.length ≤ m) → 0 ∉ source →
    rstripNewlines shown = rstripNewlines source

theorem filter_of_not_mem {t : Bytes} (h : 0 ∉ t) : t.filter (· != 0) = t :=
  List.filter_eq_self.2 fun b hb => by simpa using fun he : b = 0 => h (he ▸ hb)

/-- Trailing newlines are stripped once. -/
theorem rstripNewlines_idem (t : Bytes) : rstripNewlines (rstripNewlines t) = rstripNewlines t :=
  List.rdropWhile_idempotent _ _

/-- A file within the limit is held without the newlines at its end. -/
theorem fileText_of_le {t : Bytes} {max : Nat} (h : t.length ≤ max) (h₀ : 0 ∉ t) :
    fileText t max = rstripNewlines t := by
  have hc : commandSubst t = rstripNewlines t := by rw [commandSubst, filter_of_not_mem h₀]
  have hp : rstripNewlines t <+: t := List.rdropWhile_prefix _ _
  have hn : 0 ∉ rstripNewlines t := fun hm => h₀ (hp.subset hm)
  rw [fileText, hc, truncateText, if_pos (hp.length_le.trans h), commandSubst,
    filter_of_not_mem hn, rstripNewlines_idem]

/-- A shell variable. -/
def Pasted.var (v : Bytes) : Pasted where
  source := v
  shown := v.filter (· != 0)
  limit := none
  noZero := by simp
  kept _ h := by rw [filter_of_not_mem h]

/-- A file. -/
def Pasted.file (max : Nat) (t : Bytes) : Pasted where
  source := t
  shown := fileText t max
  limit := some max
  noZero := not_mem_fileText t max
  kept h h₀ := by rw [fileText_of_le (h max rfl) h₀, rstripNewlines_idem]

/-- Escaping makes no zero byte. -/
theorem not_mem_jsonEscape {t : Bytes} (h : 0 ∉ t) : 0 ∉ jsonEscape t := by
  rw [← filter_of_not_mem h, ← filter_jsonEscape]
  simp

/-- The string literal of a text. -/
def Pasted.literal (p : Pasted) : Literal where
  text := strText (jsonEscape p.shown)
  json := (if Clean p.shown then some (stripCrlf p.shown) else none).map .str
  denotes := denotes_string fun rest => by
    rw [scanString_jsonEscape Utf8.good_start]
    change (if Clean p.shown then some _ else none) = _
    split_ifs <;> rfl
  oneLine := OneLine.strText fun _ hb =>
    ⟨fun he => not_mem_jsonEscape p.noZero (he ▸ hb), ne_of_mem_jsonEscape hb⟩

/-- The literal of a text, or `null` without one. -/
def textLiteral (p : Option Pasted) : Literal := (p.map Pasted.literal).getD .null

/-- The text of an info. -/
def Info.text (i : Info) : Bytes := i.raw ++ i.escaped

/-- An info as a text of the line. -/
def Info.pasted : Info → Option Pasted
  | .null => none
  | i => some (.var i.text)

/-- Texts are escaped byte by byte. -/
theorem jsonEscape_append (s t : Bytes) : jsonEscape (s ++ t) = jsonEscape s ++ jsonEscape t := by
  simp only [jsonEscape_eq, List.flatMap_append]

/-- A plain text needs no escapes. -/
theorem jsonEscape_plain {k : Bytes} (h : Plain k) : jsonEscape k = k := by
  induction k with
  | nil => rfl
  | cons b k ih =>
    have hb := h b List.mem_cons_self
    have he : escapeByte b = [b] := by
      simp only [isPlain, Bool.and_eq_true, decide_eq_true_eq, bne_iff_ne, ne_eq] at hb
      unfold escapeByte
      split_ifs <;> grind
    rw [jsonEscape_cons, he, ih fun c hc => h c (List.mem_cons_of_mem _ hc)]
    rfl

/-- What is pasted as it is, is plain. -/
theorem Info.plain_raw (i : Info) : Plain i.raw := by
  have hd := plain_decimal
  cases i with
  | null => decide
  | output rawBytes limit =>
    exact ((((show Plain (bytes "output ") by decide).append (hd _)).append (by decide)).append
      (plain_decimalInt _)).append (by decide)
  | oomKilled => decide
  | spjCompileFailed => decide
  | noSpecialJudge => decide
  | spj _ => exact show Plain [] by decide
  | spjExit rc => exact (show Plain (bytes "spj exit=") by decide).append (hd _)
  | spjExitReason rc _ =>
    exact ((show Plain (bytes "spj exit=") by decide).append (hd _)).append (by decide)

theorem filter_plain {k : Bytes} (h : Plain k) : k.filter (· != 0) = k :=
  filter_of_not_mem fun h₀ => (h.oneLine _ h₀).1 rfl

theorem bytes_quote : bytes "\"" = [0x22] := by decide

/-- An information that is there is pasted as a string. -/
theorem Info.literal_of_ne {i : Info} (h : i ≠ .null) :
    i.literal = strText (i.raw ++ commandSubst (jsonEscape i.escaped)) := by
  have he : i.literal =
      bytes "\"" ++ i.raw ++ commandSubst (jsonEscape i.escaped) ++ bytes "\"" := by
    cases i with
    | null => exact absurd rfl h
    | _ => rfl
  rw [he, strText, bytes_quote]
  simp

/-- What is pasted for an information is a literal. -/
theorem Info.literal_eq (i : Info) : i.literal = (textLiteral i.pasted).text := by
  by_cases h : i = .null
  · subst h
    rfl
  · have hp : i.pasted = some (.var i.text) := by
      cases i with
      | null => exact absurd rfl h
      | _ => rfl
    rw [Info.literal_of_ne h, hp, commandSubst_jsonEscape, ← jsonEscape_plain i.plain_raw,
      ← jsonEscape_append, ← filter_plain i.plain_raw, ← List.filter_append]
    rfl

/-- What is pasted for a file is a literal. -/
theorem jsonOrFile_eq (f : Option Bytes) (max : Nat) :
    commandSubst (jsonOrFile f max) = (textLiteral (f.map (.file max))).text := by
  cases f with
  | none => rfl
  | some t =>
    have h₀ := not_mem_jsonEscape (not_mem_fileText t max)
    have hn : (0x0A : UInt8) ∉ jsonEscape (fileText t max) :=
      fun h => (ne_of_mem_jsonEscape h).1 rfl
    have he : jsonOrFile (some t) max = strText (jsonEscape (fileText t max)) := by
      simp only [jsonOrFile, commandSubst_of_not_mem hn h₀, bytes_quote, strText,
        List.singleton_append]
    rw [he, commandSubst_of_not_mem]
    · rfl
    · simpa [strText] using hn
    · simpa [strText] using h₀

/-- The key of a member. -/
def key (s : String) (h : Plain (bytes s)) : {k // Plain k} := ⟨bytes s, h⟩

theorem Verdict.plain_name (v : Verdict) : Plain v.name := by
  cases v <;> decide

/-- A case line as a literal. -/
def CaseLine.members (c : CaseLine) : List ({k // Plain k} × Literal) :=
  [(key "index" (by decide), .num c.index),
    (key "status" (by decide), .str c.status.name c.status.plain_name),
    (key "time_ms" (by decide), .num c.timeMs),
    (key "mem_kb" (by decide), .num c.memKb),
    (key "info" (by decide), textLiteral c.info.pasted),
    (key "input" (by decide), textLiteral (c.input.map (.file caseTextMax))),
    (key "expected_output" (by decide), textLiteral (c.expected.map (.file caseTextMax))),
    (key "actual_output" (by decide), textLiteral (c.actual.map (.file caseTextMax))),
    (key "stderr" (by decide), textLiteral (c.stderr.map (.file caseStderrMax)))]

/-- The line of a case is the text of an object. -/
theorem emitCaseLine_eq (c : CaseLine) : emitCaseLine c = (Literal.obj c.members).text := by
  delta emitCaseLine
  simp only [Info.literal_eq, jsonOrFile_eq, List.append_assoc]
  simp only [CaseLine.members, Literal.obj, Literal.num, Literal.str, objText, List.map_cons,
    List.map_nil, commaSep, memberText, key, strText, List.append_assoc, List.cons_append]
  rfl

/-- It is one line. -/
theorem oneLine_emitCaseLine (c : CaseLine) : OneLine (emitCaseLine c) := by
  rw [emitCaseLine_eq]
  exact (Literal.obj c.members).oneLine

/-- A file of lines has these lines as its records. -/
theorem records_append (cur : Bytes) {e : Bytes} (h : OneLine e) (t : Bytes) :
    records cur (e ++ 0x0A :: t) = (cur ++ e) :: records [] t := by
  induction e generalizing cur with
  | nil => simp [records]
  | cons b e ih =>
    have hb := (h b List.mem_cons_self).2.1
    have ih := ih (cur ++ [b]) fun c hc => h c (List.mem_cons_of_mem _ hc)
    simp [records, hb, ih]

/-- The records that `awk` reads are the lines. -/
theorem records_jsonl (cases : List CaseLine) :
    records [] (jsonl cases) = cases.map emitCaseLine := by
  induction cases with
  | nil => rfl
  | cons c cases ih =>
    have h : jsonl (c :: cases) = emitCaseLine c ++ 0x0A :: jsonl cases := by
      rw [jsonl, List.flatMap_cons, List.append_assoc]
      rfl
    rw [h, records_append [] (oneLine_emitCaseLine c), ih, List.nil_append, List.map_cons]

/-- `awk` joins the lines with commas. -/
theorem awkJoin_eq (l : List Bytes) : awkJoin l = commaSep l := by
  induction l with
  | nil => rfl
  | cons e l ih =>
    cases l with
    | nil => simp [awkJoin, commaSep]
    | cons e' l =>
      rw [commaSep, ← ih]
      simp [awkJoin]
      rfl

/-- The case lines as literals. -/
def caseLiterals (cases : List CaseLine) : Literal := .arr (cases.map fun c => .obj c.members)

/-- The results of the cases are the text of an array. -/
theorem emitCaseResults_eq (cases : List CaseLine) :
    commandSubst (emitCaseResultsFromJsonl (jsonl cases)) = (caseLiterals cases).text := by
  have h : emitCaseResultsFromJsonl (jsonl cases) = (caseLiterals cases).text := by
    have hl : cases.map emitCaseLine = (cases.map fun c => Literal.obj c.members).map (·.text) := by
      rw [List.map_map]
      exact List.map_congr_left fun c _ => emitCaseLine_eq c
    rw [emitCaseResultsFromJsonl, records_jsonl, awkJoin_eq, hl]
    rfl
  have h₁ := (caseLiterals cases).oneLine
  rw [h, commandSubst_of_not_mem (fun hm => (h₁ _ hm).2.1 rfl) fun hm => (h₁ _ hm).1 rfl]

/-- The error message as a text of the line. -/
def Final.errorPasted (f : Final) : Option Pasted :=
  if f.error.isEmpty then none else some (.var f.error)

/-- The result line as a literal. -/
def Final.members (f : Final) : List ({k // Plain k} × Literal) :=
  [(key "submission_id" (by decide), .num f.sid),
    (key "status" (by decide), .str f.status.name f.status.plain_name),
    (key "time_used_ms" (by decide), .num f.timeMs),
    (key "memory_used_kb" (by decide), .num f.memKb),
    (key "error_message" (by decide), textLiteral f.errorPasted),
    (key "failed_case_index" (by decide), (f.failedIndex.map Literal.num).getD .null),
    (key "case_results" (by decide), caseLiterals f.cases)]

/-- The error is the text of a literal. -/
theorem errJson_eq (f : Final) : errJson f.error = (textLiteral f.errorPasted).text := by
  rw [errJson, Final.errorPasted]
  split_ifs
  · rfl
  · rw [commandSubst_jsonEscape, bytes_quote]
    rfl

/-- So is the index of the failed case. -/
theorem fidJson_eq (i : Option Nat) : fidJson i = ((i.map Literal.num).getD .null).text := by
  cases i <;> rfl

/-- The final line is the text of an object. -/
theorem emitFinalJson_eq (f : Final) : emitFinalJson f = (Literal.obj f.members).text := by
  delta emitFinalJson
  simp only [errJson_eq, fidJson_eq, emitCaseResults_eq, List.append_assoc]
  simp only [Final.members, Literal.obj, Literal.num, Literal.str, objText, List.map_cons,
    List.map_nil, commaSep, memberText, key, strText, List.append_assoc, List.cons_append]
  rfl

/-! ## The round trip -/

/-- The text is promised: its source is valid UTF-8 and within the limit. -/
def Pasted.Promised (p : Pasted) : Prop :=
  Utf8.WellFormed p.source ∧ ∀ m ∈ p.limit, p.source.length ≤ m

/-- A text, or its absence, is read back. -/
def Restored (r : Bytes) : Option Pasted → Prop
  | none => r = []
  | some p => p.Promised → SameText r p.source

/-- The result of a case is read back. -/
structure CaseRecovered (c : CaseLine) (r : CaseResult) : Prop where
  index : r.index = c.index
  status : r.status = c.status.name
  time : r.timeMs = c.timeMs
  mem : r.memKb = c.memKb
  info : Restored r.info c.info.pasted
  input : Restored r.input (c.input.map (.file caseTextMax))
  expected : Restored r.expectedOutput (c.expected.map (.file caseTextMax))
  actual : Restored r.actualOutput (c.actual.map (.file caseTextMax))
  stderr : Restored r.caseStderr (c.stderr.map (.file caseStderrMax))

/-- The result is read back. -/
structure Recovered (f : Final) (r : JudgeResult) : Prop where
  status : r.status = f.status.name
  time : r.timeUsedMs = f.timeMs
  mem : r.memoryUsedKb = f.memKb
  failed : r.failedCaseIndex = (f.failedIndex.map Int.ofNat).getD (-1)
  cases : List.Forall₂ CaseRecovered f.cases r.caseResults
  error : Restored r.errorMessage f.errorPasted

/-- The line is well-formed JSON, and a log that ends with it gives the result back. -/
def RoundTrip (floatToInt : Decimal → Int32) (f : Final) : Prop :=
  parse (emitFinalJson f) ≠ none ∧
  ∀ pre waitExitCode, (pre = [] ∨ ∃ p, pre = p ++ [0x0A]) →
    Recovered f (parseJudgeResultJson floatToInt (pre ++ emitFinalJson f ++ [0x0A]) waitExitCode)

/-- The text survives: what bash holds of it is clean, and no promised byte is a zero. -/
structure Pasted.Legible (p : Pasted) : Prop where
  clean : Clean p.shown
  kept : p.Promised → 0 ∉ p.source

def CaseLine.texts (c : CaseLine) : List (Option Pasted) :=
  [c.info.pasted, c.input.map (.file caseTextMax), c.expected.map (.file caseTextMax),
    c.actual.map (.file caseTextMax), c.stderr.map (.file caseStderrMax)]

def CaseLine.numbers (c : CaseLine) : List Nat := [c.index, c.timeMs, c.memKb]

/-- The texts of the line. -/
def Final.texts (f : Final) : List (Option Pasted) := f.errorPasted :: f.cases.flatMap (·.texts)

/-- The numbers of the line that are read back. -/
def Final.numbers (f : Final) : List Nat :=
  f.timeMs :: f.memKb :: f.failedIndex.toList ++ f.cases.flatMap (·.numbers)

/-- Every text of the line survives, and every number is an `int`. -/
structure Final.Legible (f : Final) : Prop where
  texts : ∀ p ∈ f.texts, ∀ q ∈ p, q.Legible
  numbers : ∀ n ∈ f.numbers, n < 2 ^ 31

/-! ### Texts -/

/-- Removing CRs and then the newlines at the end does not depend on the newlines at the end. -/
theorem sameText_of_rstrip {t t' : Bytes} (h : rstripNewlines t = rstripNewlines t') :
    SameText t t' := by
  have hr : ∀ t, rstripNewlines (stripCrlf (rstripNewlines t)) = rstripNewlines (stripCrlf t) := by
    intro t
    induction t using List.reverseRecOn with
    | nil => rfl
    | append_singleton t b ih =>
      by_cases hb : b = 0x0A
      · subst hb
        have hs : stripCrlf (t ++ [0x0A]) = stripCrlf t ++ [0x0A] := by simp [stripCrlf]
        rw [hs]
        simp only [rstripNewlines] at ih ⊢
        rw [List.rdropWhile_concat_pos _ _ _ (by simp), List.rdropWhile_concat_pos _ _ _ (by simp),
          ih]
      · have : rstripNewlines (t ++ [b]) = t ++ [b] := List.rdropWhile_concat_neg _ _ _ (by simpa)
        rw [this]
  rw [SameText, ← hr t, h, hr t']

/-- A zero byte is not stripped. -/
theorem zero_mem_rstripNewlines {t : Bytes} (h : 0 ∈ t) : 0 ∈ rstripNewlines (stripCrlf t) := by
  have h : 0 ∈ stripCrlf t := by simpa [stripCrlf] using h
  generalize stripCrlf t = u at h
  induction u using List.reverseRecOn with
  | nil => cases h
  | append_singleton u b ih =>
    by_cases hb : b = 0x0A
    · subst hb
      rw [rstripNewlines, List.rdropWhile_concat_pos _ _ _ (by simp)]
      exact ih (by simpa using h)
    · rw [rstripNewlines, List.rdropWhile_concat_neg _ _ _ (by simpa)]
      exact h

/-- Carriage returns are stripped once. -/
theorem stripCrlf_idem (t : Bytes) : stripCrlf (stripCrlf t) = stripCrlf t := by
  simp [stripCrlf]

/-- A clean text is read back iff no promised byte of it is a zero. -/
theorem restored_iff (p : Pasted) :
    (p.Promised → SameText (stripCrlf p.shown) p.source) ↔ (p.Promised → 0 ∉ p.source) := by
  refine forall_congr' fun hp => ⟨fun h h₀ => ?_, fun h => ?_⟩
  -- bash dropped the zero byte, so the texts differ
  · have hz := zero_mem_rstripNewlines h₀
    rw [← h, stripCrlf_idem] at hz
    have := (List.rdropWhile_prefix _ _).subset hz
    exact p.noZero (List.mem_filter.1 this).1
  · rw [SameText, stripCrlf_idem]
    exact sameText_of_rstrip (p.kept hp.2 h)

/-- The literal of a text is a value iff what bash holds of it is clean. -/
theorem isSome_textLiteral (p : Option Pasted) :
    (textLiteral p).json.isSome ↔ ∀ q ∈ p, Clean q.shown := by
  cases p with
  | none => simp [textLiteral, Literal.null]
  | some p =>
    simp only [textLiteral, Option.map_some, Option.getD_some, Pasted.literal, Option.isSome_map,
      Option.mem_def, Option.some.injEq, forall_eq']
    split_ifs with h <;> simp [h]

/-- The field of a text is read back iff the text survives. -/
theorem strField_text {j : Json} {k : Bytes} {p : Option Pasted}
    (h : j.get? k = (textLiteral p).json) (hs : (textLiteral p).json.isSome) :
    Restored (strField j k []) p ↔ ∀ q ∈ p, q.Legible := by
  have hc := (isSome_textLiteral p).1 hs
  cases p with
  | none =>
    have hf : strField j k [] = [] := by
      rw [strField, h]
      rfl
    simp [Restored, hf]
  | some p =>
    have hf : strField j k [] = stripCrlf p.shown := by
      have : (textLiteral (some p)).json = some (.str (stripCrlf p.shown)) := by
        simp only [textLiteral, Option.map_some, Option.getD_some, Pasted.literal,
          if_pos (hc p rfl)]
      rw [strField, h, this]
    rw [hf]
    refine (restored_iff p).trans ⟨fun h q hq => ?_, fun h => (h p rfl).kept⟩
    obtain rfl := Option.some_inj.1 hq
    exact ⟨hc _ rfl, h⟩

/-- A plain string is read back. -/
theorem strField_str {j : Json} {k s : Bytes} (hs : Plain s) (d : Bytes)
    (h : j.get? k = (Literal.str s hs).json) : strField j k d = s := by
  rw [strField, h]
  rfl

/-! ### Numbers -/

/-- A number below `2 ^ 31` is an `int` as it is. -/
theorem bmod_iff (n : Nat) : (n : Int).bmod (2 ^ 32) = n ↔ n < 2 ^ 31 := by
  rw [Int.bmod_def]
  split_ifs <;> omega

/-- A number is read back iff it is an `int`. -/
theorem getInt_ofNat? (floatToInt : Decimal → Int32) {n : Nat} {v : Json} (h : ofNat? n = some v) :
    ∃ m, v = .num m ∧ (getInt floatToInt m = n ↔ n < 2 ^ 31) := by
  rcases Nat.lt_or_ge n (2 ^ 64) with hn | hn
  · rw [ofNat?_of_lt hn] at h
    exact ⟨_, (Option.some_inj.1 h).symm, bmod_iff n⟩
  -- such a number is read as a double, and `int` is too small for it anyway
  · refine ⟨_, ofNat?_of_le hn h, ?_⟩
    have hlt := (floatToInt ⟨false, n, 0⟩).toInt_lt
    have hbig : 2 ^ 31 ≤ n := Nat.le_trans (by decide) hn
    refine ⟨fun he => ?_, fun h => absurd h (Nat.not_lt.2 hbig)⟩
    have he : (floatToInt ⟨false, n, 0⟩).toInt = n := he
    omega

/-- Such a number is read. -/
theorem isSome_ofNat? {n : Nat} (h : n < 2 ^ 31) : (ofNat? n).isSome := by
  have h64 : n < 2 ^ 64 := Nat.lt_trans h (by decide)
  rw [ofNat?_of_lt h64]
  exact Option.isSome_some

/-- A number field is read as it is exactly if it is below `2 ^ 31`. -/
theorem intField_num (floatToInt : Decimal → Int32) {j : Json} {k : Bytes} {n : Nat} (d : Int)
    (h : j.get? k = ofNat? n) (hs : (ofNat? n).isSome) :
    intField floatToInt j k d = n ↔ n < 2 ^ 31 := by
  obtain ⟨v, hv⟩ := Option.isSome_iff_exists.1 hs
  obtain ⟨m, rfl, hm⟩ := getInt_ofNat? floatToInt hv
  rw [intField, h, hv]
  exact hm

/-! ### Cases -/

/-- Every text of the case survives, and every number is an `int`. -/
structure CaseLine.Legible (c : CaseLine) : Prop where
  texts : ∀ p ∈ c.texts, ∀ q ∈ p, q.Legible
  numbers : ∀ n ∈ c.numbers, n < 2 ^ 31

/-- The keys of a line are distinct. -/
theorem CaseLine.nodup_keys (c : CaseLine) : (c.members.map (·.1.1)).Nodup := by
  show [bytes "index", bytes "status", bytes "time_ms", bytes "mem_kb", bytes "info",
    bytes "input", bytes "expected_output", bytes "actual_output", bytes "stderr"].Nodup
  decide

/-- A legible line is read. -/
theorem CaseLine.isSome_of_legible {c : CaseLine} (h : c.Legible) :
    (Literal.obj c.members).json.isSome := by
  rw [Literal.isSome_obj]
  have hn := h.numbers
  have ht : ∀ p ∈ c.texts, (textLiteral p).json.isSome := fun p hp =>
    (isSome_textLiteral p).2 fun q hq => (h.texts p hp q hq).clean
  simp only [numbers, texts, List.forall_mem_cons] at hn ht
  obtain ⟨hi, htime, hmem, -⟩ := hn
  obtain ⟨h₁, h₂, h₃, h₄, h₅, -⟩ := ht
  simp only [members, List.forall_mem_cons]
  exact ⟨isSome_ofNat? hi, rfl, isSome_ofNat? htime, isSome_ofNat? hmem, h₁, h₂, h₃, h₄, h₅,
    fun _ h => absurd h List.not_mem_nil⟩

/-- A case line that reads as a value gives a result, which is the case's iff the line is
    legible. -/
theorem CaseLine.recovered_iff (floatToInt : Decimal → Int32) {c : CaseLine} {j : Json}
    (h : (Literal.obj c.members).json = some j) :
    ∃ r, readCase floatToInt j = some r ∧ (CaseRecovered c r ↔ c.Legible) := by
  have hs := Literal.isSome_obj.1 (Option.isSome_of_eq_some h)
  have hg : ∀ p ∈ c.members, j.get? p.1.1 = p.2.json := fun p hp =>
    Literal.obj_get? h c.nodup_keys hp
  simp only [members, List.forall_mem_cons] at hs hg
  obtain ⟨s₁, -, s₃, s₄, s₅, s₆, s₇, s₈, s₉, -⟩ := hs
  obtain ⟨g₁, g₂, g₃, g₄, g₅, g₆, g₇, g₈, g₉, -⟩ := hg
  obtain ⟨ms, -, rfl⟩ := Option.map_eq_some_iff.1 h
  refine ⟨_, rfl, ?_⟩
  -- Field by field: it is recovered iff its literal is legible.
  have hi := intField_num floatToInt 0 g₁ s₁
  have htime := intField_num floatToInt 0 g₃ s₃
  have hmem := intField_num floatToInt 0 g₄ s₄
  have h₅ := strField_text g₅ s₅
  have h₆ := strField_text g₆ s₆
  have h₇ := strField_text g₇ s₇
  have h₈ := strField_text g₈ s₈
  have h₉ := strField_text g₉ s₉
  constructor
  · intro hr
    refine ⟨?_, ?_⟩
    · simp only [texts, List.forall_mem_cons]
      exact ⟨h₅.1 hr.info, h₆.1 hr.input, h₇.1 hr.expected, h₈.1 hr.actual, h₉.1 hr.stderr,
        fun _ h => absurd h List.not_mem_nil⟩
    · simp only [numbers, List.forall_mem_cons]
      exact ⟨hi.1 hr.index, htime.1 hr.time, hmem.1 hr.mem, fun _ h => absurd h List.not_mem_nil⟩
  · intro hl
    have ht := hl.texts
    have hn := hl.numbers
    simp only [texts, numbers, List.forall_mem_cons] at ht hn
    exact {
      index := hi.2 hn.1
      status := strField_str c.status.plain_name [] g₂
      time := htime.2 hn.2.1
      mem := hmem.2 hn.2.2.1
      info := h₅.2 ht.1
      input := h₆.2 ht.2.1
      expected := h₇.2 ht.2.2.1
      actual := h₈.2 ht.2.2.2.1
      stderr := h₉.2 ht.2.2.2.2.1 }

/-- The case lines that read as values give one result each. -/
theorem recovered_cases (floatToInt : Decimal → Int32) {cases : List CaseLine} {vs : List Json}
    (h : List.Forall₂ (fun c v => (Literal.obj c.members).json = some v) cases vs) :
    List.Forall₂ CaseRecovered cases (vs.filterMap (readCase floatToInt)) ↔
      ∀ c ∈ cases, c.Legible := by
  induction h with
  | nil => simp
  | cons hc _ ih =>
    obtain ⟨r, hr, hl⟩ := CaseLine.recovered_iff floatToInt hc
    rw [List.filterMap_cons_some hr, List.forall₂_cons, List.forall_mem_cons, ih, hl]

/-! ### The line -/

/-- The keys of the final object are distinct. -/
theorem Final.nodup_keys (f : Final) : (f.members.map (·.1.1)).Nodup := by
  show [bytes "submission_id", bytes "status", bytes "time_used_ms", bytes "memory_used_kb",
    bytes "error_message", bytes "failed_case_index", bytes "case_results"].Nodup
  decide

/-- The parts of a legible line. -/
theorem Final.legible_iff (f : Final) :
    f.Legible ↔ (∀ q ∈ f.errorPasted, q.Legible) ∧ f.timeMs < 2 ^ 31 ∧ f.memKb < 2 ^ 31 ∧
      (∀ i ∈ f.failedIndex, i < 2 ^ 31) ∧ ∀ c ∈ f.cases, c.Legible := by
  constructor
  · rintro ⟨ht, hn⟩
    simp only [texts, numbers, List.cons_append, List.forall_mem_cons, List.forall_mem_append,
      List.forall_mem_flatMap, Option.mem_toList] at ht hn
    exact ⟨ht.1, hn.1, hn.2.1, hn.2.2.1, fun c hc => ⟨ht.2 c hc, hn.2.2.2 c hc⟩⟩
  · rintro ⟨he, htime, hmem, hi, hc⟩
    refine ⟨?_, ?_⟩
    · simp only [texts, List.forall_mem_cons, List.forall_mem_flatMap]
      exact ⟨he, fun c h => (hc c h).texts⟩
    · simp only [numbers, List.cons_append, List.forall_mem_cons, List.forall_mem_append,
        List.forall_mem_flatMap, Option.mem_toList]
      exact ⟨htime, hmem, hi, fun c h => (hc c h).numbers⟩

theorem isSome_index {i : Option Nat} (h : ∀ n ∈ i, n < 2 ^ 31) :
    ((i.map Literal.num).getD .null).json.isSome := by
  cases i with
  | none => rfl
  | some n => exact isSome_ofNat? (h n rfl)

/-- The index of the failed case is read back exactly if it is an `int`. -/
theorem intField_index (floatToInt : Decimal → Int32) {j : Json} {k : Bytes} {i : Option Nat}
    (h : j.get? k = ((i.map Literal.num).getD .null).json)
    (hs : ((i.map Literal.num).getD .null).json.isSome) :
    intField floatToInt j k (-1) = (i.map Int.ofNat).getD (-1) ↔ ∀ n ∈ i, n < 2 ^ 31 := by
  cases i with
  | none =>
    have hf : intField floatToInt j k (-1) = -1 := by
      rw [intField, h]
      rfl
    simp [hf]
  | some n => simpa using intField_num floatToInt (-1) h hs

/-- A legible result is read. -/
theorem Final.isSome_of_legible {f : Final} (h : f.Legible) :
    (Literal.obj f.members).json.isSome := by
  obtain ⟨he, htime, hmem, hi, hc⟩ := f.legible_iff.1 h
  have hcases : (caseLiterals f.cases).json.isSome := by
    rw [caseLiterals, Literal.isSome_arr, List.forall_mem_map]
    exact fun c h => CaseLine.isSome_of_legible (hc c h)
  rw [Literal.isSome_obj]
  simp only [members, List.forall_mem_cons]
  exact ⟨isSome_ofNat? f.sid.isLt, rfl, isSome_ofNat? htime, isSome_ofNat? hmem,
    (isSome_textLiteral _).2 fun q hq => (he q hq).clean, isSome_index hi, hcases,
    fun _ h => absurd h List.not_mem_nil⟩

/-- A line that reads as a value gives a result, which is the computed one iff the line is
    legible. -/
theorem Final.recovered_iff (floatToInt : Decimal → Int32) {f : Final} {j : Json}
    (h : (Literal.obj f.members).json = some j) :
    Recovered f (readResult floatToInt j) ↔ f.Legible := by
  have hs := Literal.isSome_obj.1 (Option.isSome_of_eq_some h)
  have hg : ∀ p ∈ f.members, j.get? p.1.1 = p.2.json := fun p hp =>
    Literal.obj_get? h f.nodup_keys hp
  simp only [members, List.forall_mem_cons] at hs hg
  obtain ⟨-, -, s₃, s₄, s₅, s₆, s₇, -⟩ := hs
  obtain ⟨-, g₂, g₃, g₄, g₅, g₆, g₇, -⟩ := hg
  have htime := intField_num floatToInt 0 g₃ s₃
  have hmem := intField_num floatToInt 0 g₄ s₄
  have he := strField_text g₅ s₅
  have hi := intField_index floatToInt g₆ s₆
  -- the elements of the array are the case lines
  obtain ⟨v, hv⟩ := Option.isSome_iff_exists.1 s₇
  obtain ⟨vs, rfl, hvs⟩ := Literal.arr_forall₂ hv
  have hcases := recovered_cases floatToInt (List.forall₂_map_left_iff.1 hvs)
  have hr : (readResult floatToInt j).caseResults = vs.filterMap (readCase floatToInt) := by
    have : j.get? (bytes "case_results") = some (.arr vs) := g₇.trans hv
    simp only [readResult, this]
  rw [f.legible_iff]
  constructor
  · intro hrec
    exact ⟨he.1 hrec.error, htime.1 hrec.time, hmem.1 hrec.mem, hi.1 hrec.failed,
      hcases.1 (hr ▸ hrec.cases)⟩
  · rintro ⟨h₅, h₃, h₄, h₆, h₇⟩
    exact {
      status := strField_str f.status.plain_name _ g₂
      time := htime.2 h₃
      mem := hmem.2 h₄
      failed := hi.2 h₆
      cases := hr ▸ hcases.2 h₇
      error := he.2 h₅ }

/-- The final line is read as its object. -/
theorem parse_emitFinalJson (f : Final) :
    parse (emitFinalJson f) = (Literal.obj f.members).json := by
  rw [emitFinalJson_eq, Literal.parse_text_obj]

/-- The text of an object is recognised in the log. -/
theorem readLine_obj (ms : List ({k // Plain k} × Literal)) :
    readLine (Literal.obj ms).text = (Literal.obj ms).json := by
  have hp := Literal.parse_text_obj ms
  have hb : ∃ t, (Literal.obj ms).text = 0x7B :: t := ⟨_, rfl⟩
  obtain ⟨t, ht⟩ := hb
  rw [ht] at hp ⊢
  rw [readLine, List.dropWhile_cons_of_neg (by decide)]
  simp only [hp]
  cases hj : (Literal.obj ms).json with
  | none => rfl
  | some j =>
    obtain ⟨l, -, rfl⟩ := Option.map_eq_some_iff.1 hj
    rfl

/-- The round trip succeeds exactly for the legible lines. -/
theorem roundTrip_iff (floatToInt : Decimal → Int32) (f : Final) :
    RoundTrip floatToInt f ↔ f.Legible := by
  have hline : ∀ b ∈ emitFinalJson f, b ≠ 0x0A ∧ b ≠ 0x0D := by
    rw [emitFinalJson_eq]
    exact fun b hb => ((Literal.obj f.members).oneLine b hb).2
  have hread : readLine (emitFinalJson f) = parse (emitFinalJson f) := by
    rw [parse_emitFinalJson, emitFinalJson_eq, readLine_obj]
  constructor
  · rintro ⟨hp, hr⟩
    -- one log is enough for this direction: the line alone
    obtain ⟨j, hj⟩ := Option.ne_none_iff_exists'.1 hp
    have h := hr [] 0 (.inl rfl)
    rw [parseJudgeResultJson_last floatToInt 0 (.inl rfl) hline (hread.trans hj)] at h
    exact (Final.recovered_iff floatToInt (parse_emitFinalJson f ▸ hj)).1 h
  · intro hl
    obtain ⟨j, hj⟩ := Option.isSome_iff_exists.1 (Final.isSome_of_legible hl)
    have hp : parse (emitFinalJson f) = some j := (parse_emitFinalJson f).trans hj
    refine ⟨by simp [hp], fun pre code hpre => ?_⟩
    rw [parseJudgeResultJson_last floatToInt code hpre hline (hread.trans hp)]
    exact (Final.recovered_iff floatToInt hj).2 hl

/-- A task with one case, whose expected output has the control character ESC. -/
def escTask : TaskFile where
  submissionId := 1
  language := bytes "cpp"
  code := bytes "int main()\x7b\x7d"
  timeLimitMs := 1000
  memoryLimitMb := 256
  compileTimeoutMs := 10000
  runHardTimeoutMs := 30000
  outputLimitBytes := 16777216
  specialJudgeSource := none
  specialJudgeLanguage := none
  testCases := [⟨[], [0x1B], bytes "exact", none, 0⟩]

/-- The program prints the expected output. -/
def escEnv : Env where
  spjCompile := ⟨0, true⟩
  compile := ⟨0, true, []⟩
  startMs := 0
  run _ := ⟨0, 0, [0x1B, 0x0A], [], 0, 0, 0, true, .unreadable []⟩

/-- The program is accepted, but the line with its output is not JSON. -/
theorem esc_not_roundTrip : ∃ f, judgeSh (.task escTask) escEnv = .final f ∧ f.status = .ac ∧
    parse (emitFinalJson f) = none ∧ ∀ floatToInt, ¬ RoundTrip floatToInt f := by
  have hp : ∃ f, judgeSh (.task escTask) escEnv = .final f ∧ f.status = .ac ∧
      (parse (emitFinalJson f)).isNone := by
    refine ⟨⟨1, .ac, [], 0, 0, none, [⟨0, .ac, 0, 0, .null, some [], some [0x1B, 0x0A],
      some [0x1B, 0x0A], some []⟩]⟩, ?_, rfl, ?_⟩ <;> decide +kernel
  obtain ⟨f, hf, hac, hp⟩ := hp
  have hp := Option.isNone_iff_eq_none.1 hp
  exact ⟨f, hf, hac, hp, fun _ h => h.1 hp⟩

/-! ## The status alone -/

/-- A line that is an object with a status gives this status, or `se` if it does not read as
    JSON. -/
theorem status_of_obj (floatToInt : Decimal → Int32) {ms : List ({k // Plain k} × Literal)}
    (hn : (ms.map (·.1.1)).Nodup) {v : Bytes} (hv : Plain v)
    (h : (key "status" (by decide), Literal.str v hv) ∈ ms) (code : Int) :
    (parseJudgeResultJson floatToInt ((Literal.obj ms).text ++ [0x0A]) code).status = v ∨
    (parseJudgeResultJson floatToInt ((Literal.obj ms).text ++ [0x0A]) code).status =
      bytes "se" := by
  have hline : ∀ b ∈ (Literal.obj ms).text, b ≠ 0x0A ∧ b ≠ 0x0D :=
    fun b hb => ((Literal.obj ms).oneLine b hb).2
  cases hj : (Literal.obj ms).json with
  | none =>
    exact .inr (parseJudgeResultJson_none floatToInt code hline ((readLine_obj ms).trans hj))
  | some j =>
    have hl := parseJudgeResultJson_last floatToInt code (.inl rfl) hline
      ((readLine_obj ms).trans hj)
    rw [List.nil_append] at hl
    rw [hl]
    exact .inl (strField_str hv _ (Literal.obj_get? hj hn h))

/-- The members of the line of `die_se_json`. -/
def dieSeMembers (sid : Option (Fin (2 ^ 31))) (msg : Bytes) : List ({k // Plain k} × Literal) :=
  [(key "submission_id" (by decide), ((sid.map Fin.val).map Literal.num).getD .null),
    (key "status" (by decide), .str (bytes "se") (by decide)),
    (key "time_used_ms" (by decide), .num 0),
    (key "memory_used_kb" (by decide), .num 0),
    (key "error_message" (by decide), (Pasted.var msg).literal),
    (key "failed_case_index" (by decide), .null),
    (key "case_results" (by decide), .arr [])]

/-- The line of `die_se` is the text of an object. -/
theorem dieSeJson_eq (sid : Option (Fin (2 ^ 31))) (msg : Bytes) :
    dieSeJson sid msg = (Literal.obj (dieSeMembers sid msg)).text := by
  have hm : (Pasted.var msg).literal.text = strText (jsonEscape (msg.filter (· != 0))) := rfl
  delta dieSeJson
  simp only [fidJson_eq, commandSubst_jsonEscape, List.append_assoc]
  simp only [dieSeMembers, hm, Literal.obj, Literal.num, Literal.str, objText, List.map_cons,
    List.map_nil, commaSep, memberText, key, strText, List.append_assoc, List.cons_append]
  rfl

/-- The status that the scheduler reads from what the script prints is `ac` only for a submission
    without test cases, or with this verdict. -/
theorem ac_of_stdout {floatToInt : Decimal → Int32} {o : Outcome} {code : Int}
    (h : (parseJudgeResultJson floatToInt o.stdout code).status = bytes "ac") :
    (∃ sid, o = .noCases sid) ∨ ∃ f, o = .final f ∧ f.status = .ac := by
  have hse : bytes "se" ≠ bytes "ac" := by decide
  cases o with
  | died rc => exact absurd h hse
  | dieSe sid msg =>
    rw [Outcome.stdout, dieSeJson_eq] at h
    have hn : ((dieSeMembers sid msg).map (·.1.1)).Nodup := by
      show [bytes "submission_id", bytes "status", bytes "time_used_ms", bytes "memory_used_kb",
        bytes "error_message", bytes "failed_case_index", bytes "case_results"].Nodup
      decide
    rcases status_of_obj floatToInt hn (show Plain (bytes "se") by decide) (by simp [dieSeMembers])
      code with hs | hs
    -- the status `se` is printed, or read for want of a line
    · exact absurd (hs.symm.trans h) hse
    · exact absurd (hs.symm.trans h) hse
  | noCases sid => exact .inl ⟨sid, rfl⟩
  | final f =>
    rw [Outcome.stdout, emitFinalJson_eq] at h
    refine .inr ⟨f, rfl, ?_⟩
    rcases status_of_obj floatToInt f.nodup_keys f.status.plain_name (by simp [Final.members])
      code with hs | hs
    · have hname : f.status.name = Verdict.ac.name := hs.symm.trans h
      revert hname
      cases f.status <;> decide
    · exact absurd (hs.symm.trans h) hse

end LiteCode.Judge
