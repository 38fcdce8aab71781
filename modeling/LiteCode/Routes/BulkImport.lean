import LiteCode.Db.ProblemRepo
import LiteCode.Routes.ErrorHandler

/-!
# Bulk import

`process_one_file` of `src/routes/admin_bulk_import_routes.h` imports one uploaded file: it reads
the JSON text, checks the fields of the problem, and writes the problem with its tags, samples and
test cases. With `on_duplicate=skip` a file whose slug belongs to a live problem is skipped. The
look-up does not see soft-deleted problems, and `create` refuses their slugs, so that such a file
goes on to `upsert`, which overwrites the row and revives it.

What a call meets is given as an `Env`: the faults of its statements, and the ids that
`find_or_create_many` gives for the names of the tags.

* `checkFile`: the checks of the fields, in turn;
* `skip_iff`: with `skip`, the problems are kept and a taken slug is reported as skipped exactly if
  the slug is free, or the file passes the checks, the look-up succeeds and the problem that has
  the slug is live.
-/

namespace LiteCode.BulkImport

open ErrorHandler ProblemRepo

/-! ## Fields -/

/-- What a helper writes into the record of a file that fails. -/
structure Failure where
  stage : Bytes := []
  reason : Bytes := []
  details : Option (List Detail) := none
  deriving DecidableEq, Repr

/-- A field that does not pass its check. -/
def invalid (reason : Bytes) (details : List Detail) : Failure :=
  ⟨bytes "validate", reason, some details⟩

/-- A text member of `details`. -/
def text (key : String) (value : Bytes) : Detail := .text (bytes key) value

/-- A field that must be there and be a string. -/
def requireField (name : String) (body : Json) : Except Failure Bytes :=
  match body.get? (bytes name) with
  | some (.str s) => .ok s
  | _ => .error (invalid (bytes "missing or non-string field '" ++ bytes name ++ bytes "'")
      [field (bytes name)])

/-- `require_string`. -/
def requireString : Json → Except Failure Bytes := requireField "slug"

/-- `require_title`. -/
def requireTitle : Json → Except Failure Bytes := requireField "title"

/-- `require_difficulty`. -/
def requireDifficulty : Json → Except Failure Bytes := requireField "difficulty"

/-- `require_description`. -/
def requireDescription : Json → Except Failure Bytes := requireField "description"

/-- The values of `judge_type`. -/
def judgeTypes : List Bytes :=
  [bytes "exact", bytes "ignore_trailing", bytes "float_eps", bytes "special",
    bytes "ignore_case", bytes "ignore_all_whitespace"]

/-- A field that has not the type it must have if it is there. -/
def notWhenPresent (name what : String) : Failure :=
  invalid (bytes "field '" ++ bytes name ++ bytes "' must be " ++ bytes what ++
    bytes " when present") [field (bytes name)]

/-- `require_judge_type`. -/
def requireJudgeType (body : Json) : Except Failure Bytes :=
  match body.get? (bytes "judge_type") with
  | none | some .null => .ok (bytes "exact")
  | some (.str v) =>
    if v.isEmpty then .ok (bytes "exact")
    else if judgeTypes.contains v then .ok v
    else .error (invalid (bytes ("judge_type must be one of: exact, ignore_trailing, float_eps, " ++
        "special, ignore_case, ignore_all_whitespace"))
      [field (bytes "judge_type"), text "value" (truncateForEnvelope v)])
  | some _ => .error (notWhenPresent "judge_type" "a string")

/-- `get<int>()` of a number that `is_number_integer`. -/
def getInteger : Json → Option Int
  | .num (.unsigned n) => some ((n : Int).bmod (2 ^ 32))
  | .num (.integer n) => some (n.bmod (2 ^ 32))
  | _ => none

/-- `optional_int_field`. -/
def optionalIntField (body : Json) (name : String) (min max : Int) :
    Except Failure (Option Int) :=
  match body.get? (bytes name) with
  | none | some .null => .ok none
  | some j =>
    match getInteger j with
    | none => .error (notWhenPresent name "an integer")
    | some v =>
      if v < min ∨ max < v then
        .error (invalid (bytes "field '" ++ bytes name ++ bytes "' out of range")
          [field (bytes name), text "value" (decimalInt v), text "min" (decimalInt min),
            text "max" (decimalInt max)])
      else .ok (some v)

/-- `optional_string_field`. -/
def optionalStringField (body : Json) (name : String) (maxSize : Nat) :
    Except Failure (Option Bytes) :=
  match body.get? (bytes name) with
  | none | some .null => .ok none
  | some (.str v) =>
    if maxSize < v.length then
      .error (invalid (bytes "field '" ++ bytes name ++ bytes "' exceeds max size of " ++
          decimal maxSize ++ bytes " bytes")
        [field (bytes name), text "size" (decimal v.length)])
    else .ok (some v)
  | some _ => .error (notWhenPresent name "a string")

/-! ## Arrays -/

/-- An entry of an array that does not pass its check. -/
def invalidEntry (array : String) (i : Nat) (reason : Bytes) (details : List Detail) : Failure :=
  invalid reason (field (bytes array) :: text "index" (decimal i) :: details)

/-- An array that may be missing, with its entries read one after the other. -/
def parseArray {α : Type} (array entries : String) (entry : Json → Nat → Except Failure α)
    (body : Json) : Except Failure (List α) :=
  match body.get? (bytes array) with
  | none | some .null => .ok []
  | some (.arr l) => l.zipIdx.mapM fun x => entry x.1 x.2
  | some _ => .error (invalid (bytes array ++ bytes " must be an array of " ++ bytes entries)
      [field (bytes array)])

/-- A space or a tab. -/
def isBlank (c : UInt8) : Bool := c == 0x20 || c == 0x09

/-- `trim_tag_name`. -/
def trimTagName (name : Bytes) : Bytes :=
  ((name.dropWhile isBlank).reverse.dropWhile isBlank).reverse

/-- `validate_tag_name`. -/
def validateTagName (name : Bytes) : Except Bytes Unit := do
  require (1 ≤ name.length && name.length ≤ 50) (between "tag name length" 1 50 "")
  require (!(name.head?.any isBlank || name.getLast?.any isBlank))
    (bytes "tag name must not start or end with whitespace")
  require (name.all fun c => 0x20 ≤ c && c != 0x7F)
    (bytes "tag name must not contain control characters")

/-- An entry of `tags`: an empty name has no message. -/
def parseTag (el : Json) (i : Nat) : Except Failure Bytes :=
  match el with
  | .str raw =>
    let trimmed := trimTagName raw
    let refuse (err : Bytes) : Failure :=
      invalidEntry "tags" i (bytes "invalid tag name at index " ++ decimal i ++ bytes ": " ++ err)
        [text "value" (truncateForEnvelope raw)]
    if trimmed.isEmpty then .error (refuse [])
    else match validateTagName trimmed with
      | .error err => .error (refuse err)
      | .ok () => .ok trimmed
  | _ => .error (invalidEntry "tags" i (bytes "tags entries must be strings") [])

/-- `parse_tags_array`. -/
def parseTagsArray : Json → Except Failure (List Bytes) := parseArray "tags" "strings" parseTag

/-- A member of an entry that must be a string. -/
def entryString (array : String) (el : Json) (i : Nat) (subfield : String) :
    Except Failure Bytes :=
  match el.get? (bytes subfield) with
  | some (.str s) => .ok s
  | _ => .error (invalidEntry array i
      (bytes array ++ bytes "[]." ++ bytes subfield ++ bytes " must be a string")
      [text "subfield" (bytes subfield)])

/-- The place of an entry: its `order_num`, or its index. -/
def entryOrder (array : String) (el : Json) (i : Nat) : Except Failure Int :=
  match el.get? (bytes "order_num") with
  | none | some .null => .ok i
  | some j =>
    match getInteger j with
    | some n => .ok n
    | none => .error (invalidEntry array i
        (bytes array ++ bytes "[].order_num must be an integer")
        [text "subfield" (bytes "order_num")])

/-- An entry of `samples` or `test_cases`: the output has the name `output`, and `check` comes
    before the judge type. -/
def parseCase (array output : String) (check : Json → Nat → Except Failure Unit) (el : Json)
    (i : Nat) : Except Failure SampleCaseRow :=
  match el with
  | .obj _ => do
    let input ← entryString array el i "input"
    let expectedOutput ← entryString array el i output
    check el i
    let judgeType ← requireJudgeType el
    let orderNum ← entryOrder array el i
    return ⟨input, expectedOutput, judgeType, orderNum⟩
  | _ => .error (invalidEntry array i (bytes array ++ bytes " entries must be objects") [])

/-- `parse_samples_array`. -/
def parseSamplesArray : Json → Except Failure (List SampleCaseRow) :=
  parseArray "samples" "objects" (parseCase "samples" "output" fun _ _ => .ok ())

/-- An entry of `test_cases` is no sample. -/
def refuseSample (el : Json) (i : Nat) : Except Failure Unit :=
  match el.get? (bytes "is_sample") with
  | some (.bool true) => .error (invalidEntry "test_cases" i
      (bytes ("test_cases[].is_sample must be false or omitted " ++
        "(use the 'samples' array for public-facing cases)"))
      [text "subfield" (bytes "is_sample")])
  | _ => .ok ()

/-- `parse_test_cases_array`. -/
def parseTestCasesArray : Json → Except Failure (List SampleCaseRow) :=
  parseArray "test_cases" "objects" (parseCase "test_cases" "expected_output" refuseSample)

/-! ## A file -/

/-- A check of the repository as a check of a field. -/
def checkField (r : Except Bytes Unit) (details : List Detail) : Except Failure Unit :=
  r.mapError fun err => invalid err details

/-- `validate_problem_patch`. -/
def validateProblemPatch (row : ProblemRow) : Except Failure Unit := do
  checkField (validateSlug row.slug)
    [field (bytes "slug"), text "value" (truncateForEnvelope row.slug)]
  checkField (validateTitle row.title) [field (bytes "title")]
  checkField (validateDifficulty row.difficulty)
    [field (bytes "difficulty"), text "value" (truncateForEnvelope row.difficulty)]
  checkField (validateTimeLimit row.timeLimit)
    [field (bytes "time_limit_ms"), text "value" (decimalInt row.timeLimit)]
  checkField (validateMemoryLimit row.memoryLimit)
    [field (bytes "memory_limit_mb"), text "value" (decimalInt row.memoryLimit)]

/-- What a file that passes the checks holds. -/
structure Upload where
  row : ProblemRow
  tagNames : List Bytes
  samples : List SampleCaseRow
  testCases : List SampleCaseRow
  deriving DecidableEq, Repr

/-- The checks of `process_one_file` after that of the slug. -/
def checkFile (body : Json) (slug : Bytes) : Except Failure Upload := do
  let title ← requireTitle body
  let difficulty ← requireDifficulty body
  let description ← requireDescription body
  match ← optionalStringField body "template" (64 * 1024) with
  -- no template is no failure for the helper, which has left no reason, but the file fails
  | none => .error {}
  | some template =>
    let tagNames ← parseTagsArray body
    let samples ← parseSamplesArray body
    let testCases ← parseTestCasesArray body
    let timeLimit ← optionalIntField body "time_limit_ms" 1 60000
    let memoryLimit ← optionalIntField body "memory_limit_mb" 1 1024
    let row : ProblemRow := {
      slug, title, difficulty, description, template
      timeLimit := timeLimit.getD 1000
      memoryLimit := memoryLimit.getD 256 }
    validateProblemPatch row
    return ⟨row, tagNames, samples, testCases⟩

/-- `OnDuplicate`. -/
inductive OnDuplicate
  | skip
  | overwrite
  deriving DecidableEq, Repr

/-- `ImportAction`. -/
inductive ImportAction
  | created
  | overwritten
  | skipped
  | failed
  deriving DecidableEq, Repr

/-- `ImportFileResult`. -/
structure ImportFileResult where
  filename : Bytes
  slug : Bytes
  title : Bytes := []
  action : ImportAction := .failed
  problemId : Nat := 0
  sampleCount : Nat := 0
  testCaseCount : Nat := 0
  tagNames : List Bytes := []
  failure : Failure := {}
  deriving DecidableEq, Repr

/-- An uploaded file. -/
structure MultipartFormData where
  filename : Bytes
  content : Bytes
  deriving DecidableEq, Repr

/-- What a call meets: the text of what the JSON reader throws, and the outcomes of its statements
    in turn. -/
structure Env where
  parseWhat : Bytes
  slugExists : Option Fault
  create : Option Fault
  slugTaken : Option Fault
  upsert : Option Fault
  upsertRead : Option Bytes
  /-- `find_or_create_many`. -/
  tagIds : Except Bytes (List Nat)
  replaceTags : Option Fault
  replaceSamples : Option Fault
  replaceTestCases : Option Fault
  now : Int

/-- A failure of the stage `repo`. -/
def repoFailure (call : String) (what : Bytes) : Failure :=
  ⟨bytes "repo", bytes call ++ bytes " threw: " ++ what, none⟩

variable {weight : Bytes → Bytes}

/-- The ids of the tags of a file. -/
def Env.resolved (env : Env) (tagNames : List Bytes) : Except Bytes (List Nat) :=
  if tagNames.isEmpty then .ok [] else env.tagIds

/-- `apply_problem_patch`. -/
def applyProblemPatch (env : Env) (db : Db weight) (problemId : Nat) (u : Upload) :
    Except Bytes Unit × Db weight :=
  andThen (env.resolved u.tagNames, db) fun tagIds db =>
    andThen (replaceTags db problemId tagIds env.replaceTags) fun _ db =>
      andThen (replaceForProblem db problemId u.samples true env.replaceSamples) fun _ db =>
        replaceForProblem db problemId u.testCases false env.replaceTestCases

/-- The write of the row: an `upsert` if a live problem has the slug, or else `create`, with an
    `upsert` if it is refused. -/
def writeRow (env : Env) (db : Db weight) (row : ProblemRow) (existedLive : Bool) :
    Except Bytes UpsertResult × Db weight :=
  if existedLive then upsert db row env.now env.upsert env.upsertRead
  else andThen (create db row env.now env.create) fun newId db =>
    if 0 < newId then (.ok ⟨newId, true⟩, db)
    else andThen (slugExists db row.slug true env.slugTaken, db) fun hadTombstone db =>
      andThen (upsert db row env.now env.upsert env.upsertRead) fun upserted db =>
        (.ok ⟨upserted.id, upserted.created && !hadTombstone⟩, db)

/-- The end of `process_one_file`, from the write of the row on. -/
def importFile (env : Env) (db : Db weight) (filename : Bytes) (u : Upload) (existedLive : Bool) :
    ImportFileResult × Db weight :=
  match writeRow env db u.row existedLive with
  | (.error what, db) =>
    ({ filename, slug := u.row.slug
       failure := repoFailure "problem_repo::create/upsert" what }, db)
  | (.ok upserted, db) =>
    match applyProblemPatch env db upserted.id u with
    | (.error what, db) =>
      ({ filename, slug := u.row.slug, title := u.row.title, problemId := upserted.id
         failure := repoFailure "apply_problem_patch" what }, db)
    | (.ok (), db) =>
      ({ filename, slug := u.row.slug, title := u.row.title
         action := if upserted.created then .created else .overwritten
         problemId := upserted.id
         sampleCount := u.samples.length
         testCaseCount := u.testCases.length
         tagNames := u.tagNames }, db)

/-- `process_one_file`, from the look-up of the slug on. -/
def dispatch (env : Env) (db : Db weight) (filename : Bytes) (u : Upload)
    (onDuplicate : OnDuplicate) : ImportFileResult × Db weight :=
  match slugExists db u.row.slug false env.slugExists with
  | .error what =>
    ({ filename, slug := u.row.slug, failure := repoFailure "problem_repo::slug_exists" what }, db)
  | .ok existedLive =>
    if existedLive = true ∧ onDuplicate = .skip then
      ({ filename, slug := u.row.slug, title := u.row.title, action := .skipped }, db)
    else importFile env db filename u existedLive

/-- `process_one_file`. -/
def processOneFile (env : Env) (db : Db weight) (file : MultipartFormData)
    (onDuplicate : OnDuplicate) : ImportFileResult × Db weight :=
  match Json.parse file.content with
  | none =>
    ({ filename := file.filename, slug := file.filename
       failure := ⟨bytes "parse", bytes "invalid JSON: " ++ env.parseWhat, none⟩ }, db)
  | some body =>
    match requireString body with
    | .error failure => ({ filename := file.filename, slug := [], failure }, db)
    | .ok slug =>
      match checkFile body slug with
      | .error failure => ({ filename := file.filename, slug, failure }, db)
      | .ok u => dispatch env db file.filename u onDuplicate

/-! ## What the checks give -/

variable {env : Env} {db : Db weight} {file : MultipartFormData} {u : Upload} {r : Problem}
  {filename : Bytes}

theorem checkField_eq_ok_iff {x : Except Bytes Unit} {details : List Detail} {a : Unit} :
    checkField x details = .ok a ↔ x = .ok () := by
  cases x <;> simp [checkField, Except.mapError]

theorem require_eq_ok_iff {ok : Bool} {message : Bytes} :
    require ok message = .ok () ↔ ok = true := by
  cases ok <;> simp [require]

/-- The checks of the route are those of the repository. -/
theorem validate_of_patch {row : ProblemRow} (h : validateProblemPatch row = .ok ()) :
    row.validate = .ok () ∧ row.timeLimit ≠ 0 ∧ row.memoryLimit ≠ 0 := by
  simp only [validateProblemPatch, bind_eq_ok, checkField_eq_ok_iff, exists_const] at h
  obtain ⟨hslug, htitle, hdifficulty, htime, hmemory⟩ := h
  refine ⟨?_, ?_, ?_⟩
  · simp [ProblemRow.validate, hslug, htitle, hdifficulty, htime, hmemory, bind, Except.bind]
  · have := require_eq_ok_iff.1 htime
    simp only [Bool.and_eq_true, decide_eq_true_eq] at this
    omega
  · have := require_eq_ok_iff.1 hmemory
    simp only [Bool.and_eq_true, decide_eq_true_eq] at this
    omega

/-- A file that passes the checks passes those of the repository. -/
theorem checkFile_eq_ok {body : Json} {slug : Bytes} (h : checkFile body slug = .ok u) :
    u.row.slug = slug ∧ u.row.effective.validate = .ok () := by
  simp only [checkFile, bind_eq_ok] at h
  obtain ⟨title, -, difficulty, -, description, -, template, -, h⟩ := h
  cases template with
  | none => cases h
  | some template =>
    simp only [bind_eq_ok] at h
    obtain ⟨tagNames, -, samples, -, testCases, -, timeLimit, -, memoryLimit, -, _, hpatch, h⟩ := h
    cases h
    obtain ⟨hv, htime, hmemory⟩ := validate_of_patch hpatch
    refine ⟨rfl, ?_⟩
    rw [ProblemRow.effective, if_neg htime, if_neg hmemory]
    exact hv

/-! ## What a call keeps -/

theorem problems_applyProblemPatch (env : Env) (db : Db weight) (id : Nat) (u : Upload) :
    (applyProblemPatch env db id u).2.problems = db.problems := by
  refine andThen_preserves (P := fun d : Db weight => d.problems = db.problems) rfl
    fun tagIds d hd => ?_
  refine andThen_preserves (P := fun d : Db weight => d.problems = db.problems)
    ((replaceTags_problems d id tagIds _).trans hd) fun _ d hd => ?_
  refine andThen_preserves (P := fun d : Db weight => d.problems = db.problems)
    ((replaceForProblem_problems d id u.samples true _).trans hd) fun _ d hd => ?_
  exact (replaceForProblem_problems d id u.testCases false _).trans hd

/-- The tags, samples and test cases of another problem are written. -/
theorem kept_applyProblemPatch {id : Nat} (hr : r ∈ db.problems) (hne : r.id ≠ id) :
    Db.Kept r db (applyProblemPatch env db id u).2 := by
  refine andThen_preserves (P := Db.Kept r db) (.refl hr) fun tagIds d hd => ?_
  refine andThen_preserves (P := Db.Kept r db)
    (hd.trans (kept_replaceTags tagIds hd.row hne)) fun _ d hd => ?_
  refine andThen_preserves (P := Db.Kept r db)
    (hd.trans (kept_replaceForProblem u.samples true hd.row hne)) fun _ d hd => ?_
  exact hd.trans (kept_replaceForProblem u.testCases false hd.row hne)

theorem problems_importFile (env : Env) (db : Db weight) (filename : Bytes) (u : Upload)
    (live : Bool) :
    (importFile env db filename u live).2.problems =
      (writeRow env db u.row live).2.problems := by
  rw [importFile]
  rcases writeRow env db u.row live with ⟨_ | w, db₁⟩
  · rfl
  · have hpatch := problems_applyProblemPatch env db₁ w.id u
    simp only
    cases happly : applyProblemPatch env db₁ w.id u with
    | mk result db₂ =>
      rw [happly] at hpatch
      cases result <;> exact hpatch

/-- The write of a row whose slug is free. -/
theorem writeRow_of_free {row : ProblemRow} (ho : db.owner row.slug = none) :
    db.Keeps (writeRow env db row false).2 ∧
      ∀ w, (writeRow env db row false).1 = .ok w → w.id = db.nextId := by
  simp only [writeRow, Bool.false_eq_true, if_false]
  rcases create_cases db row env.now env.create with ⟨what, hc⟩ | hc | ⟨h, hc⟩ <;>
    simp only [hc, andThen_error, andThen_ok]
  · exact ⟨.refl db, by simp⟩
  · -- refused without a row that has the slug: a fault whose text looks like one
    rw [if_neg (Nat.lt_irrefl 0)]
    cases slugExists db row.slug true env.slugTaken with
    | error what => exact ⟨.refl db, by simp⟩
    | ok hadTombstone =>
      have hupsert : db.Keeps (upsert db row env.now env.upsert env.upsertRead).2 ∧
        ∀ w, (upsert db row env.now env.upsert env.upsertRead).1 = .ok w → w.id = db.nextId :=
        keeps_upsert ho
      rw [andThen_ok]
      cases hw : upsert db row env.now env.upsert env.upsertRead with
      | mk result db₁ =>
        rw [hw] at hupsert
        cases result with
        | error what => exact ⟨hupsert.1, by simp⟩
        | ok w =>
          refine ⟨hupsert.1, ?_⟩
          rintro w' ⟨⟩
          exact hupsert.2 w rfl
  · rw [if_pos db.nextId_pos]
    refine ⟨Db.keeps_insert h, ?_⟩
    rintro w ⟨⟩
    rfl

/-- A file whose slug is free. -/
theorem keeps_importFile (ho : db.owner u.row.slug = none) :
    db.Keeps (importFile env db filename u false).2 := by
  intro r hr
  have hwrite : db.Keeps (writeRow env db u.row false).2 ∧
    ∀ w, (writeRow env db u.row false).1 = .ok w → w.id = db.nextId := writeRow_of_free ho
  rw [importFile]
  cases hw : writeRow env db u.row false with
  | mk result db₁ =>
    rw [hw] at hwrite
    cases result with
    | error what => exact hwrite.1 r hr
    | ok w =>
      have hne : r.id ≠ w.id := by
        rw [hwrite.2 w rfl]
        exact Nat.ne_of_lt (db.id_lt r hr)
      have hpatch : Db.Kept r db₁ (applyProblemPatch env db₁ w.id u).2 :=
        kept_applyProblemPatch (hwrite.1 r hr).row hne
      simp only
      cases happly : applyProblemPatch env db₁ w.id u with
      | mk result db₂ =>
        rw [happly] at hpatch
        cases result <;> exact (hwrite.1 r hr).trans hpatch

/-- A statement fails before the row of a soft-deleted problem is overwritten. -/
def Env.stopped (env : Env) : Bool :=
  env.create.any Fault.fatal || env.slugTaken.isSome || env.upsert.isSome

theorem slugExists_some (db : Db weight) (slug : Bytes) (includeDeleted : Bool) (fault : Fault) :
    ∃ what, slugExists db slug includeDeleted (some fault) = .error what := by
  cases fault <;> exact ⟨_, rfl⟩

/-- The write of a row whose slug is that of a soft-deleted one. -/
theorem writeRow_of_deleted {row : ProblemRow} (hv : row.effective.validate = .ok ())
    (ho : db.owner row.slug = some r) (hr : r.isDeleted = true) :
    if env.stopped then ∃ what, writeRow env db row false = (.error what, db)
    else r ∉ (writeRow env db row false).2.problems := by
  obtain ⟨result, hc, hresult⟩ := create_of_owner env.now env.create hv ho
  simp only [writeRow, Bool.false_eq_true, if_false, hc, Env.stopped]
  cases hfatal : env.create.any Fault.fatal with
  | true =>
    obtain ⟨what, rfl⟩ : ∃ what, result = .error what := by rwa [hfatal, if_pos rfl] at hresult
    exact ⟨what, rfl⟩
  | false =>
    obtain rfl : result = .ok 0 := by rwa [hfatal, if_neg Bool.false_ne_true] at hresult
    rw [andThen_ok, if_neg (Nat.lt_irrefl 0), Bool.false_or]
    cases htaken : env.slugTaken with
    | some fault =>
      obtain ⟨what, hx⟩ := slugExists_some db row.slug true fault
      exact ⟨what, by rw [hx, andThen_error]⟩
    | none =>
      have hupsert : if env.upsert.isSome then
          ∃ what, upsert db row env.now env.upsert env.upsertRead = (.error what, db)
        else r ∉ (upsert db row env.now env.upsert env.upsertRead).2.problems :=
        upsert_of_deleted hv ho hr
      rw [slugExists, andThen_ok, Option.isSome_none, Bool.false_or]
      split_ifs at hupsert ⊢
      · obtain ⟨what, hw⟩ := hupsert
        exact ⟨what, by rw [hw, andThen_error]⟩
      · exact andThen_preserves (P := fun d : Db weight => r ∉ d.problems) hupsert fun _ _ hd => hd

/-- A file whose slug is that of a soft-deleted problem is not skipped, and the problem is kept only
    if a statement fails. -/
theorem importFile_of_deleted (hv : u.row.effective.validate = .ok ())
    (ho : db.owner u.row.slug = some r) (hr : r.isDeleted = true) :
    (db.Keeps (importFile env db filename u false).2 ↔ env.stopped = true) := by
  have hwrite : if env.stopped then ∃ what, writeRow env db u.row false = (.error what, db)
    else r ∉ (writeRow env db u.row false).2.problems := writeRow_of_deleted hv ho hr
  split_ifs at hwrite with hstopped
  · obtain ⟨what, hw⟩ := hwrite
    refine iff_of_true ?_ hstopped
    rw [importFile, hw]
    exact .refl db
  · refine iff_of_false (fun h => hwrite ?_) hstopped
    rw [← problems_importFile env db filename u false]
    exact (h r (Db.owner_eq_some_iff.1 ho).1).row

theorem action_importFile (env : Env) (db : Db weight) (filename : Bytes) (u : Upload)
    (live : Bool) : (importFile env db filename u live).1.action ≠ .skipped := by
  rw [importFile]
  split
  · exact ImportAction.noConfusion
  · split
    · exact ImportAction.noConfusion
    · simp only
      split_ifs <;> exact ImportAction.noConfusion

/-! ## Files that are skipped -/

/-- The slug that a file gives. -/
def MultipartFormData.slug (file : MultipartFormData) : Option Bytes :=
  (Json.parse file.content).bind fun body => (requireString body).toOption

/-- What a file holds, if it passes the checks. -/
def MultipartFormData.upload (file : MultipartFormData) : Option Upload :=
  (Json.parse file.content).bind fun body =>
    (requireString body).toOption.bind fun slug => (checkFile body slug).toOption

/-- The outcome of a file that passes the checks. -/
theorem processOneFile_of_upload {onDuplicate : OnDuplicate} (h : file.upload = some u) :
    processOneFile env db file onDuplicate = dispatch env db file.filename u onDuplicate := by
  rw [processOneFile]
  rw [MultipartFormData.upload] at h
  cases hparse : Json.parse file.content with
  | none => simp [hparse] at h
  | some body =>
    cases hslug : requireString body with
    | error failure => simp [hparse, hslug, Except.toOption] at h
    | ok slug =>
      cases hcheck : checkFile body slug with
      | error failure => simp [hparse, hslug, hcheck, Except.toOption] at h
      | ok u' => simp_all [Except.toOption]

/-- A file that does not pass the checks fails. -/
theorem processOneFile_of_upload_none (env : Env) (db : Db weight) (onDuplicate : OnDuplicate)
    (h : file.upload = none) :
    ∃ result : ImportFileResult, processOneFile env db file onDuplicate = (result, db) ∧
      result.action = .failed := by
  rw [processOneFile]
  rw [MultipartFormData.upload] at h
  cases hparse : Json.parse file.content with
  | none => exact ⟨_, rfl, rfl⟩
  | some body =>
    cases hslug : requireString body with
    | error failure => exact ⟨_, by simp only [hslug]; rfl, rfl⟩
    | ok slug =>
      cases hcheck : checkFile body slug with
      | error failure => exact ⟨_, by simp only [hslug, hcheck]; rfl, rfl⟩
      | ok u => simp [hparse, hslug, hcheck, Except.toOption] at h

/-- What a file gives has passed the checks of the repository. -/
theorem slug_of_upload (h : file.upload = some u) :
    file.slug = some u.row.slug ∧ u.row.effective.validate = .ok () := by
  rw [MultipartFormData.upload] at h
  obtain ⟨body, hparse, h⟩ := Option.bind_eq_some_iff.1 h
  obtain ⟨slug, hslug, h⟩ := Option.bind_eq_some_iff.1 h
  cases hcheck : checkFile body slug with
  | error failure => simp [hcheck, Except.toOption] at h
  | ok u' =>
    obtain rfl : u' = u := by simpa [hcheck, Except.toOption] using h
    obtain ⟨hu, hv⟩ := checkFile_eq_ok hcheck
    exact ⟨by rw [MultipartFormData.slug, hparse, Option.bind_some, hslug, hu], hv⟩

/-- With `skip`, the look-up fails, or it finds a live problem and the file is skipped, or no live
    problem has the slug. -/
theorem dispatch_skip (env : Env) (db : Db weight) (filename : Bytes) (u : Upload) :
    (env.slugExists ≠ none ∧ ∃ result : ImportFileResult,
      dispatch env db filename u .skip = (result, db) ∧ result.action = .failed) ∨
    (env.slugExists = none ∧ (∃ r, db.owner u.row.slug = some r ∧ r.isDeleted = false) ∧
      ∃ result : ImportFileResult,
        dispatch env db filename u .skip = (result, db) ∧ result.action = .skipped) ∨
    (env.slugExists = none ∧ (∀ r, db.owner u.row.slug = some r → r.isDeleted = true) ∧
      dispatch env db filename u .skip = importFile env db filename u false) := by
  rw [dispatch]
  cases hlook : slugExists db u.row.slug false env.slugExists with
  | error what => exact .inl ⟨slugExists_eq_error hlook, _, rfl, rfl⟩
  | ok live =>
    cases live with
    | true =>
      obtain ⟨hfault, hr⟩ := slugExists_eq_true_iff.1 hlook
      exact .inr (.inl ⟨hfault, hr, _, if_pos ⟨rfl, rfl⟩, rfl⟩)
    | false =>
      obtain ⟨hfault, hr⟩ := slugExists_eq_false_iff.1 hlook
      exact .inr (.inr ⟨hfault, hr, if_neg fun h => Bool.false_ne_true h.1⟩)

/-- A file for a soft-deleted problem, when no statement fails before its row is overwritten. -/
def Revives (env : Env) (db : Db weight) (file : MultipartFormData) : Prop :=
  ∃ u r, file.upload = some u ∧ db.owner u.row.slug = some r ∧ r.isDeleted = true ∧
    env.slugExists = none ∧ env.stopped = false

/-- With `skip`, a file leaves the problems as they were, unless it revives one. -/
theorem keeps_iff (env : Env) (db : Db weight) (file : MultipartFormData) :
    db.Keeps (processOneFile env db file .skip).2 ↔ ¬ Revives env db file := by
  cases hu : file.upload with
  | none =>
    obtain ⟨result, hp, -⟩ := processOneFile_of_upload_none env db .skip hu
    rw [hp]
    exact iff_of_true (.refl db) fun ⟨u, _, h, _⟩ => by cases hu.symm.trans h
  | some u =>
    rw [processOneFile_of_upload hu]
    have hrevives : ∀ {r : Problem}, Revives env db file → db.owner u.row.slug = some r →
        r.isDeleted = true ∧ env.slugExists = none ∧ env.stopped = false := by
      rintro r ⟨u', r', hu', ho', h⟩ ho
      obtain rfl := Option.some.inj (hu.symm.trans hu')
      obtain rfl := Option.some.inj (ho'.symm.trans ho)
      exact h
    rcases dispatch_skip env db file.filename u with
      ⟨hfault, result, hd, -⟩ | ⟨-, ⟨r, ho, hlive⟩, result, hd, -⟩ | ⟨hfault, hdeleted, hd⟩ <;>
      rw [hd]
    · refine iff_of_true (.refl db) ?_
      rintro ⟨-, -, -, -, -, h, -⟩
      exact hfault h
    · exact iff_of_true (.refl db) fun h => by cases hlive.symm.trans (hrevives h ho).1
    · cases ho : db.owner u.row.slug with
      | none =>
        refine iff_of_true (keeps_importFile ho) ?_
        rintro ⟨u', r, hu', ho', -⟩
        obtain rfl := Option.some.inj (hu.symm.trans hu')
        cases ho.symm.trans ho'
      | some r =>
        rw [importFile_of_deleted (slug_of_upload hu).2 ho (hdeleted r ho),
          ← not_iff_not, not_not, Bool.not_eq_true]
        exact ⟨fun h => ⟨u, r, hu, ho, hdeleted r ho, hfault, h⟩, fun h => (hrevives h ho).2.2⟩

/-- With `skip`, a file is reported as skipped exactly if it passes the checks, the look-up succeeds
    and its slug is that of a live problem. -/
theorem skipped_iff (env : Env) (db : Db weight) (file : MultipartFormData) :
    (processOneFile env db file .skip).1.action = .skipped ↔
      ∃ u r, file.upload = some u ∧ env.slugExists = none ∧ db.owner u.row.slug = some r ∧
        r.isDeleted = false := by
  cases hu : file.upload with
  | none =>
    obtain ⟨result, hp, hfailed⟩ := processOneFile_of_upload_none env db .skip hu
    rw [hp, hfailed]
    simp
  | some u =>
    rw [processOneFile_of_upload hu]
    rcases dispatch_skip env db file.filename u with
      ⟨hfault, result, hd, hfailed⟩ | ⟨hfault, ⟨r, ho, hlive⟩, result, hd, hskipped⟩ |
      ⟨-, hdeleted, hd⟩
    · rw [hd, hfailed]
      refine iff_of_false ImportAction.noConfusion ?_
      rintro ⟨-, -, -, h, -⟩
      exact hfault h
    · rw [hd]
      exact iff_of_true hskipped ⟨u, r, rfl, hfault, ho, hlive⟩
    · rw [hd]
      refine iff_of_false (action_importFile env db file.filename u false) ?_
      rintro ⟨u', r, hu', -, ho, hlive⟩
      obtain rfl := Option.some.inj hu'
      cases hlive.symm.trans (hdeleted r ho)

/-- The problems are as before, and if one of them has the slug of the file, live or soft-deleted,
    then the file is reported as skipped. -/
def Skips (env : Env) (db : Db weight) (file : MultipartFormData) : Prop :=
  db.Keeps (processOneFile env db file .skip).2 ∧
    ∀ slug r, file.slug = some slug → r ∈ db.problems → weight r.slug = weight slug →
      (processOneFile env db file .skip).1.action = .skipped

/-- With `skip`, a file does what it should exactly if no problem has its slug, or it passes the
    checks, the look-up succeeds and the problem is live; and it leaves the problems as they were
    unless it revives a soft-deleted one. -/
theorem skip_iff (env : Env) (db : Db weight) (file : MultipartFormData) :
    (Skips env db file ↔
      ∀ slug r, file.slug = some slug → r ∈ db.problems → weight r.slug = weight slug →
        file.upload.isSome ∧ env.slugExists = none ∧ r.isDeleted = false) ∧
    (db.Keeps (processOneFile env db file .skip).2 ↔ ¬ Revives env db file) := by
  refine ⟨⟨fun ⟨_, h⟩ slug r hslug hr hw => ?_, fun h => ⟨?_, fun slug r hslug hr hw => ?_⟩⟩,
    keeps_iff env db file⟩
  · obtain ⟨u, r', hu, hfault, ho, hlive⟩ := (skipped_iff env db file).1 (h slug r hslug hr hw)
    obtain rfl := Option.some.inj (hslug.symm.trans (slug_of_upload hu).1)
    obtain rfl := Option.some.inj (ho.symm.trans (Db.owner_eq_some_iff.2 ⟨hr, hw⟩))
    exact ⟨by rw [hu]; rfl, hfault, hlive⟩
  · refine (keeps_iff env db file).2 ?_
    rintro ⟨u, r, hu, ho, hdeleted, -⟩
    obtain ⟨hr, hw⟩ := Db.owner_eq_some_iff.1 ho
    cases hdeleted.symm.trans (h u.row.slug r (slug_of_upload hu).1 hr hw).2.2
  · obtain ⟨hu, hfault, hlive⟩ := h slug r hslug hr hw
    obtain ⟨u, hu⟩ := Option.isSome_iff_exists.1 hu
    obtain rfl := Option.some.inj (hslug.symm.trans (slug_of_upload hu).1)
    exact (skipped_iff env db file).2
      ⟨u, r, hu, hfault, Db.owner_eq_some_iff.2 ⟨hr, hw⟩, hlive⟩

/-- A soft-deleted problem. -/
def deletedProblem : Problem where
  id := 1
  slug := bytes "two-sum"
  title := bytes "Two Sum"
  difficulty := bytes "easy"
  description := bytes "old"
  template := none
  timeLimit := 1000
  memoryLimit := 256
  acceptedCount := 0
  submissionCount := 0
  isDeleted := true
  createdAt := 0
  updatedAt := 0

theorem id_lt_deletedProblem : ∀ r ∈ [deletedProblem], r.id < 2 := by
  intro r hr
  rw [List.mem_singleton.1 hr]
  decide

/-- It is the only one. -/
def deletedDb : Db id where
  problems := [deletedProblem]
  nextId := 2
  problemTags := []
  testCases := []
  nextCaseId := 1
  nodup_ids := List.nodup_singleton _
  id_lt := id_lt_deletedProblem
  nodup_slugs := List.nodup_singleton _
  nextId_pos := Nat.two_pos

/-- Nothing fails. -/
def quietEnv : Env where
  parseWhat := []
  slugExists := none
  create := none
  slugTaken := none
  upsert := none
  upsertRead := none
  tagIds := .ok []
  replaceTags := none
  replaceSamples := none
  replaceTestCases := none
  now := 1

def importedRow : ProblemRow where
  slug := bytes "two-sum"
  title := bytes "t"
  difficulty := bytes "easy"
  description := bytes "d"
  template := []

/-- A file with its slug. -/
def importedFile : MultipartFormData where
  filename := bytes "two-sum.json"
  content := bytes ("\x7b\"slug\":\"two-sum\",\"title\":\"t\",\"difficulty\":\"easy\"," ++
    "\"description\":\"d\",\"template\":\"\"\x7d")

/-- A file with the slug of a soft-deleted problem overwrites it. -/
theorem skip_revives : ¬ Skips quietEnv deletedDb importedFile := by
  intro h
  refine (keeps_iff quietEnv deletedDb importedFile).1 h.1
    ⟨⟨importedRow, [], [], []⟩, deletedProblem, ?_, ?_, rfl, rfl, rfl⟩
  · decide +kernel
  · rfl

end LiteCode.BulkImport
