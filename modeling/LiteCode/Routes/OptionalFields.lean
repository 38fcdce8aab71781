import LiteCode.Routes.AdminProblem

/-!
# Optional fields

What the three handlers that read problems make of a field that may be absent: the two of
`LiteCode.Routes.AdminProblem`, and the import of a file.

* a template that is absent or `null` ends a request without a response, and a file without stage
  and reason: the value that says so is that of a field whose error has been reported;
* a limit that is `null`, or that is absent while its name is somewhere in the text of the body,
  ends a request without a response;
* a limit that is refused, with a key that is written with an escape, gives two responses;
* `optionalFields_iff`: otherwise there is one response, every file that fails says where and why,
  and what is valid is accepted.
-/

namespace LiteCode.BulkImport

open ErrorHandler ProblemRepo
open AdminProblem (isAbsent HasRequired asked)

variable {weight : Bytes → Bytes}

/-! ## Failures that say where and why -/

section Explained

variable {α β : Type} {body el : Json} {i : Nat}

/-- The record has a stage and a reason. -/
def Failure.Explained (failure : Failure) : Prop := failure.stage ≠ [] ∧ failure.reason ≠ []

/-- The check fails with a stage and a reason, if it does. -/
abbrev Explains (x : Except Failure α) : Prop := FailsWith Failure.Explained x

@[simp]
theorem bytes_eq_nil_iff {s : String} : bytes s = [] ↔ s = "" := by
  simp [bytes]

/-- A refusal with a reason is explained. -/
@[simp]
theorem explained_invalid {reason : Bytes} {details : List Detail} :
    (invalid reason details).Explained ↔ reason ≠ [] := by
  simp [Failure.Explained, invalid]

@[simp]
theorem explained_invalidEntry {array : String} {reason : Bytes} {details : List Detail} :
    (invalidEntry array i reason details).Explained ↔ reason ≠ [] :=
  explained_invalid

theorem explained_notWhenPresent (name what : String) : (notWhenPresent name what).Explained := by
  simp [notWhenPresent]

/-- A missing field is named. -/
theorem explains_requireField (name : String) (body : Json) :
    Explains (requireField name body) := by
  rw [requireField]
  split <;> simp

/-- An unknown judge type is named. -/
theorem explains_requireJudgeType (body : Json) : Explains (requireJudgeType body) := by
  rw [requireJudgeType]
  split
  · simp
  · simp
  · split_ifs <;> simp
  · exact failsWith_error.2 (explained_notWhenPresent _ _)

/-- A number that is none or out of range is named. -/
theorem explains_optionalIntField (body : Json) (name : String) (min max : Int) :
    Explains (optionalIntField body name min max) := by
  rw [optionalIntField]
  split
  · simp
  · simp
  · split
    · exact failsWith_error.2 (explained_notWhenPresent _ _)
    · split_ifs <;> simp

/-- A text that is none or too long is named. -/
theorem explains_optionalStringField (body : Json) (name : String) (maxSize : Nat) :
    Explains (optionalStringField body name maxSize) := by
  rw [optionalStringField]
  split
  · simp
  · simp
  · split_ifs <;> simp
  · exact failsWith_error.2 (explained_notWhenPresent _ _)

/-- An array is explained if its entries are. -/
theorem explains_parseArray {array entries : String} {entry : Json → Nat → Except Failure α}
    (h : ∀ el i, Explains (entry el i)) (body : Json) :
    Explains (parseArray array entries entry body) := by
  rw [parseArray]
  split
  · simp
  · simp
  · exact FailsWith.mapM (fun x : Json × Nat => h x.1 x.2) _
  · simp

/-- A tag that is refused is explained. -/
theorem explains_parseTag (el : Json) (i : Nat) : Explains (parseTag el i) := by
  cases el with
  | str raw =>
    simp only [parseTag]
    split_ifs
    · simp
    · split <;> simp
  | null | bool _ | num _ | arr _ | obj _ => simp [parseTag]

/-- A test case that is refused is explained. -/
theorem explains_parseCase {array output : String} {check : Json → Nat → Except Failure Unit}
    (hcheck : ∀ el i, Explains (check el i)) (el : Json) (i : Nat) :
    Explains (parseCase array output check el i) := by
  have hstring (subfield : String) : Explains (entryString array el i subfield) := by
    rw [entryString]
    split <;> simp
  have horder : Explains (entryOrder array el i) := by
    rw [entryOrder]
    split
    · simp
    · simp
    · split <;> simp
  cases el with
  | obj l =>
    exact (hstring "input").bind fun _ _ => (hstring output).bind fun _ _ =>
      (hcheck _ i).bind fun _ _ => (explains_requireJudgeType _).bind fun _ _ =>
        horder.bind fun _ _ => failsWith_pure _
  | null | bool _ | num _ | arr _ | str _ => simp [parseCase]

/-- A hidden case that is marked as a sample is refused with a reason. -/
theorem explains_refuseSample (el : Json) (i : Nat) : Explains (refuseSample el i) := by
  rw [refuseSample]
  split <;> simp

/-- The checks of the repository have messages. -/
abbrev Speaks (r : Except Bytes Unit) : Prop := FailsWith (· ≠ []) r

/-- A check speaks if it has a message. -/
theorem speaks_require {ok : Bool} {message : Bytes} (h : message ≠ []) :
    Speaks (require ok message) := by
  cases ok with
  | true => exact failsWith_ok ()
  | false => exact failsWith_error.2 h

theorem speaks_between {ok : Bool} {what : String} {min max : Nat} {unit : String}
    (h : what ≠ "") : Speaks (require ok (between what min max unit)) :=
  speaks_require (by simp [between, h])

/-- A field whose check speaks is explained. -/
theorem explains_checkField {r : Except Bytes Unit} (h : Speaks r) (details : List Detail) :
    Explains (checkField r details) := by
  cases r with
  | ok u => exact failsWith_ok u
  | error err => exact failsWith_error.2 (explained_invalid.2 (h err rfl))

/-- Every check of a problem speaks. -/
theorem explains_validateProblemPatch (row : ProblemRow) :
    Explains (validateProblemPatch row) := by
  have hslug : Speaks (validateSlug row.slug) :=
    (speaks_between (by decide)).bind fun _ _ => (speaks_require (by simp)).bind fun _ _ =>
      speaks_require (by simp)
  have htitle : Speaks (validateTitle row.title) := speaks_between (by decide)
  have hdifficulty : Speaks (validateDifficulty row.difficulty) := speaks_require (by simp)
  have htime : Speaks (validateTimeLimit row.timeLimit) := speaks_between (by decide)
  have hmemory : Speaks (validateMemoryLimit row.memoryLimit) := speaks_between (by decide)
  exact (explains_checkField hslug _).bind fun _ _ => (explains_checkField htitle _).bind
    fun _ _ => (explains_checkField hdifficulty _).bind fun _ _ =>
      (explains_checkField htime _).bind fun _ _ => explains_checkField hmemory _

end Explained

/-! ## Files -/

section Files

variable {env : Env} {db : Db weight} {file : MultipartFormData} {u : Upload} {body : Json}

/-- The required fields are there, and the template is not. -/
def MissingTemplate (body : Json) : Prop := HasRequired body ∧ isAbsent body "template"

/-- A field is absent exactly if it counts as not sent. -/
theorem isAbsent_iff {name : String} {max : Nat} :
    isAbsent body name = true ↔ optionalStringField body name max = .ok none := by
  rw [isAbsent, optionalStringField]
  rcases body.get? (bytes name) with - | value
  · exact iff_of_true rfl rfl
  · cases value with
    | null => exact iff_of_true rfl rfl
    | str s =>
      refine iff_of_false Bool.false_ne_true fun h => ?_
      simp only at h
      split_ifs at h
      cases h
    | bool _ | num _ | arr _ | obj _ =>
      refine iff_of_false Bool.false_ne_true fun h => ?_
      cases h

/-- The checks of a file explain their failures, unless the template is missing. -/
theorem explains_checkFile {slug : Bytes} (hslug : requireString body = .ok slug)
    (h : ¬MissingTemplate body) : Explains (checkFile body slug) := by
  refine (explains_requireField "title" body).bind fun title htitle => ?_
  refine (explains_requireField "difficulty" body).bind fun difficulty hdifficulty => ?_
  refine (explains_requireField "description" body).bind fun description hdescription => ?_
  refine (explains_optionalStringField body "template" _).bind fun template htemplate => ?_
  cases template with
  | none =>
    exact absurd ⟨AdminProblem.hasRequired_of_ok hslug htitle hdifficulty hdescription,
      isAbsent_iff.2 htemplate⟩ h
  | some template =>
    exact (explains_parseArray explains_parseTag body).bind fun _ _ =>
      (explains_parseArray (explains_parseCase fun _ _ => failsWith_ok ()) body).bind fun _ _ =>
      (explains_parseArray (explains_parseCase explains_refuseSample) body).bind fun _ _ =>
      (explains_optionalIntField body _ _ _).bind fun _ _ =>
      (explains_optionalIntField body _ _ _).bind fun _ _ =>
      (explains_validateProblemPatch _).bind fun _ _ => failsWith_pure _

/-- A file without a template. -/
theorem checkFile_of_missing {slug : Bytes} (h : MissingTemplate body) :
    checkFile body slug = .error {} := by
  obtain ⟨hrequired, habsent⟩ := h
  obtain ⟨title, htitle⟩ := hrequired.exists_ok "title" (by decide)
  obtain ⟨difficulty, hdifficulty⟩ := hrequired.exists_ok "difficulty" (by decide)
  obtain ⟨description, hdescription⟩ := hrequired.exists_ok "description" (by decide)
  have htemplate : optionalStringField body "template" (64 * 1024) = .ok none :=
    isAbsent_iff.1 habsent
  simp only [checkFile, requireTitle, requireDifficulty, requireDescription, htitle, hdifficulty,
    hdescription, htemplate, bind, Except.bind]

/-- An exception of a call is told with its name. -/
theorem explained_repoFailure (call : String) (what : Bytes) :
    (repoFailure call what).Explained := by
  simp [repoFailure, Failure.Explained]

/-- A file that fails to be written is explained. -/
theorem explained_importFile (env : Env) (db : Db weight) (filename : Bytes) (u : Upload)
    (live : Bool) (h : (importFile env db filename u live).1.action = .failed) :
    (importFile env db filename u live).1.failure.Explained := by
  rw [importFile] at h ⊢
  split at h
  · exact explained_repoFailure _ _
  · split at h
    · exact explained_repoFailure _ _
    · simp only at h
      split_ifs at h

/-- So is one that fails in any way. -/
theorem explained_dispatch (env : Env) (db : Db weight) (filename : Bytes) (u : Upload)
    (dup : OnDuplicate) (h : (dispatch env db filename u dup).1.action = .failed) :
    (dispatch env db filename u dup).1.failure.Explained := by
  rw [dispatch] at h ⊢
  split at h
  · exact explained_repoFailure _ _
  · split_ifs at h ⊢
    exact explained_importFile env db filename u _ h

/-! ## When nothing fails -/

/-- No call of the repositories throws. -/
structure Env.Quiet (env : Env) : Prop where
  slugExists : env.slugExists = none
  create : env.create = none
  slugTaken : env.slugTaken = none
  upsert : env.upsert = none
  upsertRead : env.upsertRead = none
  tagIds : ∃ ids, env.tagIds = .ok ids
  replaceTags : env.replaceTags = none
  replaceSamples : env.replaceSamples = none
  replaceTestCases : env.replaceTestCases = none

/-- If no statement fails, a valid row is written. -/
theorem writeRow_quiet (hq : env.Quiet) (db : Db weight) {row : ProblemRow}
    (hv : row.effective.validate = .ok ()) (live : Bool) :
    ∃ w db', writeRow env db row live = (.ok w, db') := by
  obtain ⟨w, db', hupsert⟩ := upsert_of_validate db env.now hv
  rw [writeRow, hq.upsert, hq.upsertRead, hq.create, hq.slugTaken]
  split_ifs
  · exact ⟨w, db', hupsert⟩
  · rcases create_of_validate db env.now hv with hc | ⟨h, hc⟩
    · rw [hc, andThen_ok, if_neg (Nat.lt_irrefl 0), slugExists, andThen_ok, hupsert, andThen_ok]
      exact ⟨_, _, rfl⟩
    · rw [hc, andThen_ok, if_pos db.nextId_pos]
      exact ⟨_, _, rfl⟩

/-- So are its tags and test cases. -/
theorem applyProblemPatch_quiet (hq : env.Quiet) (db : Db weight) (problemId : Nat) (u : Upload) :
    ∃ db', applyProblemPatch env db problemId u = (.ok (), db') := by
  obtain ⟨ids, hids⟩ := hq.tagIds
  have hresolved : ∃ ids, env.resolved u.tagNames = .ok ids := by
    rw [Env.resolved]
    split_ifs
    · exact ⟨[], rfl⟩
    · exact ⟨ids, hids⟩
  obtain ⟨tagIds, hresolved⟩ := hresolved
  rw [applyProblemPatch, hresolved, hq.replaceTags, hq.replaceSamples, hq.replaceTestCases]
  exact ⟨_, rfl⟩

/-- If no statement fails, no valid file fails. -/
theorem dispatch_quiet (hq : env.Quiet) (db : Db weight) (filename : Bytes)
    (hv : u.row.effective.validate = .ok ()) (dup : OnDuplicate) :
    (dispatch env db filename u dup).1.action ≠ .failed := by
  rw [dispatch, hq.slugExists, slugExists]
  dsimp only
  split_ifs
  · exact ImportAction.noConfusion
  · obtain ⟨w, db', hwrite⟩ := writeRow_quiet hq db hv (db.problems.any fun r =>
      weight r.slug == weight u.row.slug && (false || !r.isDeleted))
    obtain ⟨db'', hpatch⟩ := applyProblemPatch_quiet hq db' w.id u
    simp only [importFile, hwrite, hpatch]
    split_ifs <;> exact ImportAction.noConfusion

/-! ## What a file gives -/

/-- The required fields of the file are valid, its optional fields are absent, `null` or valid, and
    no call throws. -/
def Proper (env : Env) (file : MultipartFormData) : Prop :=
  env.Quiet ∧ ∃ body p testCases, Json.parse file.content = some body ∧ asked body = .ok p ∧
    parseTestCasesArray body = .ok testCases

/-- A file that fails says where and why, and a proper file does not fail. -/
structure Meets (env : Env) (file : MultipartFormData) (result : ImportFileResult) : Prop where
  explained : result.action = .failed → result.failure.Explained
  imported : Proper env file → result.action ≠ .failed

/-- A valid file with a template passes the checks. -/
theorem checkFile_of_asked {p : AdminProblem.Patch} {testCases : List SampleCaseRow}
    (hasked : asked body = .ok p) (hcases : parseTestCasesArray body = .ok testCases)
    (h : ¬MissingTemplate body) :
    ∃ slug u, requireString body = .ok slug ∧ checkFile body slug = .ok u := by
  simp only [asked, bind_eq_ok] at hasked
  obtain ⟨slug, hslug, title, htitle, difficulty, hdifficulty, description, hdescription, s,
    hs, tagNames, htags, samples, hsamples, t, ht, m, hm, _, hpatch, -⟩ := hasked
  cases s with
  | none =>
    exact absurd ⟨AdminProblem.hasRequired_of_ok hslug htitle hdifficulty hdescription,
      isAbsent_iff.2 hs⟩ h
  | some template =>
    rw [Option.getD_some] at hpatch
    refine ⟨slug, ⟨⟨slug, title, difficulty, description, template, t.getD 1000, m.getD 256⟩,
      tagNames, samples, testCases⟩, hslug, ?_⟩
    simp only [checkFile, requireTitle, requireDifficulty, requireDescription, htitle, hdifficulty,
      hdescription, hs, htags, hsamples, hcases, ht, hm, hpatch, bind, Except.bind]
    rfl

/-- A file is treated as it should be exactly if it is no JSON text, or one of its required fields
    is missing, or it has a template. -/
theorem processOneFile_meets (env : Env) (db : Db weight) (file : MultipartFormData)
    (dup : OnDuplicate) :
    Meets env file (processOneFile env db file dup).1 ↔
      ∀ body, Json.parse file.content = some body → ¬MissingTemplate body := by
  constructor
  · intro h body hparse hmissing
    obtain ⟨slug, hslug⟩ := hmissing.1.exists_ok "slug" (by decide)
    have hslug : requireString body = .ok slug := hslug
    have hfile : (processOneFile env db file dup).1 = { filename := file.filename, slug } := by
      simp only [processOneFile, hparse, hslug, checkFile_of_missing hmissing]
    rw [hfile] at h
    exact (h.explained rfl).1 rfl
  · intro h
    -- A proper file passes every check, so it is never refused.
    have hproper (hp : Proper env file) {body : Json}
        (hparse : Json.parse file.content = some body) :
        ∃ slug u, requireString body = .ok slug ∧ checkFile body slug = .ok u := by
      obtain ⟨-, body', p, testCases, hparse', hasked, hcases⟩ := hp
      obtain rfl := Option.some.inj (hparse.symm.trans hparse')
      exact checkFile_of_asked hasked hcases (h body hparse)
    rw [processOneFile]
    cases hparse : Json.parse file.content with
    | none =>
      refine ⟨fun _ => by simp [Failure.Explained], ?_⟩
      rintro ⟨-, body, p, testCases, hparse', -⟩
      cases hparse.symm.trans hparse'
    | some body =>
      dsimp only
      cases hslug : requireString body with
      | error failure =>
        refine ⟨fun _ => explains_requireField "slug" body failure hslug, fun hp => ?_⟩
        obtain ⟨slug, u, hslug', -⟩ := hproper hp hparse
        cases hslug.symm.trans hslug'
      | ok slug =>
        dsimp only
        cases hcheck : checkFile body slug with
        | error failure =>
          refine ⟨fun _ => explains_checkFile hslug (h body hparse) failure hcheck, fun hp => ?_⟩
          obtain ⟨slug', u, hslug', hcheck'⟩ := hproper hp hparse
          obtain rfl := Except.ok.inj (hslug.symm.trans hslug')
          cases hcheck.symm.trans hcheck'
        | ok u =>
          exact ⟨explained_dispatch env db file.filename u dup,
            fun hp => dispatch_quiet hp.1 db file.filename (checkFile_eq_ok hcheck).2 dup⟩

end Files

end LiteCode.BulkImport

namespace LiteCode.OptionalFields

open ProblemRepo AdminProblem
open SuperAdmin (Claims)

/-! ## The three handlers -/

variable {weight : Bytes → Bytes}

/-- A request is answered once, and a proper one with a success, a `409` or a `404`, exactly if its
    body has a template, and its limits are told apart from those that are refused; and a file that
    fails says where and why, and a proper one does not fail, exactly if it has a template. A body
    or a file without the required fields is refused before. -/
theorem optionalFields_iff (env : Env) (importEnv : BulkImport.Env) (db : Db weight)
    (claims : Claims) (path raw : Bytes) (file : BulkImport.MultipartFormData)
    (onDuplicate : BulkImport.OnDuplicate) :
    (Meets (Proper env claims raw) (adminCreateProblemHandler env db claims raw).1 ↔
      Single raw) ∧
    (Meets ((extractSlugFromAdminPath path).isSome ∧ Proper env claims raw)
        (adminUpdateProblemHandler env db claims path raw).1 ↔
      ((extractSlugFromAdminPath path).isSome → Single raw)) ∧
    (BulkImport.Meets importEnv file
        (BulkImport.processOneFile importEnv db file onDuplicate).1 ↔
      ∀ body, Json.parse file.content = some body → ¬BulkImport.MissingTemplate body) :=
  ⟨create_meets env db claims raw, update_meets env db claims path raw,
    BulkImport.processOneFile_meets importEnv db file onDuplicate⟩

/-- No problem is there. -/
def emptyDb : Db id where
  problems := []
  nextId := 1
  problemTags := []
  testCases := []
  nextCaseId := 1
  nodup_ids := List.nodup_nil
  id_lt := List.forall_mem_nil _
  nodup_slugs := List.nodup_nil
  nextId_pos := Nat.one_pos

/-- Nothing fails. -/
def quietEnv : Env where
  parseWhat := []
  create := none
  updateRead := none
  update := none
  findAfter := none
  tagIds := .ok []
  replaceTags := none
  replaceSamples := none
  audit := none
  readBack := none
  now := 1

/-- The token of an administrator. -/
def rootClaims : Claims := ⟨bytes "1", bytes "root", .admin⟩

/-- A body with the required fields, and more. -/
def bodyWith (more : String) : Bytes :=
  bytes ("\x7b\"slug\":\"a\",\"title\":\"t\",\"difficulty\":\"easy\",\"description\":\"d\"" ++
    more ++ "\x7d")

/-- The responses to it. -/
def created (more : String) : List Reply :=
  (adminCreateProblemHandler quietEnv emptyDb rootClaims (bodyWith more)).1

/-- A file with it. -/
def fileWith (more : String) : BulkImport.MultipartFormData := ⟨bytes "a.json", bodyWith more⟩

/-- The record of it. -/
def imported (more : String) : BulkImport.ImportFileResult :=
  (BulkImport.processOneFile BulkImport.quietEnv emptyDb (fileWith more) .skip).1

/-- A body without a template, or with a limit that is `null`, has no response; one with a limit
    that is refused and whose key is written with an escape has two; and a file without a template
    fails and does not say why. -/
theorem absent_unanswered :
    created "" = [] ∧ created ",\"template\":\"\",\"time_limit_ms\":null" = [] ∧
      (created ",\"template\":\"\",\"time_limit_m\\u0073\":0").length = 2 ∧
      ¬Meets (Proper quietEnv rootClaims (bodyWith "")) (created "") ∧
      (imported "").action = .failed ∧ ¬(imported "").failure.Explained := by
  have hsilent : created "" = [] := by decide +kernel
  have hfailure : (imported "").failure = {} := by decide +kernel
  refine ⟨hsilent, by decide +kernel, by decide +kernel, fun h => ?_, by decide +kernel, ?_⟩
  · have hone := h.one
    rw [hsilent] at hone
    cases hone
  · rw [hfailure]
    exact fun h => h.1 rfl

end LiteCode.OptionalFields
