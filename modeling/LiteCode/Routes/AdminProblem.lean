import LiteCode.Db.ProblemUpdate
import LiteCode.Routes.BulkImport
import LiteCode.Routes.SuperAdmin

/-!
# Problems made and changed by an administrator

`admin_create_problem_handler` and `admin_update_problem_handler` of
`src/routes/admin_problem_routes.h`, from the claims that `require_admin` gives on. Both read the
same fields of the body with helpers that send an envelope themselves when a field does not pass its
check; a helper without a value makes the handler return (`Run`). The checks and their messages are
those of the import of a file, whose record takes the place of the envelope.

An envelope with a text that is not UTF-8 is not sent: `dump` throws, the handler lets the exception
through, and the server answers.

* `checkPatch`: the fields, in turn;
* `Reading`: what becomes of a limit. The handlers search the text of the body for its name to tell
  a limit that is absent from one that is refused;
* `count_checkPatch_eq_one_iff`: when the body gives one response.
-/

namespace LiteCode.AdminProblem

open ErrorHandler ProblemRepo
open BulkImport (Failure parseTagsArray parseSamplesArray validateProblemPatch)
open SuperAdmin (Claims)

variable {weight : Bytes → Bytes}

/-! ## Responses -/

/-- What `serialize_problem_detail` shows: the row, its tags and its samples. -/
structure Payload where
  row : Problem
  tags : List (Nat × Nat)
  samples : List TestCase
  deriving DecidableEq, Repr

/-- A response. -/
inductive Reply
  | error (e : Envelope)
  /-- `send_created` or `send_success`. -/
  | saved (status : Nat) (payload : Payload)
  /-- The handler lets an exception through, and the server answers. -/
  | exception
  deriving DecidableEq, Repr

/-- `send_error`. -/
def sendError (e : Envelope) : Reply := if e.WellFormed then .error e else .exception

/-- A part of a handler: the responses that it sends, and its value, if the handler goes on. -/
structure Run (α : Type) where
  replies : List Reply
  value : Option α
  deriving DecidableEq, Repr

namespace Run

variable {α β : Type}

def bind (x : Run α) (f : α → Run β) : Run β :=
  match x.value with
  | none => ⟨x.replies, none⟩
  | some a => ⟨x.replies ++ (f a).replies, (f a).value⟩

instance : Monad Run where
  pure a := ⟨[], some a⟩
  bind := bind

/-- The handler returns. -/
def stop : Run α := ⟨[], none⟩

/-- The handler sends an envelope and returns. -/
def refuse (e : Envelope) : Run α := ⟨[sendError e], none⟩

end Run

/-- The envelope of a field that does not pass its check. -/
def envelope (failure : Failure) : Envelope :=
  invalidInput failure.reason (failure.details.getD [])

/-- A check that sends an envelope. -/
def checked {α : Type} : Except Failure α → Run α
  | .ok a => pure a
  | .error failure => .refuse (envelope failure)

/-! ## The body -/

/-- `parse_json_body`. -/
def parseBody (raw what : Bytes) : Run Json :=
  match parseJsonBody raw what with
  | .ok body => pure body
  | .error e => .refuse e

/-- `require_string`. -/
def requireString (body : Json) (name : String) : Run Bytes :=
  checked (BulkImport.requireField name body)

/-- `optional_string`: there is no value if the field is absent, and none if it is refused. -/
def optionalString (body : Json) (name : String) : Run Bytes :=
  match body.get? (bytes name) with
  | none | some .null => .stop
  | some (.str s) => pure s
  | some _ => .refuse (envelope (BulkImport.notWhenPresent name "a string"))

/-- `optional_int_field`: the same. -/
def optionalIntField (body : Json) (name : String) (min max : Int) : Run Int :=
  match BulkImport.optionalIntField body name min max with
  | .ok (some v) => pure v
  | .ok none => .stop
  | .error failure => .refuse (envelope failure)

/-- A limit of the problem. Without a value, the handler returns if the text of the body has the
    name somewhere, and otherwise takes the default. -/
def limit (raw : Bytes) (body : Json) (name : String) (min max default : Int) : Run Int :=
  let t := optionalIntField body name min max
  if bytes name <:+: raw ∧ t.value = none then ⟨t.replies, none⟩
  else ⟨t.replies, some (t.value.getD default)⟩

/-- The template is at most 64 KB. -/
def checkTemplate (template : Bytes) : Run Unit :=
  if 64 * 1024 < template.length then
    .refuse (invalidInput (bytes "template exceeds 64 KB ceiling")
      [field (bytes "template"), .text (bytes "size") (decimal template.length)])
  else pure ()

/-- What a body that passes the checks holds. -/
structure Patch where
  row : ProblemRow
  tagNames : List Bytes
  samples : List SampleCaseRow
  deriving DecidableEq, Repr

/-- The fields of the body, which both handlers read in the same order. -/
def checkPatch (raw what : Bytes) : Run Patch := do
  let body ← parseBody raw what
  let slug ← requireString body "slug"
  let title ← requireString body "title"
  let difficulty ← requireString body "difficulty"
  let description ← requireString body "description"
  let template ← optionalString body "template"
  checkTemplate template
  let tagNames ← checked (parseTagsArray body)
  let samples ← checked (parseSamplesArray body)
  let timeLimit ← limit raw body "time_limit_ms" 1 60000 1000
  let memoryLimit ← limit raw body "memory_limit_mb" 1 1024 256
  let row : ProblemRow := { slug, title, difficulty, description, template, timeLimit, memoryLimit }
  checked (validateProblemPatch row)
  return ⟨row, tagNames, samples⟩

/-! ## The tables -/

/-- What a call meets: the text of what the JSON reader throws, and the outcomes of the calls of the
    repositories in turn. -/
structure Env where
  parseWhat : Bytes
  create : Option Fault
  updateRead : Option Bytes
  update : Option Bytes
  /-- `find_by_slug` after the update. -/
  findAfter : Option Bytes
  /-- `find_or_create_many`. -/
  tagIds : Except Bytes (List Nat)
  replaceTags : Option Fault
  replaceSamples : Option Fault
  /-- `audit_log_repo::record`. -/
  audit : Option Bytes
  /-- The statements of `build_response_payload`. -/
  readBack : Option Bytes
  now : Int

/-- An exception that the handler catches. -/
def internal (what : Bytes) : Reply := sendError (internalError (bytes "internal error: " ++ what))

/-- A slug that is taken. -/
def slugConflict (slug : Bytes) : Reply :=
  sendError ⟨409, .conflict, bytes "slug already exists",
    [field (bytes "slug"), .text (bytes "value") slug]⟩

/-- `apply_tag_and_sample_patch`. -/
def applyTagAndSamplePatch (env : Env) (db : Db weight) (problemId : Nat) (p : Patch) :
    Except Bytes Unit × Db weight :=
  let tagIds := if p.tagNames.isEmpty then .ok [] else env.tagIds
  andThen (tagIds, db) fun tagIds db =>
    andThen (replaceTags db problemId tagIds env.replaceTags) fun _ db =>
      replaceForProblem db problemId p.samples true env.replaceSamples

/-- The order of `list_samples_for_problem`. -/
def sampleLe (c c' : TestCase) : Bool :=
  c.orderNum < c'.orderNum || (c.orderNum == c'.orderNum && c.id ≤ c'.id)

/-- `build_response_payload`. -/
def buildResponsePayload (env : Env) (db : Db weight) (problemId : Nat) : Except Bytes Payload :=
  match env.readBack with
  | some what => .error what
  | none =>
    match db.findById problemId true with
    | none => .error (bytes "admin_problem_routes: row " ++ decimal problemId ++
        bytes " disappeared between write and readback")
    | some row => .ok ⟨row, db.tagsOf problemId,
        ((db.casesOf problemId).filter TestCase.isSample).mergeSort sampleLe⟩

/-- The end of both handlers, after the row has been written: the tags and the samples, the
    revision, the audit log, and the response. -/
def finish (env : Env) (db : Db weight) (claims : Claims) (problemId : Nat) (p : Patch)
    (status : Nat) : Reply × Db weight :=
  match applyTagAndSamplePatch env db problemId p with
  | (.error what, db) => (internal what, db)
  | (.ok (), db) =>
    -- the id of the editor is read outside of any `try`
    match stoi claims.userId with
    | none => (.exception, db)
    | some _ =>
      match env.audit with
      | some what => (internal what, db)
      | none =>
        match buildResponsePayload env db problemId with
        | .error what => (internal what, db)
        | .ok payload => (.saved status payload, db)

/-- `admin_create_problem_handler`, from the write of the row on. -/
def createProblem (env : Env) (db : Db weight) (claims : Claims) (p : Patch) : Reply × Db weight :=
  match create db p.row env.now env.create with
  | (.error what, db) => (internal what, db)
  | (.ok newId, db) =>
    if newId = 0 then (slugConflict p.row.slug, db) else finish env db claims newId p 201

/-- `admin_update_problem_handler`, from the write of the row on. -/
def updateProblem (env : Env) (db : Db weight) (claims : Claims) (oldSlug : Bytes) (p : Patch) :
    Reply × Db weight :=
  match update db oldSlug p.row env.now env.updateRead env.update with
  | (.error (.notFound _), db) =>
    (sendError ⟨404, .notFound, bytes "problem not found", [.text (bytes "slug") oldSlug]⟩, db)
  | (.error (.alreadyExists _), db) => (slugConflict p.row.slug, db)
  | (.error (.repo what), db) => (internal what, db)
  | (.ok _, db) =>
    match env.findAfter, db.findBySlug p.row.slug true with
    | some what, _ => (internal what, db)
    | none, none => (internal (bytes "admin_problem_update: row " ++ p.row.slug ++
        bytes " missing after update"), db)
    | none, some r => finish env db claims r.id p 200

/-! ## The handlers -/

/-- The responses of a handler that checks the body and then writes to the tables. -/
def handle {α : Type} (x : Run α) (db : Db weight) (write : α → Reply × Db weight) :
    List Reply × Db weight :=
  match x.value with
  | none => (x.replies, db)
  | some a => (x.replies ++ [(write a).1], (write a).2)

/-- `admin_create_problem_handler`. -/
def adminCreateProblemHandler (env : Env) (db : Db weight) (claims : Claims) (raw : Bytes) :
    List Reply × Db weight :=
  handle (checkPatch raw env.parseWhat) db (createProblem env db claims)

/-- The path of the route. -/
def adminPath : Bytes := bytes "/api/v1/admin/problems/"

/-- `has_control_chars`. -/
def hasControlChars (s : Bytes) : Bool := s.any fun c => c < 0x20 || c == 0x7F

/-- `has_html_special_chars`. -/
def hasHtmlSpecialChars (s : Bytes) : Bool := s.any fun c => c == 0x3C || c == 0x3E || c == 0x26

/-- `has_json_special_chars`. -/
def hasJsonSpecialChars (s : Bytes) : Bool :=
  [0xE2, 0x80, 0xA8] <:+: s || [0xE2, 0x80, 0xA9] <:+: s

/-- `extract_slug_from_admin_path`. -/
def extractSlugFromAdminPath (path : Bytes) : Option Bytes :=
  let rest := path.drop adminPath.length
  if ¬adminPath <+: path ∨ rest.isEmpty then none
  else if 200 < rest.length then none
  else if bytes ".." <:+: rest then none
  else if hasControlChars rest || hasHtmlSpecialChars rest || hasJsonSpecialChars rest then none
  else match validateSlug rest with
    | .error _ => none
    | .ok () => some rest

/-- `admin_update_problem_handler`. -/
def adminUpdateProblemHandler (env : Env) (db : Db weight) (claims : Claims) (path raw : Bytes) :
    List Reply × Db weight :=
  match extractSlugFromAdminPath path with
  | none =>
    ([sendError (invalidInput (bytes ("slug must be 1-100 chars of [a-z0-9-], not starting " ++
      "or ending with '-'")) [field (bytes "slug"), .text (bytes "value") path])], db)
  | some oldSlug => handle (checkPatch raw env.parseWhat) db (updateProblem env db claims oldSlug)

/-! ## How many responses -/

section Counting

variable {α β : Type} {body : Json} {raw what : Bytes}

/-- The responses, if what follows gives one. -/
def Run.count (x : Run α) : Nat := x.replies.length + if x.value.isSome then 1 else 0

theorem length_handle (x : Run α) (db : Db weight) (write : α → Reply × Db weight) :
    (handle x db write).1.length = x.count := by
  obtain ⟨replies, _ | a⟩ := x
  · rfl
  · exact List.length_append

theorem Run.count_pure (a : α) : (pure a : Run α).count = 1 := rfl

theorem Run.count_pure_bind (a : α) (f : α → Run β) :
    ((pure a : Run α) >>= f).count = (f a).count := rfl

/-- After a check that sends an envelope. -/
theorem count_checked_bind {x : Except Failure α} {f : α → Run β} :
    (checked x >>= f).count = 1 ↔ ∀ a, x = .ok a → (f a).count = 1 := by
  cases x with
  | error failure => exact iff_of_true rfl nofun
  | ok a =>
    rw [checked, Run.count_pure_bind]
    refine ⟨fun h b hb => ?_, fun h => h a rfl⟩
    cases hb
    exact h

theorem count_parseBody_bind {f : Json → Run β} :
    (parseBody raw what >>= f).count = 1 ↔
      ∀ body, Json.parse raw = some body → (f body).count = 1 := by
  rw [parseBody, parseJsonBody]
  cases raw with
  | nil => exact iff_of_true rfl nofun
  | cons b raw =>
    rw [List.isEmpty_cons, if_neg Bool.false_ne_true]
    cases Json.parse (b :: raw) with
    | none => exact iff_of_true rfl nofun
    | some body => simp only [Option.some.injEq, forall_eq', Run.count_pure_bind]

/-- The field is absent or `null`. -/
def isAbsent (body : Json) (name : String) : Bool :=
  match body.get? (bytes name) with
  | none | some .null => true
  | some _ => false

/-- A field that may be absent, but without which the handler returns. -/
theorem count_optionalString_bind {name : String} {f : Bytes → Run β} :
    (optionalString body name >>= f).count = 1 ↔ isAbsent body name = false ∧
      ∀ s, body.get? (bytes name) = some (.str s) → (f s).count = 1 := by
  rw [optionalString, isAbsent]
  match body.get? (bytes name) with
  | none => exact iff_of_false nofun fun h => Bool.noConfusion h.1
  | some .null => exact iff_of_false nofun fun h => Bool.noConfusion h.1
  | some (.str s) =>
    simp only [Run.count_pure_bind, Option.some.injEq, Json.str.injEq, forall_eq', true_and]
  | some (.bool _) | some (.num _) | some (.arr _) | some (.obj _) =>
    exact iff_of_true rfl ⟨rfl, nofun⟩

theorem count_checkTemplate_bind {template : Bytes} {f : Unit → Run β} :
    (checkTemplate template >>= f).count = 1 ↔
      (template.length ≤ 64 * 1024 → (f ()).count = 1) := by
  rw [checkTemplate]
  split_ifs with h
  · exact iff_of_true rfl fun h' => absurd h (Nat.not_lt.2 h')
  · rw [Run.count_pure_bind, imp_iff_right (Nat.not_lt.1 h)]

/-- The envelope of a limit is sent, whatever the body has for it: there is no exception between the
    two limits. -/
theorem sendError_limit {name : String} {min max : Int} {failure : Failure}
    (hname : Json.Plain (bytes name))
    (h : BulkImport.optionalIntField body name min max = .error failure) :
    sendError (envelope failure) = .error (envelope failure) := by
  have hsend {e : Envelope} (he : ∀ s ∈ e.message :: e.details.flatMap Detail.texts, Json.Plain s) :
      sendError e = .error e :=
    if_pos fun s hs => Utf8.wellFormed_of_lt fun b hb => Json.lt_of_isPlain (he s hs b hb)
  refine hsend ?_
  rw [BulkImport.optionalIntField] at h
  split at h
  · cases h
  · cases h
  · split at h
    · cases h
      simp only [envelope, BulkImport.notWhenPresent, BulkImport.invalid, invalidInput, field,
        Option.getD_some, List.flatMap_cons, List.flatMap_nil, Detail.texts, List.append_nil,
        List.forall_mem_cons]
      refine ⟨?_, by decide, hname, List.forall_mem_nil _⟩
      exact (((Json.Plain.append (by decide) hname).append (by decide)).append (by decide)).append
        (by decide)
    · split_ifs at h
      cases h
      simp only [envelope, BulkImport.invalid, BulkImport.text, invalidInput, field,
        Option.getD_some, List.flatMap_cons, List.flatMap_nil, Detail.texts, List.append_nil,
        List.cons_append, List.nil_append, List.forall_mem_cons]
      exact ⟨(Json.Plain.append (by decide) hname).append (by decide), by decide, hname, by decide,
        Json.plain_decimalInt _, by decide, Json.plain_decimalInt _, by decide,
        Json.plain_decimalInt _, List.forall_mem_nil _⟩

/-- What becomes of a limit. -/
inductive Reading
  /-- It is valid, or it is absent or `null` and the text of the body does not have its name. -/
  | read
  /-- It is absent or `null`, and the text has its name: there is no response. -/
  | mute
  /-- It is refused. -/
  | refused
  /-- It is refused, but the text does not have its name, since the key is written with an escape:
      the handler goes on after the envelope. -/
  | unnoticed
  deriving DecidableEq, Repr

/-- The field is an integer in range. -/
def inRange (body : Json) (name : String) (min max : Int) : Bool :=
  ((body.get? (bytes name)).bind BulkImport.getInteger).any fun v => min ≤ v && v ≤ max

def reading (raw : Bytes) (body : Json) (name : String) (min max : Int) : Reading :=
  if isAbsent body name then if bytes name <:+: raw then .mute else .read
  else if inRange body name min max then .read
  else if bytes name <:+: raw then .refused else .unnoticed

/-- The values of `optional_int_field`. -/
theorem optionalIntField_cases (body : Json) (name : String) (min max : Int) :
    (isAbsent body name = true ∧ BulkImport.optionalIntField body name min max = .ok none) ∨
    (∃ v, isAbsent body name = false ∧ inRange body name min max = true ∧
      BulkImport.optionalIntField body name min max = .ok (some v)) ∨
    ∃ failure, isAbsent body name = false ∧ inRange body name min max = false ∧
      BulkImport.optionalIntField body name min max = .error failure := by
  have hvalue (j : Json) (hj : body.get? (bytes name) = some j) (hnull : j ≠ .null) :
      (∃ v, inRange body name min max = true ∧
        BulkImport.optionalIntField body name min max = .ok (some v)) ∨
      ∃ failure, inRange body name min max = false ∧
        BulkImport.optionalIntField body name min max = .error failure := by
    simp only [inRange, BulkImport.optionalIntField, hj, Option.bind_some]
    cases hv : BulkImport.getInteger j with
    | none => exact .inr ⟨_, rfl, rfl⟩
    | some v =>
      by_cases hrange : v < min ∨ max < v
      · refine .inr ⟨_, ?_, if_pos hrange⟩
        simp only [Option.any_some, Bool.and_eq_false_iff, decide_eq_false_iff_not]
        omega
      · refine .inl ⟨v, ?_, if_neg hrange⟩
        simp only [Option.any_some, Bool.and_eq_true, decide_eq_true_eq]
        omega
  cases hj : body.get? (bytes name) with
  | none => exact .inl ⟨by simp [isAbsent, hj], by simp [BulkImport.optionalIntField, hj]⟩
  | some j =>
    by_cases hnull : j = .null
    · subst hnull
      exact .inl ⟨by simp [isAbsent, hj], by simp [BulkImport.optionalIntField, hj]⟩
    · have habsent : isAbsent body name = false := by simp [isAbsent, hj]
      rcases hvalue j hj hnull with ⟨v, hrange, hv⟩ | ⟨failure, hrange, hv⟩
      · exact .inr (.inl ⟨v, habsent, hrange, hv⟩)
      · exact .inr (.inr ⟨failure, habsent, hrange, hv⟩)

/-- The responses, if what follows gives `n`. -/
def Reading.responses (n : Nat) : Reading → Nat
  | .read => n
  | .mute => 0
  | .refused => 1
  | .unnoticed => 1 + n

theorem count_limit_bind {name : String} {min max default : Int} {f : Int → Run β} {n : Nat}
    (hf : ∀ v, (f v).count = n) :
    (limit raw body name min max default >>= f).count =
      (reading raw body name min max).responses n := by
  have hnext (replies : List Reply) (v : Int) :
      ((⟨replies, some v⟩ : Run Int) >>= f).count = replies.length + n := by
    change (replies ++ (f v).replies).length + _ = _
    rw [List.length_append, Nat.add_assoc]
    exact congrArg (replies.length + ·) (hf v)
  rw [reading]
  rcases optionalIntField_cases body name min max with
    ⟨habsent, hread⟩ | ⟨v, habsent, hrange, hread⟩ | ⟨failure, habsent, hrange, hread⟩
  · have ht : optionalIntField body name min max = .stop := by rw [optionalIntField, hread]
    rw [if_pos habsent]
    by_cases hname : bytes name <:+: raw
    · simp only [limit, ht, hname, if_true]
      rfl
    · simp only [limit, ht, hname, false_and, if_false, hnext]
      exact Nat.zero_add n
  · have ht : optionalIntField body name min max = pure v := by rw [optionalIntField, hread]
    have hvalue : ¬(bytes name <:+: raw ∧ (pure v : Run Int).value = none) := nofun
    rw [if_neg (ne_true_of_eq_false habsent), if_pos hrange]
    simp only [limit, ht, hvalue, if_false, hnext]
    exact Nat.zero_add n
  · have ht : optionalIntField body name min max = .refuse (envelope failure) := by
      rw [optionalIntField, hread]
    rw [if_neg (ne_true_of_eq_false habsent), if_neg (ne_true_of_eq_false hrange)]
    by_cases hname : bytes name <:+: raw
    · simp only [limit, ht, hname, if_true]
      rfl
    · simp only [limit, ht, hname, false_and, if_false, hnext]
      rfl

/-- Two limits give one response: both are read, or the first one that is not is refused; or the
    first one is refused unnoticed, and the second one ends the request without a response. -/
def Once : Reading → Reading → Prop
  | .read, .read | .read, .refused | .refused, _ | .unnoticed, .mute => True
  | _, _ => False

instance (t m : Reading) : Decidable (Once t m) := by
  cases t <;> cases m <;> simp only [Once] <;> infer_instance

theorem responses_eq_one_iff (t m : Reading) : t.responses (m.responses 1) = 1 ↔ Once t m := by
  cases t <;> cases m <;> simp [Reading.responses, Once]

/-- The required fields are texts. -/
def HasRequired (body : Json) : Prop :=
  ∀ name ∈ ["slug", "title", "difficulty", "description"],
    ∃ s, body.get? (bytes name) = some (.str s)

theorem requireField_eq_ok_iff {name : String} {s : Bytes} :
    BulkImport.requireField name body = .ok s ↔ body.get? (bytes name) = some (.str s) := by
  rw [BulkImport.requireField]
  match body.get? (bytes name) with
  | some (.str s') => simp
  | none | some .null | some (.bool _) | some (.num _) | some (.arr _) | some (.obj _) => simp

theorem hasRequired_of_ok {slug title difficulty description : Bytes}
    (hslug : BulkImport.requireField "slug" body = .ok slug)
    (htitle : BulkImport.requireField "title" body = .ok title)
    (hdifficulty : BulkImport.requireField "difficulty" body = .ok difficulty)
    (hdescription : BulkImport.requireField "description" body = .ok description) :
    HasRequired body := by
  simp only [HasRequired, List.forall_mem_cons]
  exact ⟨⟨slug, requireField_eq_ok_iff.1 hslug⟩, ⟨title, requireField_eq_ok_iff.1 htitle⟩,
    ⟨difficulty, requireField_eq_ok_iff.1 hdifficulty⟩,
    ⟨description, requireField_eq_ok_iff.1 hdescription⟩, List.forall_mem_nil _⟩

/-- A required field passes its check. -/
theorem HasRequired.exists_ok (h : HasRequired body) (name : String)
    (hname : name ∈ ["slug", "title", "difficulty", "description"]) :
    ∃ s, BulkImport.requireField name body = .ok s := by
  obtain ⟨s, hs⟩ := h name hname
  exact ⟨s, requireField_eq_ok_iff.2 hs⟩

/-- The template, the tags and the samples pass their checks. -/
structure PassesArrays (body : Json) : Prop where
  template : ∃ s, body.get? (bytes "template") = some (.str s) ∧ s.length ≤ 64 * 1024
  tags : ∃ tagNames, parseTagsArray body = .ok tagNames
  samples : ∃ samples, parseSamplesArray body = .ok samples

/-- If the body has the required fields, then it has a template; and if the fields before the limits
    pass their checks, then the limits give one response. -/
def Single (raw : Bytes) : Prop :=
  ∀ body, Json.parse raw = some body → HasRequired body →
    isAbsent body "template" = false ∧
      (PassesArrays body → Once (reading raw body "time_limit_ms" 1 60000)
        (reading raw body "memory_limit_mb" 1 1024))

/-- A body gives one response. -/
theorem count_checkPatch_eq_one_iff (raw what : Bytes) :
    (checkPatch raw what).count = 1 ↔ Single raw := by
  have hend (x : Except Failure Unit) (p : Patch) : (checked x >>= fun _ => pure p).count = 1 :=
    count_checked_bind.2 fun _ _ => Run.count_pure p
  simp only [checkPatch, requireString, count_parseBody_bind, count_checked_bind,
    count_optionalString_bind, count_checkTemplate_bind]
  simp only [count_limit_bind fun _ => count_limit_bind fun _ => hend _ _, responses_eq_one_iff]
  refine forall₂_congr fun body _ => ⟨fun h hrequired => ?_, fun h slug hslug title htitle
    difficulty hdifficulty description hdescription => ?_⟩
  · obtain ⟨slug, hslug⟩ := hrequired.exists_ok "slug" (by decide)
    obtain ⟨title, htitle⟩ := hrequired.exists_ok "title" (by decide)
    obtain ⟨difficulty, hdifficulty⟩ := hrequired.exists_ok "difficulty" (by decide)
    obtain ⟨description, hdescription⟩ := hrequired.exists_ok "description" (by decide)
    obtain ⟨htemplate, hlimits⟩ :=
      h slug hslug title htitle difficulty hdifficulty description hdescription
    refine ⟨htemplate, fun ⟨⟨s, hs, hlength⟩, ⟨tagNames, htags⟩, ⟨samples, hsamples⟩⟩ => ?_⟩
    exact hlimits s hs hlength tagNames htags samples hsamples
  · obtain ⟨htemplate, hlimits⟩ :=
      h (hasRequired_of_ok hslug htitle hdifficulty hdescription)
    exact ⟨htemplate, fun s hs hlength tagNames htags samples hsamples =>
      hlimits ⟨⟨s, hs, hlength⟩, ⟨tagNames, htags⟩, ⟨samples, hsamples⟩⟩⟩

end Counting

/-! ## Valid bodies -/

section Valid

variable {body : Json} {raw : Bytes} {p : Patch}

/-- What a body asks for: the required fields are valid, and each optional one is absent, `null` or
    valid. -/
def asked (body : Json) : Except Failure Patch := do
  let slug ← BulkImport.requireField "slug" body
  let title ← BulkImport.requireField "title" body
  let difficulty ← BulkImport.requireField "difficulty" body
  let description ← BulkImport.requireField "description" body
  let template ← BulkImport.optionalStringField body "template" (64 * 1024)
  let tagNames ← parseTagsArray body
  let samples ← parseSamplesArray body
  let timeLimit ← BulkImport.optionalIntField body "time_limit_ms" 1 60000
  let memoryLimit ← BulkImport.optionalIntField body "memory_limit_mb" 1 1024
  let row : ProblemRow := {
    slug, title, difficulty, description
    template := template.getD []
    timeLimit := timeLimit.getD 1000
    memoryLimit := memoryLimit.getD 256 }
  validateProblemPatch row
  return ⟨row, tagNames, samples⟩

theorem Run.pure_bind {α β : Type} (a : α) (f : α → Run β) : (pure a : Run α) >>= f = f a := rfl

theorem parseBody_of_parse (what : Bytes) (h : Json.parse raw = some body) :
    parseBody raw what = pure body := by
  cases raw with
  | nil => cases h
  | cons b raw =>
    rw [parseBody, parseJsonBody, List.isEmpty_cons, if_neg Bool.false_ne_true, h]

/-- A template that is there and not `null`. -/
theorem optionalString_of_ok {name : String} {max : Nat} {s : Option Bytes}
    (h : BulkImport.optionalStringField body name max = .ok s)
    (hthere : isAbsent body name = false) :
    ∃ t, s = some t ∧ body.get? (bytes name) = some (.str t) ∧ t.length ≤ max ∧
      optionalString body name = pure t := by
  rw [BulkImport.optionalStringField] at h
  rw [isAbsent] at hthere
  rw [optionalString]
  match hv : body.get? (bytes name) with
  | none => simp [hv] at hthere
  | some .null => simp [hv] at hthere
  | some (.str t) =>
    simp only [hv] at h
    split_ifs at h with hlength
    cases h
    exact ⟨t, rfl, rfl, Nat.not_lt.1 hlength, rfl⟩
  | some (.bool _) | some (.num _) | some (.arr _) | some (.obj _) => simp [hv] at h

/-- A limit that is absent, `null` or valid is read, or the handler returns without a response. -/
theorem reading_of_ok (raw : Bytes) {name : String} {min max : Int} {v : Option Int}
    (h : BulkImport.optionalIntField body name min max = .ok v) :
    reading raw body name min max = .mute ∨
      reading raw body name min max = .read ∧
        ∀ default, limit raw body name min max default = pure (v.getD default) := by
  rw [reading]
  rcases optionalIntField_cases body name min max with
    ⟨habsent, hread⟩ | ⟨w, habsent, hrange, hread⟩ | ⟨failure, -, -, hread⟩
  · cases h.symm.trans hread
    have ht : optionalIntField body name min max = .stop := by rw [optionalIntField, hread]
    rw [if_pos habsent]
    split_ifs with hname
    · exact .inl rfl
    · exact .inr ⟨rfl, fun _ => by simp only [limit, ht, hname, false_and, if_false]; rfl⟩
  · cases h.symm.trans hread
    have ht : optionalIntField body name min max = pure w := by rw [optionalIntField, hread]
    have hvalue : ¬(bytes name <:+: raw ∧ (pure w : Run Int).value = none) := nofun
    rw [if_neg (ne_true_of_eq_false habsent), if_pos hrange]
    exact .inr ⟨rfl, fun _ => by simp only [limit, ht, hvalue, if_false]; rfl⟩
  · cases h.symm.trans hread

/-- A valid body that gives one response passes the checks of the handlers. -/
theorem checkPatch_of_asked (what : Bytes) (hparse : Json.parse raw = some body)
    (h : asked body = .ok p) (hone : Single raw) :
    checkPatch raw what = pure p ∧ validateProblemPatch p.row = .ok () := by
  simp only [asked, bind_eq_ok] at h
  obtain ⟨slug, hslug, title, htitle, difficulty, hdifficulty, description, hdescription, s,
    hs, tagNames, htags, samples, hsamples, t, ht, m, hm, _, hpatch, hp⟩ := h
  cases hp
  obtain ⟨hthere, honce⟩ := hone body hparse
    (hasRequired_of_ok hslug htitle hdifficulty hdescription)
  obtain ⟨template, rfl, hvalue, hlength, htemplate⟩ := optionalString_of_ok hs hthere
  have honce := honce ⟨⟨template, hvalue, hlength⟩, ⟨tagNames, htags⟩, ⟨samples, hsamples⟩⟩
  have hcheck : checkTemplate template = pure () := if_neg (Nat.not_lt.2 hlength)
  -- both limits are read: a valid limit without a response cannot be made up for
  rcases reading_of_ok raw ht with htime | ⟨htime, hlimit⟩
  · rw [htime] at honce
    exact honce.elim
  rcases reading_of_ok raw hm with hmemory | ⟨hmemory, hlimit'⟩
  · rw [htime, hmemory] at honce
    exact honce.elim
  refine ⟨?_, hpatch⟩
  simp only [checkPatch, parseBody_of_parse what hparse, requireString, hslug, htitle, hdifficulty,
    hdescription, htemplate, hcheck, htags, hsamples, hlimit, hlimit', checked, Run.pure_bind,
    Option.getD_some] at hpatch ⊢
  rw [hpatch]
  rfl

end Valid

/-! ## When nothing fails -/

section Quiet

variable {env : Env} {db : Db weight} {claims : Claims} {p : Patch}

/-- No call of the repositories throws. -/
structure Env.Quiet (env : Env) : Prop where
  create : env.create = none
  updateRead : env.updateRead = none
  update : env.update = none
  findAfter : env.findAfter = none
  tagIds : ∃ ids, env.tagIds = .ok ids
  replaceTags : env.replaceTags = none
  replaceSamples : env.replaceSamples = none
  audit : env.audit = none
  readBack : env.readBack = none

/-- A success, a conflict, or a problem that is not found. -/
def Reply.Accepts : Reply → Prop
  | .error e => e.status = 409 ∨ e.status = 404
  | .saved _ _ => True
  | .exception => False

theorem isValidSlugChar_iff {c : UInt8} : isValidSlugChar c = true ↔
    (0x61 ≤ c ∧ c ≤ 0x7A ∨ 0x30 ≤ c ∧ c ≤ 0x39) ∨ c = 0x2D := by
  simp only [isValidSlugChar, Bool.or_eq_true, Bool.and_eq_true, decide_eq_true_eq, beq_iff_eq]

theorem isValidSlugChar_lt {c : UInt8} (h : isValidSlugChar c = true) : c < 0x80 := by
  rw [isValidSlugChar_iff] at h
  grind

/-- A slug is ASCII. -/
theorem wellFormed_of_validateSlug {slug : Bytes} (h : validateSlug slug = .ok ()) :
    Utf8.WellFormed slug := by
  simp only [validateSlug, bind_eq_ok, BulkImport.require_eq_ok_iff] at h
  obtain ⟨_, -, _, -, hchars⟩ := h
  exact Utf8.wellFormed_of_lt fun c hc => isValidSlugChar_lt (List.all_eq_true.1 hchars c hc)

theorem accepts_slugConflict {slug : Bytes} (h : validateSlug slug = .ok ()) :
    (slugConflict slug).Accepts := by
  rw [slugConflict, sendError, if_pos]
  · exact .inl rfl
  · intro s hs
    simp only [List.flatMap_cons, List.flatMap_nil, field, Detail.texts, List.append_nil,
      List.cons_append, List.nil_append, List.mem_cons, List.not_mem_nil, or_false] at hs
    rcases hs with rfl | rfl | rfl | rfl | rfl
    iterate 4 decide
    exact wellFormed_of_validateSlug h

theorem accepts_notFound {slug : Bytes} (h : validateSlug slug = .ok ()) :
    (sendError ⟨404, .notFound, bytes "problem not found",
      [.text (bytes "slug") slug]⟩).Accepts := by
  rw [sendError, if_pos]
  · exact .inr rfl
  · intro s hs
    simp only [List.flatMap_cons, List.flatMap_nil, Detail.texts, List.append_nil, List.mem_cons,
      List.not_mem_nil, or_false] at hs
    rcases hs with rfl | rfl | rfl
    · decide
    · decide
    · exact wellFormed_of_validateSlug h

theorem applyTagAndSamplePatch_quiet (hq : env.Quiet) (db : Db weight) (problemId : Nat)
    (p : Patch) :
    ∃ db', applyTagAndSamplePatch env db problemId p = (.ok (), db') ∧
      db'.problems = db.problems := by
  obtain ⟨ids, hids⟩ := hq.tagIds
  simp only [applyTagAndSamplePatch, hids, hq.replaceTags, hq.replaceSamples]
  split_ifs <;> exact ⟨_, rfl, rfl⟩

/-- The end of the handlers, for a row that is there. -/
theorem accepts_finish (hq : env.Quiet) (hid : (stoi claims.userId).isSome) {r : Problem}
    (hr : r ∈ db.problems) (status : Nat) : (finish env db claims r.id p status).1.Accepts := by
  obtain ⟨db', happly, hproblems⟩ := applyTagAndSamplePatch_quiet hq db r.id p
  obtain ⟨editor, heditor⟩ := Option.isSome_iff_exists.1 hid
  have hfound : db'.findById r.id true = some r := Db.findById_of_mem (hproblems ▸ hr)
  simp only [finish, happly, heditor, hq.audit, buildResponsePayload, hq.readBack, hfound]
  trivial

theorem validate_slug {row : ProblemRow} (h : row.validate = .ok ()) :
    validateSlug row.slug = .ok () := by
  simp only [ProblemRow.validate, bind_eq_ok] at h
  obtain ⟨_, hslug, -⟩ := h
  exact hslug

theorem accepts_createProblem (hq : env.Quiet) (hid : (stoi claims.userId).isSome)
    (hpatch : validateProblemPatch p.row = .ok ()) (db : Db weight) :
    (createProblem env db claims p).1.Accepts := by
  obtain ⟨hv, htime, hmemory⟩ := BulkImport.validate_of_patch hpatch
  have heffective : p.row.effective = p.row := by
    rw [ProblemRow.effective, if_neg htime, if_neg hmemory]
  rw [createProblem, hq.create]
  rcases create_of_validate db env.now (heffective.symm ▸ hv) with hc | ⟨h, hc⟩
  · rw [hc]
    exact accepts_slugConflict (validate_slug hv)
  · rw [hc]
    dsimp only
    rw [if_neg (Nat.ne_of_gt db.nextId_pos)]
    have hr : p.row.effective.toProblem db.nextId env.now ∈
        (db.insert p.row.effective env.now h).problems :=
      List.mem_append_right _ (List.mem_singleton_self _)
    exact accepts_finish hq hid hr 201

theorem accepts_updateProblem (hq : env.Quiet) (hid : (stoi claims.userId).isSome)
    (hpatch : validateProblemPatch p.row = .ok ()) (db : Db weight) {oldSlug : Bytes}
    (hold : validateSlug oldSlug = .ok ()) :
    (updateProblem env db claims oldSlug p).1.Accepts := by
  obtain ⟨hv, -, -⟩ := BulkImport.validate_of_patch hpatch
  rw [updateProblem, hq.updateRead, hq.update, hq.findAfter]
  rcases update_cases db oldSlug env.now hv with
    ⟨what, hu⟩ | ⟨what, hu⟩ | ⟨changed, db', r, hu, hfound⟩ <;> rw [hu]
  · exact accepts_notFound hold
  · exact accepts_slugConflict (validate_slug hv)
  · simp only [hfound]
    exact accepts_finish hq hid (Db.findBySlug_eq_some_iff.1 hfound).1 200

theorem validateSlug_of_extract {path slug : Bytes}
    (h : extractSlugFromAdminPath path = some slug) : validateSlug slug = .ok () := by
  rw [extractSlugFromAdminPath] at h
  split_ifs at h
  cases hv : validateSlug (path.drop adminPath.length) with
  | error err => simp [hv] at h
  | ok u =>
    simp only [hv, Option.some.injEq] at h
    rw [← h, hv]

end Quiet

/-! ## One response -/

section Meets

variable {env : Env} {db : Db weight} {claims : Claims} {raw : Bytes}

/-- The required fields of the body are valid, its optional fields are absent, `null` or valid, no
    call throws, and the token has the id of a user. -/
def Proper (env : Env) (claims : Claims) (raw : Bytes) : Prop :=
  env.Quiet ∧ (stoi claims.userId).isSome ∧
    ∃ body p, Json.parse raw = some body ∧ asked body = .ok p

/-- There is one response, and that to a proper request is a success, a `409` or a `404`. -/
structure Meets (proper : Prop) (replies : List Reply) : Prop where
  one : replies.length = 1
  accepted : proper → ∀ reply ∈ replies, reply.Accepts

theorem meets_handle {proper : Prop} (db : Db weight) (write : Patch → Reply × Db weight)
    (hproper : proper → Proper env claims raw)
    (hwrite : env.Quiet → (stoi claims.userId).isSome → ∀ p,
      validateProblemPatch p.row = .ok () → (write p).1.Accepts) :
    Meets proper (handle (checkPatch raw env.parseWhat) db write).1 ↔ Single raw := by
  rw [← count_checkPatch_eq_one_iff raw env.parseWhat]
  refine ⟨fun h => (length_handle _ db write).symm.trans h.one, fun hone => ⟨?_, fun h => ?_⟩⟩
  · exact (length_handle _ db write).trans hone
  · obtain ⟨hq, hid, body, p, hparse, hasked⟩ := hproper h
    obtain ⟨hcheck, hpatch⟩ := checkPatch_of_asked env.parseWhat hparse hasked
      ((count_checkPatch_eq_one_iff raw env.parseWhat).1 hone)
    rw [hcheck]
    intro reply hreply
    obtain rfl := List.mem_singleton.1 hreply
    exact hwrite hq hid p hpatch

/-- A body is answered as it should be by the handler of new problems. -/
theorem create_meets (env : Env) (db : Db weight) (claims : Claims) (raw : Bytes) :
    Meets (Proper env claims raw) (adminCreateProblemHandler env db claims raw).1 ↔ Single raw :=
  meets_handle db _ (fun h => h) fun hq hid _ hpatch => accepts_createProblem hq hid hpatch db

/-- A request with the slug of a problem in its path is answered as it should be by the handler of
    updates. -/
theorem update_meets (env : Env) (db : Db weight) (claims : Claims) (path raw : Bytes) :
    Meets ((extractSlugFromAdminPath path).isSome ∧ Proper env claims raw)
      (adminUpdateProblemHandler env db claims path raw).1 ↔
    ((extractSlugFromAdminPath path).isSome → Single raw) := by
  rw [adminUpdateProblemHandler]
  cases hslug : extractSlugFromAdminPath path with
  | none => exact iff_of_true ⟨rfl, fun h => nomatch h.1⟩ nofun
  | some oldSlug =>
    rw [Option.isSome_some, imp_iff_right rfl]
    exact meets_handle db _ (fun h => h.2) fun hq hid _ hpatch =>
      accepts_updateProblem hq hid hpatch db (validateSlug_of_extract hslug)

end Meets

end LiteCode.AdminProblem
