import LiteCode.Db.Lifecycle
import LiteCode.Lib.Stoi
import LiteCode.Routes.ErrorHandler
import Mathlib.Data.List.Sort

/-!
# Who sees a submission

The three handlers of `src/routes/submission_routes.h` that answer with submissions:
`get_submission_handler`, `list_submissions_handler` and `sse_submission_handler`, with the reads
`count` and `list` of `src/db/submission_repo.h`. What a request meets (the database at its
statements, their outcomes, and what is published while it waits) is given as `Views`.

A caller who is no admin gets answers that do not depend on the submissions of others: for two
databases with the same submissions of the caller, and with the same ids, the answers are the same
up to the texts of database errors, and what they show are submissions of the caller
(`respond_confidential`).
-/

namespace LiteCode.SubmissionAccess

open SubmissionRepo ErrorHandler

/-! ## The reads of the repository -/

/-- `SubmissionListFilter`. -/
structure Filter where
  userId : Option Int
  problemId : Option Int
  status : Option Bytes
  includeUnfinished : Bool
  limit : Int
  offset : Int
  deriving DecidableEq, Repr

/-- `clamp_list_filter`. -/
def clampListFilter (f : Filter) : Filter :=
  { f with
    limit := if f.limit ≤ 0 then 20 else if 100 < f.limit then 100 else f.limit
    offset := if f.offset < 0 then 0 else f.offset }

/-- The `WHERE` clause of a filter. -/
def Filter.selects (f : Filter) (r : SubmissionRow) : Bool :=
  f.userId.all (· == r.userId) && f.problemId.all (· == r.problemId) &&
    f.status.all (· == r.status.name) && (f.includeUnfinished || r.status.terminal)

/-- `ORDER BY created_at DESC, id DESC`. -/
def Newer (a b : SubmissionRow) : Prop :=
  b.createdAt < a.createdAt ∨ a.createdAt = b.createdAt ∧ b.id ≤ a.id

instance : DecidableRel Newer := fun _ _ => inferInstanceAs (Decidable (_ ∨ _))

/-- `count`. -/
def count (t : Table) (db : Sql) (f : Filter) : Except Bytes Nat :=
  match db with
  | .error e => .error (bytes "submission_repo::count: " ++ e)
  | .ok () => .ok (t.rows.countP (clampListFilter f).selects)

/-- The page of a filter. -/
def page (t : Table) (f : Filter) : List SubmissionRow :=
  (((t.rows.filter f.selects).insertionSort Newer).drop f.offset.toNat).take f.limit.toNat

/-- `find_by_id`. -/
def findById (t : Table) (db : Sql) (id : Nat) : Except Bytes (Option SubmissionRow) :=
  match db with
  | .error e => .error (bytes "submission_repo::find_by_id: " ++ e)
  | .ok () => .ok (t.row id)

/-! ## The requests -/

/-- `Claims`: what the handlers read of an access token. -/
structure Claims where
  userId : Bytes
  role : Bytes
  deriving DecidableEq, Repr

/-- A request with a token that was verified. -/
structure Request where
  claims : Claims
  path : Bytes
  params : List (Bytes × Bytes)
  deriving DecidableEq, Repr

/-- What a request meets: the database at its first statement, the calls of others until its second
    one, how the statements go, and, if there is a notifier, what is published from its
    registration to its deadline. -/
structure Views where
  database : Database
  calls : List Call
  firstDb : Sql
  secondDb : Sql
  notifier : Option (List SubmissionRow)

/-- The table at the first statement. -/
def Views.first (v : Views) : Table := v.database.table

/-- The table at the second statement. -/
def Views.second (v : Views) : Table := (v.calls.foldl Database.call v.database).table

/-- `serialize_submission_row`: the members of the object, an absent value being `null`. -/
structure RowView where
  id : Nat
  userId : Int
  problemId : Int
  language : Bytes
  status : Bytes
  timeUsed : Option Int
  memoryUsed : Option Int
  errorMessage : Option Bytes
  createdAt : Nat
  finishedAt : Option Nat
  /-- The member `code`, if it is included. -/
  code : Option Bytes
  deriving DecidableEq, Repr

/-- `serialize_submission_row`. -/
def serializeSubmissionRow (s : SubmissionRow) (includeCode : Bool) : RowView :=
  ⟨s.id, s.userId, s.problemId, s.language, s.status.name, s.timeUsed, s.memoryUsed,
    s.errorMessage, s.createdAt, s.finishedAt, if includeCode then some s.code else none⟩

/-- A response: a JSON object, or a stream with one event. -/
inductive Answer
  | error (e : Envelope)
  | submission (row : RowView)
  | page (items : List RowView) (total : Nat) (limit offset : Int)
  /-- The event `error`, with its envelope. -/
  | streamError (e : Envelope)
  /-- The event `result`. -/
  | result (row : RowView)
  /-- The event `pending`. -/
  | pending (submissionId : Nat)
  deriving DecidableEq, Repr

/-- `claims_user_id_int`. -/
def claimsUserIdInt (c : Claims) : Int := (stoi c.userId).getD 0

/-- `extract_id_from_path` and `extract_sse_id_from_path`, for what stands before the id. -/
def extractId (start path : Bytes) : Option Nat :=
  let tail := path.drop start.length
  if path.length ≤ start.length then none
  else if path.take start.length ≠ start then none
  else if tail.contains 0x2F then none
  else match stoiRest tail with
    | some (n, []) => if n ≤ 0 then none else some n.toNat
    | _ => none

/-- `get_param_value`, if there is such a parameter. -/
def Request.param (req : Request) (name : Bytes) : Option Bytes :=
  (req.params.find? fun p => p.1 == name).map Prod.snd

/-- A parameter that is a number, from `least` on. -/
def parseIntParam (req : Request) (name : Bytes) (least : Int) (message : Bytes) :
    Except Envelope (Option Int) :=
  match req.param name with
  | none => .ok none
  | some raw =>
    let refused : Envelope := invalidInput message [field name, .text (bytes "value") raw]
    match stoiRest raw with
    | some (n, []) => if n < least then .error refused else .ok (some n)
    | _ => .error refused

def parseProblemId (req : Request) : Except Envelope (Option Int) :=
  parseIntParam req (bytes "problem_id") 1 (bytes "problem_id must be a positive integer")

def parseLimit (req : Request) : Except Envelope (Option Int) :=
  parseIntParam req (bytes "limit") 1 (bytes "limit must be a positive integer")

def parseOffset (req : Request) : Except Envelope (Option Int) :=
  parseIntParam req (bytes "offset") 0 (bytes "offset must be a non-negative integer")

def parseUserId (req : Request) : Except Envelope (Option Int) :=
  parseIntParam req (bytes "user_id") 1 (bytes "user_id must be a positive integer")

/-- The parameter `status`, with `parse_status_param`. -/
def parseStatus (req : Request) : Except Envelope (Option Bytes) :=
  match req.param (bytes "status") with
  | none => .ok none
  | some raw =>
    if !raw.isEmpty && isValidStatus raw then .ok (some raw)
    else .error (invalidInput
      (bytes "status must be one of: pending, running, ac, wa, re, tle, mle, ole, pe, ce, se")
      [field (bytes "status"), .text (bytes "value") raw])

/-- The user whose submissions are listed: an admin may ask for another one. -/
def listedUser (req : Request) : Except Envelope Int :=
  if req.claims.role = bytes "admin" then
    (parseUserId req).map fun other => other.getD (claimsUserIdInt req.claims)
  else .ok (claimsUserIdInt req.claims)

/-- The filter that a request asks for. -/
def parseFilter (req : Request) : Except Envelope Filter := do
  let problemId ← parseProblemId req
  let status ← parseStatus req
  let limit ← parseLimit req
  let offset ← parseOffset req
  let userId ← listedUser req
  pure ⟨some userId, problemId, status, true, limit.getD 20, offset.getD 0⟩

/-! ## The handlers -/

/-- A caller who is no admin asks for the submission of somebody else. -/
def forbidden (req : Request) (row : SubmissionRow) : Bool :=
  req.claims.role != bytes "admin" && row.userId != claimsUserIdInt req.claims

/-- The text of an exception in an answer. -/
def internal (what : Bytes) : Envelope := internalError (bytes "internal error: " ++ what)

/-- `get_submission_handler`. -/
def getSubmissionHandler (v : Views) (req : Request) : Answer :=
  match extractId (bytes "/api/v1/submissions/") req.path with
  | none => .error (invalidInput (bytes "submission id must be a positive integer")
      [.text (bytes "path") req.path])
  | some id =>
    match findById v.first v.firstDb id with
    | .error e => .error (internal e)
    | .ok none => .error ⟨404, .notFound, bytes "submission not found",
        [.text (bytes "id") (decimal id)]⟩
    | .ok (some row) =>
      if forbidden req row then
        .error ⟨403, .forbidden, bytes "you can only view your own submissions",
          [.text (bytes "id") (decimal id)]⟩
      else .submission (serializeSubmissionRow row true)

/-- `list_submissions_handler`, with `list`: the count is a statement of its own. -/
def listSubmissionsHandler (v : Views) (req : Request) : Answer :=
  match parseFilter req with
  | .error e => .error e
  | .ok filter =>
    let f := clampListFilter filter
    match count v.first v.firstDb f with
    | .error e => .error (internal e)
    | .ok total =>
      match v.secondDb with
      | .error e => .error (internal (bytes "submission_repo::list: " ++ e))
      | .ok () =>
        .page ((page v.second f).map fun r => serializeSubmissionRow r false) total f.limit f.offset

/-- `wait_for`: a callback is registered for one submission, and is called once. -/
def waitFor (published : List SubmissionRow) (id : Nat) (existing : SubmissionRow) :
    Option SubmissionRow :=
  if existing.status.terminal then some existing else published.find? fun row => row.id == id

/-- The last step of `sse_submission_handler` before it answers, with a notifier: `row` is the row
    of the first read. -/
def awaitResult (v : Views) (published : List SubmissionRow) (id : Nat) (row : SubmissionRow) :
    Answer :=
  match findById v.second v.secondDb id with
  -- the exception is logged only
  | .error _ => .result (serializeSubmissionRow row false)
  | .ok pre =>
    match waitFor published id (pre.getD row) with
    | some final => .result (serializeSubmissionRow final false)
    | none => .pending id

/-- `sse_submission_handler`. -/
def sseSubmissionHandler (v : Views) (req : Request) : Answer :=
  match extractId (bytes "/api/v1/submissions/sse/") req.path with
  | none => .streamError (invalidInput (bytes "submission id must be a positive integer") [])
  | some id =>
    match findById v.first v.firstDb id with
    | .error e => .streamError (internal e)
    | .ok none => .streamError ⟨404, .notFound, bytes "submission not found", []⟩
    | .ok (some row) =>
      if forbidden req row then
        .streamError ⟨403, .forbidden, bytes "you can only view your own submissions", []⟩
      else match v.notifier with
        | none => .result (serializeSubmissionRow row false)
        | some published =>
          if row.status.terminal then .result (serializeSubmissionRow row false)
          else awaitResult v published id row

/-- The endpoints. -/
inductive Endpoint
  | get
  | list
  | sse
  deriving DecidableEq, Repr

/-- The answer of an endpoint. -/
def respond : Endpoint → Views → Request → Answer
  | .get => getSubmissionHandler
  | .list => listSubmissionsHandler
  | .sse => sseSubmissionHandler

/-! ## The submissions of a caller -/

/-- Two tables have the same submissions of a user, and the same ids. -/
structure SameFor (me : Int) (t₁ t₂ : Table) : Prop where
  own : ∀ r, r.userId = me → (r ∈ t₁.rows ↔ r ∈ t₂.rows)
  ids : ∀ id, (t₁.row id).isSome = (t₂.row id).isSome

/-- The id is that of a submission of the user. -/
def Owns (me : Int) (t : Table) (id : Nat) : Prop := ∃ r ∈ t.rows, r.id = id ∧ r.userId = me

/-- Two requests meet the same, as far as it concerns a user: the tables at both statements, the
    statements that fail, and what is published about the submissions of the user. -/
structure Agrees (me : Int) (v₁ v₂ : Views) : Prop where
  first : SameFor me v₁.first v₂.first
  second : SameFor me v₁.second v₂.second
  firstDb : v₁.firstDb.isOk = v₂.firstDb.isOk
  secondDb : v₁.secondDb.isOk = v₂.secondDb.isOk
  notifier : v₁.notifier.isSome = v₂.notifier.isSome
  published : ∀ id, Owns me v₁.first id → ∀ l₁ ∈ v₁.notifier, ∀ l₂ ∈ v₂.notifier,
    (l₁.filter fun row => row.id == id) = l₂.filter fun row => row.id == id

/-- The response without the texts of database errors. -/
def Answer.masked : Answer → Answer
  | .error e => .error (if e.status = 500 then { e with message := [] } else e)
  | .streamError e => .streamError (if e.status = 500 then { e with message := [] } else e)
  | answer => answer

/-- The submissions that a response shows. -/
def Answer.rows : Answer → List RowView
  | .submission row => [row]
  | .page items _ _ _ => items
  | .result row => [row]
  | _ => []

/-- The submission is one of the user: a row at one of the statements, or a row that was published
    for a submission of the user. -/
def Disclosed (me : Int) (v : Views) (r : SubmissionRow) : Prop :=
  ((r ∈ v.first.rows ∨ r ∈ v.second.rows) ∧ r.userId = me) ∨
    ∃ published ∈ v.notifier, r ∈ published ∧ Owns me v.first r.id

variable {me : Int} {t₁ t₂ : Table} {v v₁ v₂ : Views} {id : Nat} {r : SubmissionRow} {req : Request}

/-- The relation is symmetric. -/
theorem SameFor.symm (h : SameFor me t₁ t₂) : SameFor me t₂ t₁ :=
  ⟨fun r hr => (h.own r hr).symm, fun id => (h.ids id).symm⟩

/-- An own row is in both tables. -/
theorem SameFor.row_own (h : SameFor me t₁ t₂) (hr : t₁.row id = some r) (hme : r.userId = me) :
    t₂.row id = some r := by
  rw [← Table.id_of_row hr]
  exact Table.row_of_mem ((h.own r hme).1 (Table.mem_of_row hr))

/-- What two tables have under an id: nothing, the same submission of the user, or submissions of
    others. -/
theorem SameFor.row_cases (h : SameFor me t₁ t₂) (id : Nat) :
    (t₁.row id = none ∧ t₂.row id = none) ∨
    (∃ r, r.userId = me ∧ t₁.row id = some r ∧ t₂.row id = some r) ∨
    ∃ r₁ r₂, r₁.userId ≠ me ∧ r₂.userId ≠ me ∧ t₁.row id = some r₁ ∧ t₂.row id = some r₂ := by
  have hids := h.ids id
  cases h₁ : t₁.row id with
  | none =>
    cases h₂ : t₂.row id with
    | none => exact .inl ⟨rfl, rfl⟩
    | some r₂ => simp [h₁, h₂] at hids
  | some r₁ =>
    by_cases hme : r₁.userId = me
    · exact .inr (.inl ⟨r₁, hme, rfl, h.row_own h₁ hme⟩)
    · cases h₂ : t₂.row id with
      | none => simp [h₁, h₂] at hids
      | some r₂ =>
        refine .inr (.inr ⟨r₁, r₂, hme, fun hme₂ => hme ?_, rfl, rfl⟩)
        rw [h.symm.row_own h₂ hme₂] at h₁
        cases h₁
        exact hme₂

/-! ## A submission keeps its owner -/

/-- No call changes the owner of a row. -/
theorem owner_change {e : Call × SubmissionRepo.Answer} {r' : SubmissionRow}
    (h : Change id e r r') : r'.userId = r.userId := by
  cases h <;> rfl

/-- No sequence of calls does. -/
theorem owner_calls {s : Database} {calls : List Call} (h : s.row id = some r) :
    ∃ r', (calls.foldl Database.call s).row id = some r' ∧ r'.userId = r.userId := by
  induction calls generalizing s r with
  | nil => exact ⟨r, h, rfl⟩
  | cons c calls ih =>
    obtain ⟨r', hr', hchange⟩ := row_call s c h
    obtain ⟨r'', hr'', howner⟩ := ih hr'
    exact ⟨r'', hr'', howner.trans (owner_change hchange)⟩

/-- The row is still there at the second statement, with the same owner. -/
theorem Views.second_row (h : v.first.row id = some r) :
    ∃ r', v.second.row id = some r' ∧ r'.userId = r.userId :=
  owner_calls h

/-! ## The page of a user -/

instance : Std.Total Newer where
  total a b := by
    simp only [Newer]
    omega

instance : IsTrans SubmissionRow Newer where
  trans a b c := by
    simp only [Newer]
    omega

/-- The rows of a page are ordered by their ids at last. -/
theorem newer_antisymm {t : Table} {a b : SubmissionRow} (ha : a ∈ t.rows) (hb : b ∈ t.rows)
    (hab : Newer a b) (hba : Newer b a) : a = b := by
  have hid : a.id = b.id := by
    simp only [Newer] at hab hba
    omega
  exact List.inj_on_of_nodup_map t.nodup ha hb hid

/-- A filter for the user selects the same rows. -/
theorem SameFor.perm (h : SameFor me t₁ t₂) {f : Filter} (hf : f.userId = some me) :
    (t₁.rows.filter f.selects).Perm (t₂.rows.filter f.selects) := by
  refine (List.perm_ext_iff_of_nodup (t₁.nodup.of_map.filter _) (t₂.nodup.of_map.filter _)).2 ?_
  intro r
  rw [List.mem_filter, List.mem_filter]
  refine and_congr_left fun hsel => h.own r ?_
  simp only [Filter.selects, hf, Option.all_some, Bool.and_eq_true, beq_iff_eq] at hsel
  exact hsel.1.1.1.symm

/-- The count of the own rows is the same. -/
theorem SameFor.count (h : SameFor me t₁ t₂) {f : Filter} (hf : f.userId = some me) :
    t₁.rows.countP f.selects = t₂.rows.countP f.selects := by
  rw [List.countP_eq_length_filter, List.countP_eq_length_filter]
  exact (h.perm hf).length_eq

/-- So is a page of them. -/
theorem SameFor.page (h : SameFor me t₁ t₂) {f : Filter} (hf : f.userId = some me) :
    page t₁ f = page t₂ f := by
  have hsorted : (t₁.rows.filter f.selects).insertionSort Newer =
      (t₂.rows.filter f.selects).insertionSort Newer := by
    have hperm := ((List.perm_insertionSort Newer _).trans (h.perm hf)).trans
      (List.perm_insertionSort Newer _).symm
    refine hperm.eq_of_pairwise (fun a b ha hb => ?_) (List.pairwise_insertionSort Newer _)
      (List.pairwise_insertionSort Newer _)
    have ha' := (List.mem_filter.1 ((List.perm_insertionSort Newer _).mem_iff.1 ha)).1
    have hb' := (List.mem_filter.1 ((h.perm hf).mem_iff.2
      ((List.perm_insertionSort Newer _).mem_iff.1 hb))).1
    exact newer_antisymm ha' hb'
  rw [SubmissionAccess.page, SubmissionAccess.page, hsorted]

/-- A page of the own rows has no other ones. -/
theorem mem_page {t : Table} {f : Filter} (h : r ∈ page t f) (hf : f.userId = some me) :
    r ∈ t.rows ∧ r.userId = me := by
  have hmem := List.mem_of_mem_drop (List.mem_of_mem_take h)
  obtain ⟨hr, hsel⟩ := List.mem_filter.1 ((List.perm_insertionSort Newer _).mem_iff.1 hmem)
  simp only [Filter.selects, hf, Option.all_some, Bool.and_eq_true, beq_iff_eq] at hsel
  exact ⟨hr, hsel.1.1.1.symm⟩

/-- A caller who is no admin lists the own submissions only. -/
theorem parseFilter_userId {f : Filter} (hrole : req.claims.role ≠ bytes "admin")
    (h : parseFilter req = .ok f) : f.userId = some (claimsUserIdInt req.claims) := by
  rw [parseFilter] at h
  obtain ⟨problemId, _, h⟩ := bind_eq_ok.1 h
  obtain ⟨status, _, h⟩ := bind_eq_ok.1 h
  obtain ⟨limit, _, h⟩ := bind_eq_ok.1 h
  obtain ⟨offset, _, h⟩ := bind_eq_ok.1 h
  obtain ⟨userId, huser, h⟩ := bind_eq_ok.1 h
  cases h
  rw [listedUser, if_neg hrole] at huser
  cases huser
  rfl

/-! ## The answers do not depend on the submissions of others -/

/-- An own row is not forbidden. -/
theorem forbidden_own (hme : r.userId = claimsUserIdInt req.claims) : forbidden req r = false := by
  simp [forbidden, hme]

/-- A row of somebody else is, to all but an admin. -/
theorem forbidden_other (hrole : req.claims.role ≠ bytes "admin")
    (hme : r.userId ≠ claimsUserIdInt req.claims) : forbidden req r = true := by
  simp [forbidden, hrole, hme]

/-- Two statements fail both, or none of them does. -/
theorem isOk_cases {db₁ db₂ : Sql} (h : db₁.isOk = db₂.isOk) :
    (∃ e₁ e₂, db₁ = .error e₁ ∧ db₂ = .error e₂) ∨ db₁ = .ok () ∧ db₂ = .ok () := by
  cases db₁ with
  | error e₁ =>
    cases db₂ with
    | error e₂ => exact .inl ⟨e₁, e₂, rfl, rfl⟩
    | ok _ => cases h
  | ok _ =>
    cases db₂ with
    | error e₂ => cases h
    | ok _ => exact .inr ⟨rfl, rfl⟩

/-- What the first statement of two requests reads. -/
inductive Reads (me : Int) (id : Nat) (v₁ v₂ : Views) : Prop
  | failed (e₁ e₂ : Bytes) (h₁ : findById v₁.first v₁.firstDb id = .error e₁)
      (h₂ : findById v₂.first v₂.firstDb id = .error e₂)
  | missing (h₁ : findById v₁.first v₁.firstDb id = .ok none)
      (h₂ : findById v₂.first v₂.firstDb id = .ok none)
  /-- The same submission of the user. -/
  | own (r : SubmissionRow) (hme : r.userId = me) (hr : v₁.first.row id = some r)
      (h₁ : findById v₁.first v₁.firstDb id = .ok (some r))
      (h₂ : findById v₂.first v₂.firstDb id = .ok (some r))
  /-- Submissions of others. -/
  | others (r₁ r₂ : SubmissionRow) (hne₁ : r₁.userId ≠ me) (hne₂ : r₂.userId ≠ me)
      (h₁ : findById v₁.first v₁.firstDb id = .ok (some r₁))
      (h₂ : findById v₂.first v₂.firstDb id = .ok (some r₂))

/-- Views that agree are read alike. -/
theorem Agrees.reads (h : Agrees me v₁ v₂) (id : Nat) : Reads me id v₁ v₂ := by
  rcases isOk_cases h.firstDb with ⟨e₁, e₂, h₁, h₂⟩ | ⟨h₁, h₂⟩
  · exact .failed _ _ (by rw [h₁, findById]) (by rw [h₂, findById])
  · rcases h.first.row_cases id with
      ⟨hr₁, hr₂⟩ | ⟨r, hme, hr₁, hr₂⟩ | ⟨r₁, r₂, hne₁, hne₂, hr₁, hr₂⟩
    · exact .missing (by rw [h₁, findById, hr₁]) (by rw [h₂, findById, hr₂])
    · exact .own r hme hr₁ (by rw [h₁, findById, hr₁]) (by rw [h₂, findById, hr₂])
    · exact .others r₁ r₂ hne₁ hne₂ (by rw [h₁, findById, hr₁]) (by rw [h₂, findById, hr₂])

/-- `get_submission_handler` answers alike. -/
theorem getSubmissionHandler_congr (hrole : req.claims.role ≠ bytes "admin")
    (h : Agrees (claimsUserIdInt req.claims) v₁ v₂) :
    (getSubmissionHandler v₁ req).masked = (getSubmissionHandler v₂ req).masked := by
  unfold getSubmissionHandler
  cases extractId (bytes "/api/v1/submissions/") req.path with
  | none => rfl
  | some id =>
    dsimp only
    cases h.reads id with
    | failed e₁ e₂ h₁ h₂ =>
      rw [h₁, h₂]
      rfl
    | missing h₁ h₂ => rw [h₁, h₂]
    | own r hme hr h₁ h₂ => rw [h₁, h₂]
    | others r₁ r₂ hne₁ hne₂ h₁ h₂ =>
      rw [h₁, h₂]
      simp [forbidden_other hrole hne₁, forbidden_other hrole hne₂]

/-- So does `list_submissions_handler`. -/
theorem listSubmissionsHandler_congr (hrole : req.claims.role ≠ bytes "admin")
    (h : Agrees (claimsUserIdInt req.claims) v₁ v₂) :
    (listSubmissionsHandler v₁ req).masked = (listSubmissionsHandler v₂ req).masked := by
  unfold listSubmissionsHandler
  cases hfilter : parseFilter req with
  | error e => rfl
  | ok filter =>
    have hf := parseFilter_userId hrole hfilter
    have hclamp : ∀ f : Filter, (clampListFilter f).userId = f.userId := fun _ => rfl
    rcases isOk_cases h.firstDb with ⟨e₁, e₂, h₁, h₂⟩ | ⟨h₁, h₂⟩
    · rw [h₁, h₂]
      rfl
    · rw [h₁, h₂]
      simp only [count]
      rw [h.first.count (by rw [hclamp, hclamp, hf])]
      rcases isOk_cases h.secondDb with ⟨e₁, e₂, h₁, h₂⟩ | ⟨h₁, h₂⟩
      · rw [h₁, h₂]
        rfl
      · rw [h₁, h₂]
        simp only
        rw [h.second.page (by rw [hclamp, hf])]

/-- The wait for a submission of the caller. -/
theorem awaitResult_congr (h : Agrees me v₁ v₂) {l₁ l₂ : List SubmissionRow}
    (hl₁ : v₁.notifier = some l₁) (hl₂ : v₂.notifier = some l₂) (hr : v₁.first.row id = some r)
    (hme : r.userId = me) : awaitResult v₁ l₁ id r = awaitResult v₂ l₂ id r := by
  unfold awaitResult
  rcases isOk_cases h.secondDb with ⟨e₁, e₂, h₁, h₂⟩ | ⟨h₁, h₂⟩
  · rw [h₁, h₂]
    rfl
  · obtain ⟨r', hr', howner⟩ := v₁.second_row hr
    have hr'' := h.second.row_own hr' (howner.trans hme)
    have howns : Owns me v₁.first id := ⟨r, Table.mem_of_row hr, Table.id_of_row hr, hme⟩
    have hpub : (l₁.find? fun row => row.id == id) = l₂.find? fun row => row.id == id := by
      rw [← List.head?_filter, ← List.head?_filter, h.published id howns l₁ hl₁ l₂ hl₂]
    simp only [h₁, h₂, findById, hr', hr'', Option.getD_some, waitFor, hpub]

/-- So does `sse_submission_handler`. -/
theorem sseSubmissionHandler_congr (hrole : req.claims.role ≠ bytes "admin")
    (h : Agrees (claimsUserIdInt req.claims) v₁ v₂) :
    (sseSubmissionHandler v₁ req).masked = (sseSubmissionHandler v₂ req).masked := by
  unfold sseSubmissionHandler
  cases extractId (bytes "/api/v1/submissions/sse/") req.path with
  | none => rfl
  | some id =>
    dsimp only
    cases h.reads id with
    | failed e₁ e₂ h₁ h₂ =>
      rw [h₁, h₂]
      rfl
    | missing h₁ h₂ => rw [h₁, h₂]
    | own r hme hr h₁ h₂ =>
      rw [h₁, h₂]
      simp only [forbidden_own hme, Bool.false_eq_true, if_false]
      have hsome := h.notifier
      cases hl₁ : v₁.notifier with
      | none =>
        cases hl₂ : v₂.notifier with
        | none => rfl
        | some l₂ => simp [hl₁, hl₂] at hsome
      | some l₁ =>
        cases hl₂ : v₂.notifier with
        | none => simp [hl₁, hl₂] at hsome
        | some l₂ =>
          simp only
          split_ifs
          · rfl
          · rw [awaitResult_congr h hl₁ hl₂ hr hme]
    | others r₁ r₂ hne₁ hne₂ h₁ h₂ =>
      rw [h₁, h₂]
      simp [forbidden_other hrole hne₁, forbidden_other hrole hne₂]

/-! ## What the answers show -/

theorem Agrees.refl (me : Int) (v : Views) : Agrees me v v where
  first := ⟨fun _ _ => Iff.rfl, fun _ => rfl⟩
  second := ⟨fun _ _ => Iff.rfl, fun _ => rfl⟩
  firstDb := rfl
  secondDb := rfl
  notifier := rfl
  published _ _ l₁ h₁ l₂ h₂ := by rw [Option.mem_unique h₁ h₂]

/-- The rows of `get_submission_handler` are own ones. -/
theorem getSubmissionHandler_own (hrole : req.claims.role ≠ bytes "admin") :
    ∀ row ∈ (getSubmissionHandler v req).rows, ∃ r, Disclosed (claimsUserIdInt req.claims) v r ∧
      row = serializeSubmissionRow r true := by
  unfold getSubmissionHandler
  cases extractId (bytes "/api/v1/submissions/") req.path with
  | none => simp [Answer.rows]
  | some id =>
    cases (Agrees.refl (claimsUserIdInt req.claims) v).reads id with
    | failed e _ h _ => simp [h, Answer.rows]
    | missing h _ => simp [h, Answer.rows]
    | own r hme hr h _ =>
      simp only [h, forbidden_own hme, Bool.false_eq_true, if_false, Answer.rows,
        List.mem_singleton]
      rintro row rfl
      exact ⟨r, .inl ⟨.inl (Table.mem_of_row hr), hme⟩, rfl⟩
    | others r _ hne _ h _ => simp [h, forbidden_other hrole hne, Answer.rows]

/-- So are those of `list_submissions_handler`. -/
theorem listSubmissionsHandler_own (hrole : req.claims.role ≠ bytes "admin") :
    ∀ row ∈ (listSubmissionsHandler v req).rows, ∃ r, Disclosed (claimsUserIdInt req.claims) v r ∧
      row = serializeSubmissionRow r false := by
  unfold listSubmissionsHandler
  cases hfilter : parseFilter req with
  | error e => simp [Answer.rows]
  | ok filter =>
    cases v.firstDb with
    | error e => simp [count, Answer.rows]
    | ok _ =>
      cases v.secondDb with
      | error e => simp [count, Answer.rows]
      | ok _ =>
        simp only [count, Answer.rows, List.mem_map]
        rintro row ⟨r, hr, rfl⟩
        have hf := parseFilter_userId hrole hfilter
        have hclamp : (clampListFilter filter).userId = filter.userId := rfl
        obtain ⟨hmem, hme⟩ := mem_page hr (hclamp.trans hf)
        exact ⟨r, .inl ⟨.inr hmem, hme⟩, rfl⟩

/-- A stream for an own row sends own rows. -/
theorem awaitResult_own {published : List SubmissionRow} (hn : v.notifier = some published)
    (hr : v.first.row id = some r) (hme : r.userId = me) :
    ∀ row ∈ (awaitResult v published id r).rows, ∃ q, Disclosed me v q ∧
      row = serializeSubmissionRow q false := by
  unfold awaitResult
  cases v.secondDb with
  | error e =>
    simp only [findById, Answer.rows, List.mem_singleton]
    rintro row rfl
    exact ⟨r, .inl ⟨.inl (Table.mem_of_row hr), hme⟩, rfl⟩
  | ok _ =>
    obtain ⟨r', hr', howner⟩ := v.second_row hr
    simp only [findById, hr', Option.getD_some]
    cases hwait : waitFor published id r' with
    | none => simp [Answer.rows]
    | some q =>
      simp only [Answer.rows, List.mem_singleton]
      rintro row rfl
      refine ⟨q, ?_, rfl⟩
      rw [waitFor] at hwait
      split_ifs at hwait
      · cases hwait
        exact .inl ⟨.inr (Table.mem_of_row hr'), howner.trans hme⟩
      · have hid : q.id = id := by simpa using List.find?_some hwait
        exact .inr ⟨published, hn, List.mem_of_find?_eq_some hwait, r, Table.mem_of_row hr,
          (Table.id_of_row hr).trans hid.symm, hme⟩

/-- The rows of `sse_submission_handler` are own ones. -/
theorem sseSubmissionHandler_own (hrole : req.claims.role ≠ bytes "admin") :
    ∀ row ∈ (sseSubmissionHandler v req).rows, ∃ r, Disclosed (claimsUserIdInt req.claims) v r ∧
      row = serializeSubmissionRow r false := by
  unfold sseSubmissionHandler
  cases extractId (bytes "/api/v1/submissions/sse/") req.path with
  | none => simp [Answer.rows]
  | some id =>
    cases (Agrees.refl (claimsUserIdInt req.claims) v).reads id with
    | failed e _ h _ => simp [h, Answer.rows]
    | missing h _ => simp [h, Answer.rows]
    | own r hme hr h _ =>
      have hown : ∃ q, Disclosed (claimsUserIdInt req.claims) v q ∧
          serializeSubmissionRow r false = serializeSubmissionRow q false :=
        ⟨r, .inl ⟨.inl (Table.mem_of_row hr), hme⟩, rfl⟩
      simp only [h, forbidden_own hme, Bool.false_eq_true, if_false]
      cases hn : v.notifier with
      | none =>
        simp only [Answer.rows, List.mem_singleton]
        rintro row rfl
        exact hown
      | some published =>
        simp only
        split_ifs
        · simp only [Answer.rows, List.mem_singleton]
          rintro row rfl
          exact hown
        · exact awaitResult_own hn hr hme
    | others r _ hne _ h _ => simp [h, forbidden_other hrole hne, Answer.rows]

/-- For a caller who is no admin, every endpoint gives the same answer to every request on two
    databases that agree on the submissions of the caller and on the ids, up to the texts of
    database errors; and what an answer shows are submissions of the caller. -/
theorem respond_confidential (e : Endpoint) (req : Request) (v₁ v₂ : Views)
    (hrole : req.claims.role ≠ bytes "admin") (h : Agrees (claimsUserIdInt req.claims) v₁ v₂) :
    (respond e v₁ req).masked = (respond e v₂ req).masked ∧
    ∀ row ∈ (respond e v₁ req).rows, ∃ r includeCode,
      Disclosed (claimsUserIdInt req.claims) v₁ r ∧
        row = serializeSubmissionRow r includeCode := by
  have hshown : ∀ {answer : Answer} (includeCode : Bool),
      (∀ row ∈ answer.rows, ∃ r, Disclosed (claimsUserIdInt req.claims) v₁ r ∧
        row = serializeSubmissionRow r includeCode) →
      ∀ row ∈ answer.rows, ∃ r includeCode, Disclosed (claimsUserIdInt req.claims) v₁ r ∧
        row = serializeSubmissionRow r includeCode := by
    intro answer includeCode hrows row hrow
    obtain ⟨r, hr, hview⟩ := hrows row hrow
    exact ⟨r, includeCode, hr, hview⟩
  cases e with
  | get => exact ⟨getSubmissionHandler_congr hrole h, hshown true (getSubmissionHandler_own hrole)⟩
  | list =>
    exact ⟨listSubmissionsHandler_congr hrole h, hshown false (listSubmissionsHandler_own hrole)⟩
  | sse =>
    exact ⟨sseSubmissionHandler_congr hrole h, hshown false (sseSubmissionHandler_own hrole)⟩

/-- A submission of a user that is judged, and one of another user. -/
def twoRows (status : Status) (code : String) : Table where
  rows := [⟨1, 7, 3, bytes "cpp", bytes "int main", .running, none, none, none, 100, none⟩,
    ⟨2, 8, 3, bytes "c", bytes code, status, none, none, none, 100, none⟩]
  nextId := 3
  nodup := by simp
  fresh := by simp

/-- The verdict of the first submission. -/
def verdict : SubmissionRow :=
  ⟨1, 7, 3, bytes "cpp", bytes "int main", .ac, some 15, some 1024, none, 100, some 105⟩

/-- A request that waits while both submissions are published. -/
def twoViews (status : Status) (code : String) : Views where
  database := ⟨twoRows status code, 100, []⟩
  calls := [.tick 5]
  firstDb := .ok ()
  secondDb := .ok ()
  notifier := some [⟨2, 8, 3, bytes "c", bytes code, status, none, none, none, 100, some 101⟩,
    verdict]

/-- The stream of the first user. -/
def ownStream : Request := ⟨⟨bytes "7", bytes "user"⟩, bytes "/api/v1/submissions/sse/1", []⟩

theorem sameFor_twoRows (status₁ status₂ : Status) (code₁ code₂ : String) :
    SameFor 7 (twoRows status₁ code₁) (twoRows status₂ code₂) where
  own := by
    intro r hr
    simp only [twoRows, List.mem_cons, List.not_mem_nil, or_false]
    constructor
    · rintro (h | rfl)
      · exact .inl h
      · cases hr
    · rintro (h | rfl)
      · exact .inl h
      · cases hr
  ids := by
    intro id
    rw [Bool.eq_iff_iff, Table.row, Table.row, List.find?_isSome, List.find?_isSome]
    simp [twoRows]

/-- The first user gets the verdict, whatever the second one has submitted. -/
theorem respond_confidential_twoViews :
    (respond .sse (twoViews .wa "int x") ownStream).masked =
      (respond .sse (twoViews .pending "char y") ownStream).masked ∧
    respond .sse (twoViews .wa "int x") ownStream =
      .result (serializeSubmissionRow verdict false) := by
  have hme : claimsUserIdInt ownStream.claims = 7 := by decide +kernel
  have hagrees : Agrees (claimsUserIdInt ownStream.claims) (twoViews .wa "int x")
      (twoViews .pending "char y") := by
    rw [hme]
    refine ⟨sameFor_twoRows _ _ _ _, sameFor_twoRows _ _ _ _, rfl, rfl, rfl, ?_⟩
    rintro id ⟨r, hr, rfl, hr7⟩ l₁ hl₁ l₂ hl₂
    cases hl₁
    cases hl₂
    -- the only submission of the user is the first one
    rcases List.mem_cons.1 hr with rfl | hr
    · decide +kernel
    · rcases List.mem_cons.1 hr with rfl | hr
      · cases hr7
      · cases hr
  exact ⟨(respond_confidential .sse ownStream _ _ (by decide) hagrees).1, by decide +kernel⟩

end LiteCode.SubmissionAccess
