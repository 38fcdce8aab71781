import LiteCode.Db.ProblemTables
import LiteCode.Routes.AdminAuditLog
import LiteCode.Routes.AdminProblem
import LiteCode.Routes.IdParams
import LiteCode.Routes.ProblemNavigation
import LiteCode.Utils.Validators

/-!
# What everyone may read of the problems

The handlers of `src/routes/problem_routes.h` and `list_tags_handler` of `src/routes/tag_routes.h`,
behind the rate limit. A handler reads the tables with up to four statements, each on a connection
of its own, so that anything may be written in between: a call is a `Pc`, that stands in front of
its next statement, or has its answer.

* `start`: what a handler does with the request, before it reads anything;
* `next`: a statement, and what the handler makes of it;
* `complete_navigation`: a call that nothing is written during is the handler of
  `LiteCode.ProblemNavigation`.
-/

namespace LiteCode.ProblemRoutes

open AdminAuditLogRoutes (Params refuse)
open ErrorHandler ProblemRepo
open IdParams (parseIntParam)
open ProblemNavigation (ProblemListFilter clampListFilter selected Link link neighbours slugOf
  handleProblemNavigation)
open TagRepo (TagRow)
open Validators (extractSlugFromPath)

variable {weight : Bytes → Bytes}

/-! ## The parameters -/

/-- `parse_difficulty_param`. -/
def parseDifficultyParam (raw : Bytes) : Option Bytes :=
  if raw = bytes "easy" ∨ raw = bytes "medium" ∨ raw = bytes "hard" then some raw else none

/-- `parse_bool_param`. -/
def parseBoolParam (raw : Bytes) : Option Bool :=
  let lower := TagRepo.lowercase raw
  if lower = bytes "true" ∨ lower = bytes "1" ∨ lower = bytes "yes" then some true
  else if lower = bytes "false" ∨ lower = bytes "0" ∨ lower = bytes "no" then some false
  else none

/-- A parameter that must pass a check if it is there. -/
def parseParam {α : Type} (q : Params) (name : String) (parse : Bytes → Option α)
    (message : String) : Except Envelope (Option α) :=
  match q.get name with
  | none => .ok none
  | some raw =>
    match parse raw with
    | none => .error (refuse name (bytes name ++ bytes message) raw)
    | some v => .ok (some v)

/-- `parse_list_query`. The parameter `include_deleted` is checked, and has no effect. -/
def parseListQuery (q : Params) : Except Envelope ProblemListFilter := do
  let difficulty ← parseParam q "difficulty" parseDifficultyParam
    " must be one of: easy, medium, hard"
  let tagId ← parseParam q "tag_id" (parseIntParam · 1 2147483647) " must be a positive integer"
  let limit ← parseParam q "limit" (parseIntParam · 1 2147483647) " must be a positive integer"
  let offset ← parseParam q "offset" (parseIntParam · 0 2147483647)
    " must be a non-negative integer"
  let _ ← parseParam q "include_deleted" parseBoolParam
    " must be one of: true, false, 1, 0, yes, no"
  return clampListFilter {
    includeDeleted := false
    difficulty := difficulty
    tagId := tagId.map Int.toNat
    limit := limit.getD 20
    offset := offset.getD 0 }

/-- The public list never asks for soft-deleted problems. -/
theorem includeDeleted_of_parseListQuery {q : Params} {f : ProblemListFilter}
    (h : parseListQuery q = .ok f) : f.includeDeleted = false := by
  simp only [parseListQuery, bind_eq_ok] at h
  obtain ⟨difficulty, -, tagId, -, limit, -, offset, -, deleted, -, hf⟩ := h
  cases hf
  rfl

/-! ## The answers -/

/-- `serialize_problem_row`. -/
structure Card where
  id : Nat
  slug : Bytes
  title : Bytes
  difficulty : Bytes
  timeLimit : Int
  memoryLimit : Int
  acceptedCount : Int
  submissionCount : Int
  createdAt : Int
  updatedAt : Int
  deriving DecidableEq, Repr

def card (p : Problem) : Card where
  id := p.id
  slug := p.slug
  title := p.title
  difficulty := p.difficulty
  timeLimit := p.timeLimit
  memoryLimit := p.memoryLimit
  acceptedCount := p.acceptedCount
  submissionCount := p.submissionCount
  createdAt := p.createdAt
  updatedAt := p.updatedAt

/-- `serialize_sample`. -/
structure Sample where
  input : Bytes
  output : Bytes
  judgeType : Bytes
  deriving DecidableEq, Repr

def sample (c : TestCase) : Sample := ⟨c.input, c.expectedOutput, c.judgeType⟩

/-- `serialize_problem_detail`: what a card has, and more. -/
structure Detail where
  card : Card
  description : Bytes
  template : Option Bytes
  tags : List TagRow
  samples : List Sample
  hasSpecialJudge : Bool
  deriving DecidableEq, Repr

/-- `TagWithCount`. -/
structure TagWithCount where
  tag : TagRow
  problemCount : Nat
  deriving DecidableEq, Repr

inductive Answer
  | error (e : Envelope)
  | list (items : List Card) (total : Nat) (limit offset : Int)
  | detail (d : Detail)
  | navigation (prev next : Option Link)
  | tags (items : List TagWithCount)
  deriving DecidableEq, Repr

/-! ## What is read -/

/-- `ORDER BY t.name ASC, t.id ASC`. -/
def tagLe (weight : Bytes → Bytes) (a b : TagRow) : Bool :=
  weight a.name < weight b.name || (weight a.name == weight b.name && a.id ≤ b.id)

/-- The rows of `list_tags_for_problem`. -/
def tagsForProblem (t : Tables weight) (problemId : Nat) : List TagRow :=
  (t.tags.rows.filter fun r => t.db.problemTags.contains (problemId, r.id)).mergeSort (tagLe weight)

/-- The samples of a problem, as they were inserted. -/
def samplesOf (t : Tables weight) (problemId : Nat) : List TestCase :=
  t.db.testCases.filter fun c => c.problemId == problemId && c.isSample

/-- The rows of `list_samples_for_problem`. -/
def samplesForProblem (t : Tables weight) (problemId : Nat) : List TestCase :=
  (samplesOf t problemId).mergeSort AdminProblem.sampleLe

/-- How many live problems have the tag. -/
def liveCount (t : Tables weight) (tagId : Nat) : Nat :=
  t.db.problemTags.countP fun x =>
    x.2 == tagId && t.db.problems.any fun r => r.id == x.1 && !r.isDeleted

/-- The rows of `list_with_count`. -/
def tagsWithCount (t : Tables weight) : List TagWithCount :=
  (t.tags.rows.mergeSort (tagLe weight)).map fun r => ⟨r, liveCount t r.id⟩

/-- The text of the exception of a statement that is not caught. -/
def what : Fault → Bytes
  | .acquire what => what
  | .execute what => what

/-! ## The handlers -/

/-- What a call does next. -/
inductive Pc
  /-- `list`: `count`, and the rows of the page. -/
  | count (f : ProblemListFilter)
  | page (f : ProblemListFilter) (total : Nat)
  /-- The detail of a problem: its row, its tags, its samples, its special judge. -/
  | find (slug : Bytes)
  | findTags (row : Problem)
  | findSamples (row : Problem) (tags : List TagRow)
  | findJudge (row : Problem) (tags : List TagRow) (samples : List Sample)
  /-- The problems next to a problem: its row, `count`, and the rows of the page. -/
  | findCurrent (slug : Bytes)
  | countAll (current : Problem)
  | pageAll (current : Problem)
  | tagList
  | answered (a : Answer)
  deriving DecidableEq, Repr

/-- What follows a statement, unless it fails. -/
def after {α : Type} (fault : Option Bytes) (a : α) (f : α → Pc) : Pc :=
  match fault with
  | some what => .answered (.error (internalError (bytes "internal error: " ++ what)))
  | none => f a

/-- A request. -/
inductive Request
  | list (q : Params)
  | detail (path : Bytes)
  | navigation (path : Bytes)
  | tags
  deriving DecidableEq, Repr

/-- The handlers `list_problems_handler`, `get_problem_detail_handler`, `handle_problem_navigation`
    and `list_tags_handler`, up to their first statement. -/
def start : Request → Pc
  | .list q =>
    match parseListQuery q with
    | .error e => .answered (.error e)
    | .ok f => .count f
  | .detail path =>
    match extractSlugFromPath path with
    | none => .answered (.error (invalidInput
        (bytes "slug must be 1-100 chars of [a-z0-9-], not starting or ending with '-'")
        [field (bytes "slug"), .text (bytes "value") path]))
    | some slug => .find slug
  | .navigation path =>
    if path.length ≤ (bytes "/api/v1/problems/").length + (bytes "/navigation").length then
      .answered (.error (invalidInput (bytes "invalid path") []))
    else if (slugOf path).isEmpty then .answered (.error (invalidInput (bytes "invalid slug") []))
    else .findCurrent (slugOf path)
  | .tags => .tagList

/-- The filter of `handle_problem_navigation`, after `clamp_list_filter`. -/
def allFilter : ProblemListFilter := clampListFilter { limit := 1000 }

/-- The rows of the page of a filter. -/
def pageOf (t : Tables weight) (f : ProblemListFilter) : List Problem :=
  ((selected t.db f).drop f.offset.toNat).take f.limit.toNat

/-- A statement of a call, and what the handler does until the next one. -/
def next (t : Tables weight) (fault : Option Fault) : Pc → Option Pc
  | .count f => some (after (fault.map (Fault.rethrow "problem_repo::count"))
      (t.db.problems.filter (f.selects t.db)).length (.page f))
  | .page f total => some (after (fault.map (Fault.rethrow "problem_repo::list")) (pageOf t f)
      fun items => .answered (.list (items.map card) total f.limit f.offset))
  | .find slug => some (after (fault.map what) (t.db.findBySlug slug false) fun row =>
      match row with
      | none => .answered (.error
          ⟨404, .notFound, bytes "problem not found", [.text (bytes "slug") slug]⟩)
      | some row => .findTags row)
  | .findTags row => some (after (fault.map (Fault.rethrow "tag_repo::list_tags_for_problem"))
      (tagsForProblem t row.id) (.findSamples row))
  | .findSamples row tags => some (after
      (fault.map (Fault.rethrow "test_case_repo::list_samples_for_problem"))
      ((samplesForProblem t row.id).map sample) (.findJudge row tags))
  | .findJudge row tags samples => some (after
      (fault.map (Fault.rethrow "special_judge_repo::exists_for_problem"))
      (t.judges.has row.id) fun has =>
        .answered (.detail ⟨card row, row.description, row.template, tags, samples, has⟩))
  | .findCurrent slug => some (after (fault.map what) (t.db.findBySlug slug false) fun row =>
      match row with
      | none => .answered (.error ⟨404, .notFound, bytes "problem not found", []⟩)
      | some row => .countAll row)
  | .countAll current => some (after (fault.map (Fault.rethrow "problem_repo::count"))
      (t.db.problems.filter (allFilter.selects t.db)).length fun _ => .pageAll current)
  | .pageAll current => some (after (fault.map (Fault.rethrow "problem_repo::list"))
      (pageOf t allFilter) fun items =>
        let (prev, next) := neighbours items current.id
        .answered (.navigation (prev.map link) (next.map link)))
  | .tagList => some (after (fault.map (Fault.rethrow "tag_repo::list_with_count"))
      (tagsWithCount t) fun items => .answered (.tags items))
  | .answered _ => none

/-! ## The system -/

/-- The tables, and the calls so far. -/
structure State (weight : Bytes → Bytes) where
  tables : Tables weight
  calls : List Pc

inductive Action
  | request (r : Request)
  /-- The next statement of a call, which may fail. -/
  | advance (i : Nat) (fault : Option Fault)
  | write (w : Write)
  deriving DecidableEq, Repr

def step (s : State weight) : Action → Option (State weight)
  | .request r => some { s with calls := s.calls ++ [start r] }
  | .advance i fault =>
    s.calls[i]?.bind fun pc => (next s.tables fault pc).map fun pc' =>
      { s with calls := s.calls.set i pc' }
  | .write w => (w.apply s.tables).map fun t => { s with tables := t }

/-- Requests and writes in any order. -/
def system (weight : Bytes → Bytes) : System (State weight) Action where
  init s := s.calls = []
  step := step

/-- A problem, and another one that is soft-deleted. -/
def twoProblems : State TagRepo.lowercase where
  tables := {
    db := {
      problems := [
        ⟨1, bytes "two-sum", bytes "Two Sum", bytes "easy", bytes "Add.", none, 1000, 256, 0, 0,
          false, 5, 5⟩,
        ⟨2, bytes "old", bytes "Old", bytes "hard", bytes "Gone.", none, 1000, 256, 0, 0, true, 3,
          4⟩]
      nextId := 3
      problemTags := [(1, 1), (2, 1)]
      testCases := [⟨1, 1, bytes "1 2", bytes "3", false, bytes "exact", 0, none⟩]
      nextCaseId := 2
      nodup_ids := by decide
      id_lt := by decide
      nodup_slugs := by decide
      nextId_pos := by decide }
    tags := ⟨[⟨1, bytes "array"⟩], 2, by decide, by decide⟩
    judges := ⟨[], by decide⟩
    cases_sorted := by decide
    case_lt := by decide }
  calls := []

/-! ## A call that nothing is written during -/

/-- Some statements of a call in a row. -/
def complete (t : Tables weight) : Nat → Pc → Pc
  | 0, pc => pc
  | n + 1, pc => complete t n ((next t none pc).getD pc)

/-- The answer of `handle_problem_navigation`. -/
def navigationAnswer : ProblemNavigation.Response → Answer
  | .error e => .error e
  | .success prev next => .navigation prev next

theorem complete_answered (t : Tables weight) (n : Nat) (a : Answer) :
    complete t n (.answered a) = .answered a := by
  induction n with
  | zero => rfl
  | succ n ih => exact ih

theorem complete_navigation (t : Tables weight) (path : Bytes) :
    complete t 3 (start (.navigation path)) =
      .answered (navigationAnswer (handleProblemNavigation t.db {} path)) := by
  rw [start, handleProblemNavigation]
  split_ifs with hlength hempty
  · exact complete_answered t 3 _
  · exact complete_answered t 3 _
  · cases hfound : t.db.findBySlug (slugOf path) false with
    | none =>
      simp only [complete, next, Option.map_none, after, Option.getD_some, hfound]
      rfl
    | some current =>
      simp only [complete, next, Option.map_none, after, Option.getD_some, hfound]
      rfl

end LiteCode.ProblemRoutes
