import LiteCode.Lib.Stoi
import LiteCode.Routes.ErrorHandler
import LiteCode.Routes.SanitizeUtf8
import Mathlib.Data.List.Forall2
import Mathlib.Data.List.Sort

/-!
# The list of solutions

`GET /api/v1/problems/:slug/solutions` (`handle_list_solutions` of `src/routes/solution_routes.h`)
shows the solutions of a problem, page by page: for each its title and an excerpt of its content.
The excerpt is the first 200 bytes of the content. The page is put into one JSON text, which fails
when one of its strings is not UTF-8; the answer is then an empty list.

* `listSolutionsForProblem`: the page and the total, from the tables;
* `handleListSolutions`: the handler;
* `handleListSolutions_eq`: its answer is the page if every excerpt on it is well-formed, and the
  empty list otherwise.
-/

namespace LiteCode.SolutionRoutes

open Utf8 ErrorHandler

/-! ## The tables -/

/-- A text of the database, whose character set is UTF-8. -/
abbrev Text := {t : Bytes // WellFormed t}

/-- A row of `problems`. -/
structure ProblemRow where
  id : Int
  slug : Bytes
  isDeleted : Bool

/-- A row of `solutions`. -/
structure StoredSolution where
  id : Int
  userId : Int
  problemId : Int
  title : Text
  content : Text
  likeCount : Int
  commentCount : Int
  createdAt : Int
  isDeleted : Bool

/-- `SolutionUserInfo`: the columns of `users` that are shown. -/
structure SolutionUserInfo where
  id : Int
  username : Text
  avatar : Option Text

/-- `SolutionRow`: the columns of the query. -/
structure SolutionRow where
  id : Int
  title : Text
  content : Text
  likeCount : Int
  commentCount : Int
  createdAt : Text

/-- `SolutionListRow`. -/
structure SolutionListRow where
  solution : SolutionRow
  user : SolutionUserInfo

/-- The tables. -/
structure Db where
  problems : List ProblemRow
  solutions : List StoredSolution
  users : List SolutionUserInfo

/-- `ORDER BY s.like_count DESC, s.created_at DESC`. -/
def Before (a b : StoredSolution × SolutionUserInfo) : Prop :=
  b.1.likeCount < a.1.likeCount ∨
    b.1.likeCount = a.1.likeCount ∧ b.1.createdAt ≤ a.1.createdAt

instance : DecidableRel Before := fun _ _ => inferInstanceAs (Decidable (_ ∨ _))

/-- The database server: the collation of the slugs, `DATE_FORMAT`, and how it orders rows, those
    that are equal for `ORDER BY` as it likes. -/
structure Server where
  weight : Bytes → Bytes
  dateFormat : Int → Text
  order : List (StoredSolution × SolutionUserInfo) → List (StoredSolution × SolutionUserInfo)
  order_perm : ∀ l, (order l).Perm l
  order_pairwise : ∀ l, (order l).Pairwise Before

variable (server : Server) (db : Db)

/-- `find_problem_id_by_slug`. -/
def findProblemIdBySlug (slug : Bytes) : Option Int :=
  (db.problems.find? fun p => server.weight p.slug == server.weight slug && !p.isDeleted).map
    ProblemRow.id

/-- The solutions of a problem. -/
def Db.selects (problemId : Int) (s : StoredSolution) : Bool :=
  s.problemId == problemId && !s.isDeleted

/-- `JOIN users u ON u.id = s.user_id`. -/
def Db.joined (problemId : Int) : List (StoredSolution × SolutionUserInfo) :=
  (db.solutions.filter (Db.selects problemId)).flatMap fun s =>
    (db.users.filter fun u => u.id == s.userId).map fun u => (s, u)

/-- `row_to_solution`, and the columns of the user. -/
def Server.toRow (r : StoredSolution × SolutionUserInfo) : SolutionListRow where
  solution := {
    id := r.1.id
    title := r.1.title
    content := r.1.content
    likeCount := r.1.likeCount
    commentCount := r.1.commentCount
    createdAt := server.dateFormat r.1.createdAt }
  user := r.2

/-- `SolutionListResult`. -/
structure SolutionListResult where
  items : List SolutionListRow
  total : Int

/-- `list_solutions_for_problem`. -/
def listSolutionsForProblem (problemId limit offset : Int) : SolutionListResult where
  items := (((server.order (db.joined problemId)).drop offset.toNat).take limit.toNat).map
    server.toRow
  total := db.solutions.countP (Db.selects problemId)

/-! ## The handler -/

/-- An item of the list, as it is sent. -/
structure ListItem where
  id : Int
  title : Bytes
  excerpt : Bytes
  likeCount : Int
  commentCount : Int
  createdAt : Bytes
  userId : Int
  username : Bytes
  avatar : Option Bytes
  deriving DecidableEq, Repr

/-- `serialize_solution_list_item`. Nothing in its `try` block throws. -/
def serializeSolutionListItem (r : SolutionListRow) : ListItem where
  id := r.solution.id
  title := sanitizeUtf8 r.solution.title
  excerpt := (sanitizeUtf8 r.solution.content).take 200
  likeCount := r.solution.likeCount
  commentCount := r.solution.commentCount
  createdAt := sanitizeUtf8 r.solution.createdAt
  userId := r.user.id
  username := sanitizeUtf8 r.user.username
  avatar := r.user.avatar.map fun a => sanitizeUtf8 a.1

/-- The data of the answer. -/
structure ListData where
  items : List ListItem
  total : Int
  limit : Int
  offset : Int
  dropped : Int
  deriving DecidableEq, Repr

/-- The strings of an item. -/
def ListItem.strings (i : ListItem) : List Bytes :=
  [i.title, i.excerpt, i.createdAt, i.username] ++ i.avatar.toList

/-- A response. -/
inductive Response
  | success (data : ListData) (requestId : Option Bytes)
  | error (e : Envelope)
  deriving DecidableEq, Repr

/-- `send_success`: `none` when `dump` throws, which it does on a string that is not UTF-8. -/
def sendSuccess (requestId : Option Bytes) (data : ListData) : Option Response :=
  if ∀ s ∈ data.items.flatMap ListItem.strings ++ requestId.toList, WellFormed s then
    some (.success data requestId)
  else none

/-- A request: the parameters `limit` and `offset`, and the id it was given, of ASCII characters
    only. -/
structure Request where
  path : Bytes
  limit : Option Bytes
  offset : Option Bytes
  requestId : Option Text

/-- The slug in the path, or what is answered when there is none. -/
def slugOf (path : Bytes) : Except Envelope Bytes :=
  let route := bytes "/api/v1/problems/"
  if path.length ≤ route.length then .error (invalidInput (bytes "invalid path") [])
  else
    let slug := (path.drop route.length).takeWhile (· != 0x2F)
    if slug.isEmpty then .error (invalidInput (bytes "invalid slug") []) else .ok slug

/-- A parameter, `byDefault` when it is absent or no number. -/
def intParam (param : Option Bytes) (byDefault : Int) : Int :=
  match param with
  | none => byDefault
  | some t => (stoi t).getD byDefault

/-- The limit of a request. -/
def Request.pageLimit (req : Request) : Int :=
  let limit := intParam req.limit 20
  let limit := if limit ≤ 0 then 20 else limit
  if 100 < limit then 100 else limit

/-- The offset of a request. -/
def Request.pageOffset (req : Request) : Int :=
  let offset := intParam req.offset 0
  if offset < 0 then 0 else offset

/-- What is sent when the page cannot be. -/
def emptyList : ListData := ⟨[], 0, 20, 0, -1⟩

/-- `handle_list_solutions`. -/
def handleListSolutions (req : Request) : Response :=
  match slugOf req.path with
  | .error e => .error e
  | .ok slug =>
    match findProblemIdBySlug server db slug with
    | none => .error ⟨404, .notFound, bytes "problem not found", []⟩
    | some problemId =>
      let limit := req.pageLimit
      let offset := req.pageOffset
      let requestId := req.requestId.map Subtype.val
      let result := listSolutionsForProblem server db problemId limit offset
      let items := result.items.map serializeSolutionListItem
      match sendSuccess requestId ⟨items, result.total, limit, offset, 0⟩ with
      | some response => response
      | none =>
        match sendSuccess requestId emptyList with
        | some response => response
        | none => .error (internalError (bytes "internal error"))

/-! ## What is shown -/

/-- The rows that a request asks for. -/
def requestedPage (problemId : Int) (req : Request) : List SolutionListRow :=
  (listSolutionsForProblem server db problemId req.pageLimit req.pageOffset).items

/-- The item shows the row: its id, its title, and the beginning of its content. -/
structure ListItem.Shows (i : ListItem) (r : SolutionListRow) : Prop where
  id_eq : i.id = r.solution.id
  title_eq : i.title = r.solution.title
  excerpt_prefix : i.excerpt <+: (r.solution.content : Bytes)

/-- The answer has all rows of the page that is asked for, and the number of the solutions. -/
def Answered (problemId : Int) (req : Request) : Prop :=
  ∃ data requestId, handleListSolutions server db req = .success data requestId ∧
    List.Forall₂ ListItem.Shows data.items (requestedPage server db problemId req) ∧
    data.total = db.solutions.countP (Db.selects problemId)

/-- The first 200 bytes of the content end with a character. -/
def Cuttable (r : SolutionListRow) : Prop := WellFormed ((r.solution.content : Bytes).take 200)

instance (r : SolutionListRow) : Decidable (Cuttable r) :=
  inferInstanceAs (Decidable (WellFormed _))

variable {server : Server} {db : Db} {req : Request} {slug : Bytes} {problemId : Int}

/-- The texts of the database pass the decoder unchanged. -/
theorem sanitizeUtf8_text (t : Text) : sanitizeUtf8 t = t := sanitizeUtf8_of_wellFormed t.2

theorem shows_serialize (r : SolutionListRow) : (serializeSolutionListItem r).Shows r where
  id_eq := rfl
  title_eq := sanitizeUtf8_text r.solution.title
  excerpt_prefix := by
    have hexcerpt : (serializeSolutionListItem r).excerpt = (r.solution.content : Bytes).take 200 :=
      congrArg (List.take 200) (sanitizeUtf8_text _)
    exact hexcerpt ▸ List.take_prefix _ _

/-- An item can be sent exactly if its excerpt ends with a character. -/
theorem strings_serialize_iff (r : SolutionListRow) :
    (∀ s ∈ (serializeSolutionListItem r).strings, WellFormed s) ↔ Cuttable r := by
  have htext : ∀ t : Text, WellFormed (t : Bytes) := Subtype.property
  have havatar : ∀ s ∈ (serializeSolutionListItem r).avatar.toList, WellFormed s := by
    intro s hs
    obtain ⟨a, -, rfl⟩ := Option.map_eq_some_iff.1 (Option.mem_toList.1 hs)
    exact (sanitizeUtf8_text a).symm ▸ htext a
  rw [ListItem.strings, List.forall_mem_append, and_iff_left havatar]
  simp [serializeSolutionListItem, sanitizeUtf8_text, htext, Cuttable]

/-- A page can be sent exactly if every excerpt on it ends with a character. -/
theorem sendSuccess_page (requestId : Option Text) (rows : List SolutionListRow)
    (total limit offset dropped : Int) :
    sendSuccess (requestId.map Subtype.val)
      ⟨rows.map serializeSolutionListItem, total, limit, offset, dropped⟩ =
      if ∀ r ∈ rows, Cuttable r then
        some (.success ⟨rows.map serializeSolutionListItem, total, limit, offset, dropped⟩
          (requestId.map Subtype.val))
      else none := by
  have hid : ∀ s ∈ (requestId.map Subtype.val).toList, WellFormed s := by
    intro s hs
    obtain ⟨t, -, rfl⟩ := Option.map_eq_some_iff.1 (Option.mem_toList.1 hs)
    exact t.2
  have hstrings : (∀ s ∈ (rows.map serializeSolutionListItem).flatMap ListItem.strings ++
      (requestId.map Subtype.val).toList, WellFormed s) ↔ ∀ r ∈ rows, Cuttable r := by
    rw [List.forall_mem_append, and_iff_left hid]
    simp only [List.flatMap_map, List.mem_flatMap, forall_exists_index, and_imp,
      ← strings_serialize_iff]
    exact ⟨fun h r hr s hs => h s r hr hs, fun h s r hr hs => h r hr s hs⟩
  rw [sendSuccess, if_congr hstrings rfl rfl]

/-- The answer is the page if every excerpt on it ends with a character, and the empty list
    otherwise. -/
theorem handleListSolutions_eq (hslug : slugOf req.path = .ok slug)
    (hid : findProblemIdBySlug server db slug = some problemId) :
    handleListSolutions server db req = .success
      (if ∀ r ∈ requestedPage server db problemId req, Cuttable r then
        ⟨(requestedPage server db problemId req).map serializeSolutionListItem,
          db.solutions.countP (Db.selects problemId), req.pageLimit, req.pageOffset, 0⟩
      else emptyList) (req.requestId.map Subtype.val) := by
  have hempty : sendSuccess (req.requestId.map Subtype.val) emptyList =
      some (.success emptyList (req.requestId.map Subtype.val)) :=
    (sendSuccess_page req.requestId [] 0 20 0 (-1)).trans (if_pos (List.forall_mem_nil _))
  rw [handleListSolutions, hslug]
  simp only [hid]
  rw [sendSuccess_page, requestedPage]
  split_ifs with h
  · rfl
  · simp only [hempty]

/-- The empty list answers a request for an empty page only. -/
theorem Answered.requestedPage_eq_nil (h : Answered server db problemId req)
    {requestId : Option Bytes}
    (hanswer : handleListSolutions server db req = .success emptyList requestId) :
    requestedPage server db problemId req = [] := by
  obtain ⟨data, requestId', hdata, hshows, -⟩ := h
  rw [hanswer] at hdata
  obtain ⟨rfl, -⟩ := Response.success.inj hdata
  exact List.forall₂_nil_left_iff.1 hshows

/-- Every row of the page is shown, with the true total, exactly if no excerpt on the page is cut
    inside a character. -/
theorem handleListSolutions_answers_iff (hslug : slugOf req.path = .ok slug)
    (hid : findProblemIdBySlug server db slug = some problemId) :
    Answered server db problemId req ↔
      ∀ r ∈ requestedPage server db problemId req, Cuttable r := by
  have hanswer := handleListSolutions_eq hslug hid
  constructor
  · intro h
    by_contra hcut
    rw [if_neg hcut] at hanswer
    rw [h.requestedPage_eq_nil hanswer] at hcut
    exact hcut (List.forall_mem_nil _)
  · intro hcut
    rw [if_pos hcut] at hanswer
    refine ⟨_, _, hanswer, ?_, rfl⟩
    rw [List.forall₂_map_left_iff, List.forall₂_same]
    exact fun r _ => shows_serialize r

/-! ## One solution -/

/-- A server that orders rows by insertion. -/
def plainServer : Server where
  weight := id
  dateFormat _ := ⟨bytes "2026-01-01 00:00:00", by decide⟩
  order l := l.insertionSort Before
  order_perm l := l.perm_insertionSort Before
  order_pairwise l :=
    haveI : Std.Total Before := ⟨fun a b => by unfold Before; omega⟩
    haveI : IsTrans _ Before := ⟨fun a b c hab hbc => by unfold Before at *; omega⟩
    l.pairwise_insertionSort Before

/-- A problem with one solution. -/
def oneSolution (content : Text) : Db where
  problems := [⟨1, bytes "two-sum", false⟩]
  solutions := [⟨1, 7, 1, ⟨bytes "Hash", by decide⟩, content, 0, 0, 0, false⟩]
  users := [⟨7, ⟨bytes "ann", by decide⟩, none⟩]

/-- The first page of its list. -/
def firstPage : Request := ⟨bytes "/api/v1/problems/two-sum/solutions", none, none, none⟩

theorem slugOf_firstPage : slugOf firstPage.path = .ok (bytes "two-sum") := by decide

/-- A short solution is shown. -/
theorem handleListSolutions_answers_short :
    Answered plainServer (oneSolution ⟨bytes "hash it", by decide⟩) 1 firstPage :=
  (handleListSolutions_answers_iff slugOf_firstPage (by decide)).2 (by decide)

/-- Sixty-seven characters of three bytes each. -/
def chinese : Text := ⟨(List.replicate 67 (Utf8.ofString "中")).flatten, by decide +kernel⟩

/-- A solution whose 200th byte is inside a character empties the list. -/
theorem excerpt_blanks :
    (requestedPage plainServer (oneSolution chinese) 1 firstPage).length = 1 ∧
      handleListSolutions plainServer (oneSolution chinese) firstPage = .success emptyList none ∧
      ¬Answered plainServer (oneSolution chinese) 1 firstPage := by
  have hcut : ¬∀ r ∈ requestedPage plainServer (oneSolution chinese) 1 firstPage, Cuttable r := by
    decide +kernel
  have hanswer : handleListSolutions plainServer (oneSolution chinese) firstPage =
      .success emptyList none := by
    have hid : findProblemIdBySlug plainServer (oneSolution chinese) (bytes "two-sum") = some 1 :=
      by decide
    rw [handleListSolutions_eq slugOf_firstPage hid, if_neg hcut]
    rfl
  refine ⟨by decide +kernel, hanswer, fun h => ?_⟩
  rw [h.requestedPage_eq_nil hanswer] at hcut
  exact hcut (List.forall_mem_nil _)

end LiteCode.SolutionRoutes
