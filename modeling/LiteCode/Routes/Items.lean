import LiteCode.Judge.Result
import LiteCode.Lib.Program
import LiteCode.Routes.NotifyAuthor

/-!
# Items with an id in the path

The routes of `src/routes/notification_routes.h`, `src/routes/solution_routes.h` and
`src/routes/discussion_routes.h` whose pattern has a `(\d+)`. The handlers are programs that do
statements: the functions of the repositories, and the single statements and the notifications that
stand in the handlers themselves.

Most of them take the id from the capture of the pattern. Four look for the last slash of the path
and take what follows it. The texts of two of the notifications are in
`LiteCode.Routes.NotifyAuthor`.
-/

namespace LiteCode.Items

open ErrorHandler NotifyAuthor

/-! ## Items -/

/-- What a path names. -/
inductive Kind
  | notification
  | solution
  | comment
  | discussion
  | problem
  deriving DecidableEq, Repr

structure Item where
  kind : Kind
  id : Int
  deriving DecidableEq, Repr

/-- The word for a kind of items in the answers. -/
def Kind.noun : Kind → Bytes
  | .notification => bytes "notification"
  | .solution => bytes "solution"
  | .comment => bytes "comment"
  | .discussion => bytes "discussion"
  | .problem => bytes "problem"

/-- The answer to an id that is none. -/
def invalidId (k : Kind) : Envelope := invalidInput (bytes "invalid " ++ k.noun ++ bytes " id") []

def notFound (k : Kind) : Envelope := ⟨404, .notFound, k.noun ++ bytes " not found", []⟩

def notAuthorized (k : Kind) : Envelope :=
  ⟨403, .forbidden, bytes "not authorized to delete this " ++ k.noun, []⟩

/-! ## Rows -/

/-- `SolutionRow`, as far as it is sent. -/
structure SolutionRow where
  id : Int
  userId : Int
  title : Bytes
  content : Bytes
  likeCount : Int
  commentCount : Int
  createdAt : Bytes
  deriving DecidableEq, Repr

/-- `SolutionCommentRow`. -/
structure CommentRow where
  id : Int
  solutionId : Int
  userId : Int
  parentId : Option Int
  content : Bytes
  likeCount : Int
  createdAt : Bytes
  deriving DecidableEq, Repr

/-- `DiscussionRow`. -/
structure DiscussionRow where
  id : Int
  userId : Int
  problemId : Option Int
  parentId : Option Int
  rootId : Option Int
  title : Option Bytes
  content : Bytes
  likeCount : Int
  replyCount : Int
  createdAt : Bytes
  updatedAt : Bytes
  deriving DecidableEq, Repr

/-- The user that is sent with a row. -/
structure UserInfo where
  id : Int
  username : Bytes
  avatar : Option Bytes
  deriving DecidableEq, Repr

/-- `SolutionCommentListRow`. -/
structure CommentListRow where
  comment : CommentRow
  user : UserInfo
  deriving DecidableEq, Repr

/-- `DiscussionListRow`. -/
structure DiscussionListRow where
  discussion : DiscussionRow
  user : UserInfo
  problemSlug : Option Bytes
  problemTitle : Option Bytes
  deriving DecidableEq, Repr

/-- What `solution_comment_repo::create` inserts. -/
structure NewComment where
  solutionId : Int
  userId : Int
  parentId : Option Int
  content : Bytes
  deriving DecidableEq, Repr

/-- What `discussion_repo::create` inserts for a reply. -/
structure NewReply where
  userId : Int
  problemId : Option Int
  parentId : Int
  rootId : Int
  content : Bytes
  deriving DecidableEq, Repr

/-! ## Statements -/

/-- The statements of the handlers. -/
inductive Stmt
  | markRead (userId notificationId : Int)
  | findSolution (id : Int)
  | toggleSolutionLike (solutionId userId : Int)
  | softDeleteSolution (solutionId : Int)
  | listForSolution (solutionId limit offset : Int)
  | countForSolution (solutionId : Int)
  | incrementCommentCount (solutionId : Int)
  | decrementCommentCount (solutionId : Int)
  | findComment (id : Int)
  | createComment (c : NewComment)
  | toggleCommentLike (commentId userId : Int)
  | softDeleteComment (commentId : Int)
  | findDiscussion (id : Int)
  | listReplies (rootId : Int)
  | createReply (d : NewReply)
  | toggleDiscussionLike (discussionId userId : Int)
  | softDeleteDiscussion (discussionId : Int)
  | incrementReplyCount (discussionId : Int)
  | decrementReplyCount (discussionId : Int)
  | countForProblem (problemId : Int)
  | findUsername (userId : Int)
  | findUser (userId : Int)
  | findProblem (problemId : Int)
  | notifySolutionLike (authorId userId solutionId : Int) (username title : Bytes)
  | notifySolutionComment (authorId userId solutionId commentId : Int)
      (username title content : Bytes)
  | notifySolutionCommentReply (targetId userId solutionId replyId parentId : Int)
      (username title content : Bytes)
  | notifyDiscussionReply (authorId userId discussionId : Int) (username title : Bytes)
  deriving DecidableEq, Repr

/-- What a statement gives. -/
abbrev Stmt.Result : Stmt → Type
  | .findSolution _ => Option SolutionRow
  | .findComment _ => Option CommentRow
  | .findDiscussion _ => Option DiscussionRow
  | .toggleSolutionLike .. | .toggleCommentLike .. | .toggleDiscussionLike .. => Bool
  | .listForSolution .. => List CommentListRow
  | .listReplies _ => List DiscussionListRow
  | .countForSolution _ | .countForProblem _ | .createComment _ | .createReply _ => Int
  | .findUsername _ => Option Bytes
  | .findUser _ => Option UserInfo
  -- the slug and the title
  | .findProblem _ => Option (Bytes × Bytes)
  | _ => Unit

/-- A statement gives a result, or it throws. -/
abbrev Outcome (s : Stmt) : Type := Except Bytes s.Result

/-- A handler, in the wrapper of its route. -/
abbrev Handler : Type → Type := Program Stmt Outcome Envelope

/-- What the wrapper makes of an exception. -/
def internal : Envelope := internalError (bytes "internal error")

/-- A statement whose exception is caught. -/
def attempt (s : Stmt) : Handler (Outcome s) := .op s .ret

def query (s : Stmt) : Handler s.Result :=
  .op s fun
    | .ok a => .ret a
    | .error _ => .fail internal

/-! ## Requests -/

structure Claims where
  userId : Bytes
  role : Bytes
  deriving DecidableEq, Repr

/-- A request with its caller, or the message of `require_authentication`. -/
structure Request where
  path : Bytes
  claims : Except Bytes Claims
  limit : Option Bytes
  offset : Option Bytes
  body : Bytes

def requireAuthentication (req : Request) : Handler Claims :=
  match req.claims with
  | .ok claims => .ret claims
  | .error message => .fail ⟨401, .unauthorized, message, []⟩

/-- `std::stoi(claims.user_id)`. -/
def Claims.id (claims : Claims) : Handler Int :=
  match stoi claims.userId with
  | some userId => .ret userId
  | none => .fail internal

/-- The id in a text, if there is one. -/
def itemId (k : Kind) (text : Option Bytes) : Handler Int :=
  if pathId text = 0 then .fail (invalidId k) else .ret (pathId text)

/-- What follows the last slash of a path. -/
def afterLastSlash (path : Bytes) : Option Bytes :=
  if path.contains 0x2F then some (path.rtakeWhile (· ≠ 0x2F)) else none

/-- The parameter `limit`. -/
def Request.pageLimit (req : Request) (byDefault max : Int) : Int :=
  let limit := (req.limit.bind stoi).getD byDefault
  let limit := if limit ≤ 0 then byDefault else limit
  if max < limit then max else limit

/-- The parameter `offset`. -/
def Request.pageOffset (req : Request) : Int :=
  let offset := (req.offset.bind stoi).getD 0
  if offset < 0 then 0 else offset

/-- The members of a body and its `content`; `get<std::string>()` throws on what is no string. -/
def readContent (body : Bytes) : Handler (Json × Bytes) :=
  match Json.parse body with
  | some (.obj members) =>
    match (Json.obj members).get? (bytes "content") with
    | none => .fail (invalidInput (bytes "content required") [])
    | some (.str content) => .ret (.obj members, content)
    | some _ => .fail internal
  | _ => .fail (invalidInput (bytes "invalid body") [])

/-- The data of a success. -/
inductive Answer
  | ok
  | solution (row : SolutionRow) (user : UserInfo)
  | liked (liked : Bool) (likeCount : Int)
  | deleted
  | comments (items : List CommentListRow) (total limit offset : Int)
  | created (id : Int)
  | discussion (row : DiscussionListRow) (replies : List DiscussionListRow)
  | count (count : Int)
  deriving DecidableEq, Repr

/-! ## Handlers of notifications and solutions -/

def handleMarkRead (req : Request) : Handler Answer := do
  let claims ← requireAuthentication req
  let userId ← claims.id
  let notifId ← itemId .notification (afterLastSlash req.path)
  query (.markRead userId notifId)
  return .ok

def handleGetSolution (req : Request) : Handler Answer := do
  let solutionId ← itemId .solution (afterLastSlash req.path)
  let some solution ← query (.findSolution solutionId) | .fail (notFound .solution)
  let username ← query (.findUsername solution.userId)
  return .solution solution ⟨solution.userId, username.getD (bytes "?"), none⟩

def handleLikeSolution (req : Request) (capture : Option Bytes) : Handler Answer := do
  let claims ← requireAuthentication req
  let solutionId ← itemId .solution capture
  let some solution ← query (.findSolution solutionId) | .fail (notFound .solution)
  let userId ← claims.id
  let liked ← query (.toggleSolutionLike solutionId userId)
  let updated ← query (.findSolution solutionId)
  let answer := .liked liked ((updated.map SolutionRow.likeCount).getD 0)
  if liked && solution.userId != userId then do
    let username ← query (.findUsername userId)
    query (.notifySolutionLike solution.userId userId solutionId (username.getD someUser)
      solution.title)
    return answer
  else return answer

def handleDeleteSolution (req : Request) : Handler Answer := do
  let claims ← requireAuthentication req
  let solutionId ← itemId .solution (afterLastSlash req.path)
  let some solution ← query (.findSolution solutionId) | .fail (notFound .solution)
  let userId ← claims.id
  if userId != solution.userId && claims.role != bytes "admin" then
    .fail (notAuthorized .solution)
  else do
    query (.softDeleteSolution solutionId)
    return .deleted

/-! ## Handlers of comments -/

def handleListSolutionComments (req : Request) (capture : Option Bytes) : Handler Answer := do
  let solutionId ← itemId .solution capture
  let some _ ← query (.findSolution solutionId) | .fail (notFound .solution)
  let limit := req.pageLimit 50 200
  let offset := req.pageOffset
  let items ← query (.listForSolution solutionId limit offset)
  let total ← query (.countForSolution solutionId)
  return .comments items total limit offset

section Comments

variable (floatToInt : Decimal → Int32)

/-- `get<int>()`, which takes numbers and booleans. -/
def getInt? : Json → Option Int
  | .num n => some (Judge.getInt floatToInt n)
  | .bool b => some b.toNat
  | _ => none

/-- The checked parent of a comment. -/
def parentComment (solutionId : Int) (body : Json) : Handler (Option Int) :=
  let mustBeInt : Envelope := invalidInput (bytes "parent_id must be int") []
  match body.get? (bytes "parent_id") with
  | none | some .null => .ret none
  | some j =>
    match getInt? floatToInt j with
    | none => .fail mustBeInt
    | some pid =>
      if 0 < pid then do
        match ← attempt (.findComment pid) with
        | .error _ => .fail mustBeInt
        | .ok none => .fail ⟨404, .notFound, bytes "parent comment not found", []⟩
        | .ok (some parent) =>
          if parent.solutionId = solutionId then .ret (some pid)
          else .fail (invalidInput (bytes "parent comment does not belong to this solution") [])
      else .ret none

/-- The notification of a comment, whose exceptions are ignored. -/
def notifyComment (solution : SolutionRow) (c : NewComment) (commentId : Int) : Handler Unit := do
  match ← attempt (.findUsername c.userId) with
  | .error _ => return ()
  | .ok username =>
    let username := username.getD someUser
    match c.parentId with
    | some pid =>
      match ← attempt (.findComment pid) with
      | .ok (some parent) =>
        if parent.userId != c.userId then do
          let _ ← attempt (.notifySolutionCommentReply parent.userId c.userId c.solutionId
            commentId pid username solution.title c.content)
          return ()
        else return ()
      | _ => return ()
    | none =>
      if solution.userId != c.userId then do
        let _ ← attempt (.notifySolutionComment solution.userId c.userId c.solutionId commentId
          username solution.title c.content)
        return ()
      else return ()

def handleCreateSolutionComment (req : Request) (capture : Option Bytes) : Handler Answer := do
  let claims ← requireAuthentication req
  let solutionId ← itemId .solution capture
  let some solution ← query (.findSolution solutionId) | .fail (notFound .solution)
  let (body, content) ← readContent req.body
  let content := (content.dropWhile isSpace).rdropWhile isSpace
  if content.isEmpty || 2000 < content.length then
    .fail (invalidInput (bytes "content must be 1-2000 chars") [])
  else do
    let userId ← claims.id
    let parentId ← parentComment floatToInt solutionId body
    let c : NewComment := ⟨solutionId, userId, parentId, content⟩
    let commentId ← query (.createComment c)
    query (.incrementCommentCount solutionId)
    notifyComment solution c commentId
    return .created commentId

end Comments

def handleDeleteSolutionComment (req : Request) (capture : Option Bytes) : Handler Answer := do
  let claims ← requireAuthentication req
  let commentId ← itemId .comment capture
  let some comment ← query (.findComment commentId) | .fail (notFound .comment)
  let userId ← claims.id
  if userId != comment.userId && claims.role != bytes "admin" then
    .fail (notAuthorized .comment)
  else do
    query (.softDeleteComment commentId)
    query (.decrementCommentCount comment.solutionId)
    return .deleted

def handleLikeSolutionComment (req : Request) (capture : Option Bytes) : Handler Answer := do
  let claims ← requireAuthentication req
  let commentId ← itemId .comment capture
  let some _ ← query (.findComment commentId) | .fail (notFound .comment)
  let userId ← claims.id
  let liked ← query (.toggleCommentLike commentId userId)
  let updated ← query (.findComment commentId)
  return .liked liked ((updated.map CommentRow.likeCount).getD 0)

/-! ## Handlers of discussions -/

/-- The problem that is sent with a discussion. -/
def problemOf : Option Int → Handler (Option (Bytes × Bytes))
  | none => .ret none
  | some problemId => query (.findProblem problemId)

def handleGetDiscussion (capture : Option Bytes) : Handler Answer := do
  let discussionId ← itemId .discussion capture
  let some d ← query (.findDiscussion discussionId) | .fail (notFound .discussion)
  let user ← query (.findUser d.userId)
  let problem ← problemOf d.problemId
  let replies ← query (.listReplies discussionId)
  return .discussion ⟨d, user.getD ⟨0, [], none⟩, problem.map Prod.fst, problem.map Prod.snd⟩
    replies

def handleReplyDiscussion (req : Request) (capture : Option Bytes) : Handler Answer := do
  let claims ← requireAuthentication req
  let discussionId ← itemId .discussion capture
  let some parent ← query (.findDiscussion discussionId) | .fail (notFound .discussion)
  let (_, content) ← readContent req.body
  if content.isEmpty || 10000 < content.length then
    .fail (invalidInput (bytes "content must be 1-10000 chars") [])
  else do
    let userId ← claims.id
    let rootId := parent.rootId.getD parent.id
    let id ← query (.createReply ⟨userId, parent.problemId, discussionId, rootId, content⟩)
    query (.incrementReplyCount rootId)
    if parent.userId != userId then do
      let username ← query (.findUsername userId)
      query (.notifyDiscussionReply parent.userId userId discussionId (username.getD someUser)
        (parent.title.getD parent.content))
      return .created id
    else return .created id

def handleLikeDiscussion (req : Request) (capture : Option Bytes) : Handler Answer := do
  let claims ← requireAuthentication req
  let discussionId ← itemId .discussion capture
  let some _ ← query (.findDiscussion discussionId) | .fail (notFound .discussion)
  let userId ← claims.id
  let liked ← query (.toggleDiscussionLike discussionId userId)
  let updated ← query (.findDiscussion discussionId)
  return .liked liked ((updated.map DiscussionRow.likeCount).getD 0)

def handleDeleteDiscussion (req : Request) (capture : Option Bytes) : Handler Answer := do
  let claims ← requireAuthentication req
  let discussionId ← itemId .discussion capture
  let some d ← query (.findDiscussion discussionId) | .fail (notFound .discussion)
  let userId ← claims.id
  if userId != d.userId && claims.role != bytes "admin" then
    .fail (notAuthorized .discussion)
  else do
    query (.softDeleteDiscussion discussionId)
    match d.parentId with
    | some parentId => do
      query (.decrementReplyCount (d.rootId.getD parentId))
      return .deleted
    | none => return .deleted

def handleCountProblemDiscussions (req : Request) : Handler Answer := do
  let problemId ← itemId .problem (afterLastSlash req.path)
  let count ← query (.countForProblem problemId)
  return .count count

/-! ## Routes -/

/-- The routes with a `(\d+)`. -/
inductive Route
  | markRead
  | getSolution
  | likeSolution
  | deleteSolution
  | listSolutionComments
  | createSolutionComment
  | deleteSolutionComment
  | likeSolutionComment
  | getDiscussion
  | replyDiscussion
  | likeDiscussion
  | deleteDiscussion
  | countProblemDiscussions
  deriving DecidableEq, Repr

namespace Route

/-- What stands in front of the `(\d+)` in the pattern, and after it. -/
def pattern : Route → Bytes × Bytes
  | markRead => (bytes "/api/v1/notifications/", bytes "/read")
  | getSolution | deleteSolution => (bytes "/api/v1/solutions/", [])
  | likeSolution => (bytes "/api/v1/solutions/", bytes "/like")
  | listSolutionComments | createSolutionComment =>
    (bytes "/api/v1/solutions/", bytes "/comments")
  | deleteSolutionComment => (bytes "/api/v1/solution-comments/", [])
  | likeSolutionComment => (bytes "/api/v1/solution-comments/", bytes "/like")
  | getDiscussion | deleteDiscussion => (bytes "/api/v1/discussions/", [])
  | replyDiscussion => (bytes "/api/v1/discussions/", bytes "/replies")
  | likeDiscussion => (bytes "/api/v1/discussions/", bytes "/like")
  | countProblemDiscussions => (bytes "/api/v1/discussions/count/", [])

/-- The capture of a path that the pattern matches. -/
def capture (r : Route) (path : Bytes) : Option Bytes :=
  let (start, tail) := r.pattern
  let rest := path.drop start.length
  let digits := rest.takeWhile Json.isDigit
  if path.take start.length = start ∧ digits ≠ [] ∧ rest.dropWhile Json.isDigit = tail then
    some digits
  else none

/-- The kind of items that the id in the path is meant for. -/
def kind : Route → Kind
  | markRead => .notification
  | getSolution | likeSolution | deleteSolution | listSolutionComments
  | createSolutionComment => .solution
  | deleteSolutionComment | likeSolutionComment => .comment
  | getDiscussion | replyDiscussion | likeDiscussion | deleteDiscussion => .discussion
  | countProblemDiscussions => .problem

/-- The handler of a route. -/
def handle (floatToInt : Decimal → Int32) (r : Route) (req : Request) : Handler Answer :=
  let capture := r.capture req.path
  match r with
  | markRead => handleMarkRead req
  | getSolution => handleGetSolution req
  | likeSolution => handleLikeSolution req capture
  | deleteSolution => handleDeleteSolution req
  | listSolutionComments => handleListSolutionComments req capture
  | createSolutionComment => handleCreateSolutionComment floatToInt req capture
  | deleteSolutionComment => handleDeleteSolutionComment req capture
  | likeSolutionComment => handleLikeSolutionComment req capture
  | getDiscussion => handleGetDiscussion capture
  | replyDiscussion => handleReplyDiscussion req capture
  | likeDiscussion => handleLikeDiscussion req capture
  | deleteDiscussion => handleDeleteDiscussion req capture
  | countProblemDiscussions => handleCountProblemDiscussions req

end Route

end LiteCode.Items
