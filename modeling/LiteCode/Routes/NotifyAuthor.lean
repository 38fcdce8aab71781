import LiteCode.Lib.Stoi
import LiteCode.Routes.ErrorHandler

/-!
# Notifying the author

A new like of a solution and a reply to a discussion are told to the author:
`notify_solution_like` and `notify_discussion_reply` of `src/routes/notification_routes.h`, called
by `handle_like_solution` and `handle_reply_discussion` after their writes. The text of the
notification has the first 50 bytes of the title, and `push` serialises it as JSON. The serialiser
throws on a text that is not UTF-8, and nothing before the wrapper of the route catches it: the
request is answered with a `500` though its writes are done.

What a request meets (its statements and their outcomes) is given as `LikeEnv` and `ReplyEnv`.

* `push_eq_ok_iff`: a notification is sent exactly if the name of the actor and the first 50 bytes
  of the title are UTF-8;
* `answered_iff`: a request that has done its writes is answered with success exactly if there is
  nobody to tell, or the notification can be sent.
-/

namespace LiteCode.NotifyAuthor

open ErrorHandler

/-! ## Notifications -/

/-- `NotificationRow`: the columns that are written. -/
structure NotificationRow where
  userId : Int
  type : Bytes
  message : Bytes
  link : Bytes
  referenceId : Int
  deriving DecidableEq, Repr

/-- `nlohmann::json::dump`: the text of the object, and what it throws if a string is not UTF-8. -/
structure Dump where
  text : NotificationRow → Bytes
  what : Bytes

/-- The object that is sent: everything but the user. -/
def Dump.dump (d : Dump) (n : NotificationRow) : Except Bytes Bytes :=
  if Utf8.WellFormed n.type ∧ Utf8.WellFormed n.message ∧ Utf8.WellFormed n.link then
    .ok (d.text n)
  else .error d.what

/-- `NotificationBroadcaster::push`, up to the channel: the frame for a user. -/
def push (d : Dump) (userId : Int) (eventType : Bytes) (n : NotificationRow) :
    Except Bytes (Int × Bytes) := do
  let data ← d.dump n
  return (userId, bytes "event: " ++ eventType ++ bytes "\ndata: " ++ data ++ bytes "\n\n")

/-- The title as it is shown: its first 50 bytes. -/
def excerpt (title : Bytes) : Bytes :=
  if 50 < title.length then title.take 50 ++ bytes "..." else title

/-- The part that the two helpers share: `verb` stands between the name of the actor and the
    title. An `INSERT` into `notifications` that fails is ignored. -/
def notifyAuthor (d : Dump) (authorUserId actorUserId : Int) (type verb page : String)
    (referenceId : Int) (actorUsername title : Bytes) : Except Bytes (Option (Int × Bytes)) :=
  if authorUserId = actorUserId then .ok none
  else
    let n : NotificationRow := {
      userId := authorUserId
      type := bytes type
      message := actorUsername ++ Utf8.ofString verb ++ excerpt title ++ Utf8.ofString "」"
      link := bytes page ++ decimalInt referenceId
      referenceId := referenceId }
    some <$> push d authorUserId (bytes "notification") n

/-- `notify_discussion_reply`. -/
def notifyDiscussionReply (d : Dump) (authorUserId replierUserId discussionId : Int)
    (replierUsername discussionTitle : Bytes) : Except Bytes (Option (Int × Bytes)) :=
  notifyAuthor d authorUserId replierUserId "discussion_reply" " 回复了你的讨论：「"
    "/discuss.html?id=" discussionId replierUsername discussionTitle

/-- `notify_solution_like`. -/
def notifySolutionLike (d : Dump) (authorUserId likerUserId solutionId : Int)
    (likerUsername solutionTitle : Bytes) : Except Bytes (Option (Int × Bytes)) :=
  notifyAuthor d authorUserId likerUserId "solution_like" " 点赞了你的题解：「"
    "/solution.html?id=" solutionId likerUsername solutionTitle

/-! ## The handlers -/

/-- The name of an actor who has no row. -/
def someUser : Bytes := Utf8.ofString "某用户"

/-- What a request came to: whether its writes are done, its answer, and what was pushed. -/
structure Outcome (α : Type) where
  wrote : Bool
  answer : Except Envelope α
  pushed : Option (Int × Bytes)
  deriving DecidableEq

/-- An answer of the handler before it has written. -/
def refused {α : Type} (e : Envelope) : Outcome α := ⟨false, .error e, none⟩

/-- The wrapper of the routes answers an exception. -/
def threw {α : Type} (wrote : Bool) : Outcome α :=
  ⟨wrote, .error (internalError (bytes "internal error")), none⟩

/-- The id in the path, `0` if it is no number. -/
def pathId (capture : Option Bytes) : Int := (capture.bind stoi).getD 0

/-- A row of `solutions`. -/
structure SolutionRow where
  userId : Int
  title : Bytes
  likeCount : Int
  deriving DecidableEq, Repr

/-- What `handle_like_solution` meets: the caller, or what `require_authentication` throws, and the
    outcomes of the statements in turn. -/
structure LikeEnv where
  claims : Except Envelope Bytes
  findById : Except Bytes (Option SolutionRow)
  /-- `toggle_solution_like`, with its writes. -/
  toggle : Except Bytes Bool
  updated : Except Bytes (Option SolutionRow)
  username : Except Bytes (Option Bytes)
  dump : Dump

/-- The data of the answer. -/
structure Liked where
  liked : Bool
  likeCount : Int
  deriving DecidableEq, Repr

/-- `handle_like_solution`, from the writes on. -/
def afterLike (env : LikeEnv) (solutionId userId : Int) (solution : SolutionRow) (liked : Bool) :
    Outcome Liked :=
  match env.updated with
  | .error _ => threw true
  | .ok updated =>
    let data : Liked := ⟨liked, (updated.map SolutionRow.likeCount).getD 0⟩
    if liked ∧ solution.userId ≠ userId then
      match env.username with
      | .error _ => threw true
      | .ok username =>
        match notifySolutionLike env.dump solution.userId userId solutionId
            (username.getD someUser) solution.title with
        | .error _ => threw true
        | .ok pushed => ⟨true, .ok data, pushed⟩
    else ⟨true, .ok data, none⟩

/-- `handle_like_solution`, in the wrapper of its route. -/
def handleLikeSolution (env : LikeEnv) (capture : Option Bytes) : Outcome Liked :=
  match env.claims with
  | .error e => refused e
  | .ok callerId =>
    if pathId capture = 0 then refused (invalidInput (bytes "invalid solution id") [])
    else match env.findById with
      | .error _ => threw false
      | .ok none => refused ⟨404, .notFound, bytes "solution not found", []⟩
      | .ok (some solution) =>
        match stoi callerId with
        | none => threw false
        | some userId =>
          match env.toggle with
          | .error _ => threw false
          | .ok liked => afterLike env (pathId capture) userId solution liked

/-- A row of `discussions`. -/
structure DiscussionRow where
  id : Int
  userId : Int
  rootId : Option Int
  title : Option Bytes
  content : Bytes
  deriving DecidableEq, Repr

/-- What `handle_reply_discussion` meets. -/
structure ReplyEnv where
  claims : Except Envelope Bytes
  findById : Except Bytes (Option DiscussionRow)
  /-- `create`, with the id of the reply. -/
  create : Except Bytes Int
  incrementReplyCount : Except Bytes Unit
  username : Except Bytes (Option Bytes)
  dump : Dump

/-- The text that stands for the title of a discussion or a reply. -/
def DiscussionRow.shown (d : DiscussionRow) : Bytes := d.title.getD d.content

/-- `handle_reply_discussion`, from the writes on. -/
def afterReply (env : ReplyEnv) (discussionId userId : Int) (parent : DiscussionRow) (id : Int) :
    Outcome Int :=
  if parent.userId ≠ userId then
    match env.username with
    | .error _ => threw true
    | .ok username =>
      match notifyDiscussionReply env.dump parent.userId userId discussionId
          (username.getD someUser) parent.shown with
      | .error _ => threw true
      | .ok pushed => ⟨true, .ok id, pushed⟩
  else ⟨true, .ok id, none⟩

/-- The body of a reply. `none` is a `content` that is no string, which throws. -/
def replyContent (body : Bytes) : Except Envelope (Option Bytes) :=
  match Json.parse body with
  | some (.obj members) =>
    match (Json.obj members).get? (bytes "content") with
    | none => .error (invalidInput (bytes "content required") [])
    | some (.str content) =>
      if content.isEmpty || 10000 < content.length then
        .error (invalidInput (bytes "content must be 1-10000 chars") [])
      else .ok (some content)
    | some _ => .ok none
  | _ => .error (invalidInput (bytes "invalid body") [])

/-- `handle_reply_discussion`, in the wrapper of its route. -/
def handleReplyDiscussion (env : ReplyEnv) (capture : Option Bytes) (body : Bytes) : Outcome Int :=
  match env.claims with
  | .error e => refused e
  | .ok callerId =>
    if pathId capture = 0 then refused (invalidInput (bytes "invalid discussion id") [])
    else match env.findById with
      | .error _ => threw false
      | .ok none => refused ⟨404, .notFound, bytes "discussion not found", []⟩
      | .ok (some parent) =>
        match replyContent body with
        | .error e => refused e
        | .ok none => threw false
        | .ok (some _) =>
          match stoi callerId with
          | none => threw false
          | some userId =>
            match env.create, env.incrementReplyCount with
            | .error _, _ => threw false
            -- the reply is there, but it is not counted
            | .ok _, .error _ => threw false
            | .ok id, .ok () => afterReply env (pathId capture) userId parent id

/-! ## What can be sent -/

variable {d : Dump} {title username : Bytes} {author actor referenceId : Int}

/-- The first 50 bytes of the title end with a character. -/
def Cuttable (title : Bytes) : Prop := Utf8.WellFormed (title.take 50)

instance (title : Bytes) : Decidable (Cuttable title) :=
  inferInstanceAs (Decidable (Utf8.WellFormed _))

theorem wellFormed_excerpt_iff : Utf8.WellFormed (excerpt title) ↔ Cuttable title := by
  rw [excerpt, Cuttable]
  split_ifs with h
  · have hdots : Utf8.WellFormed (bytes "...") := by decide
    rw [Utf8.wellFormed_append_iff_of_head (b := 0x2E) rfl (.inl (by decide)), and_iff_left hdots]
  · rw [List.take_of_length_le (by omega)]

/-- The text of a notification is UTF-8 exactly if what is put into it is. -/
theorem wellFormed_message_iff {verb : Bytes} (hverb : Utf8.WellFormed verb)
    (hhead : verb.head? = some 0x20) :
    Utf8.WellFormed (username ++ verb ++ excerpt title ++ Utf8.ofString "」") ↔
      Utf8.WellFormed username ∧ Cuttable title := by
  have hcut : (verb ++ excerpt title).head? = some 0x20 := by
    rw [List.head?_append, hhead, Option.some_or]
  have hquote : Utf8.WellFormed (Utf8.ofString "」") := by decide
  rw [Utf8.wellFormed_append_iff_of_head (b := 0xE3) rfl (.inr (by decide)), and_iff_left hquote,
    List.append_assoc, Utf8.wellFormed_append_iff_of_head hcut (.inl (by decide)), hverb.append_iff,
    wellFormed_excerpt_iff]

theorem wellFormed_link (page : String) (h : Utf8.WellFormed (bytes page)) (referenceId : Int) :
    Utf8.WellFormed (bytes page ++ decimalInt referenceId) := by
  refine h.append_iff.2 (Utf8.wellFormed_of_lt fun b hb => ?_)
  have := Json.plain_decimalInt referenceId b hb
  simp only [Json.isPlain, Bool.and_eq_true, decide_eq_true_eq] at this
  exact this.1.1.2

/-- A notification is sent, unless the serialiser throws. -/
theorem notifyAuthor_isOk_iff {type verb page : String} (htype : Utf8.WellFormed (bytes type))
    (hverb : Utf8.WellFormed (Utf8.ofString verb)) (hhead : (Utf8.ofString verb).head? = some 0x20)
    (hpage : Utf8.WellFormed (bytes page)) :
    (∃ x, notifyAuthor d author actor type verb page referenceId username title = .ok x) ↔
      (author ≠ actor → Utf8.WellFormed username ∧ Cuttable title) := by
  rw [notifyAuthor]
  split_ifs with hself
  · exact iff_of_true ⟨_, rfl⟩ fun h => absurd hself h
  · rw [← wellFormed_message_iff hverb hhead]
    simp only [push, Dump.dump, htype, wellFormed_link page hpage, true_and, and_true]
    split_ifs with hm
    · exact iff_of_true ⟨_, rfl⟩ fun _ => hm
    · refine iff_of_false ?_ fun h => hm (h hself)
      rintro ⟨x, hx⟩
      cases hx

theorem notifyDiscussionReply_isOk_iff :
    (∃ x, notifyDiscussionReply d author actor referenceId username title = .ok x) ↔
      (author ≠ actor → Utf8.WellFormed username ∧ Cuttable title) :=
  notifyAuthor_isOk_iff (by decide) (by decide) (by decide) (by decide)

theorem notifySolutionLike_isOk_iff :
    (∃ x, notifySolutionLike d author actor referenceId username title = .ok x) ↔
      (author ≠ actor → Utf8.WellFormed username ∧ Cuttable title) :=
  notifyAuthor_isOk_iff (by decide) (by decide) (by decide) (by decide)

/-! ## The answers -/

/-- If the like is new and there is an author to tell, the notification can be sent. -/
def LikeEnv.Sendable (env : LikeEnv) : Prop :=
  ∀ callerId userId solution username, env.claims = .ok callerId → stoi callerId = some userId →
    env.findById = .ok (some solution) → env.username = .ok username → env.toggle = .ok true →
    solution.userId ≠ userId → Utf8.WellFormed (username.getD someUser) ∧ Cuttable solution.title

/-- If there is an author to tell, the notification can be sent. -/
def ReplyEnv.Sendable (env : ReplyEnv) : Prop :=
  ∀ callerId userId parent username, env.claims = .ok callerId → stoi callerId = some userId →
    env.findById = .ok (some parent) → env.username = .ok username →
    parent.userId ≠ userId → Utf8.WellFormed (username.getD someUser) ∧ Cuttable parent.shown

/-- A request whose writes are done has passed all checks. -/
theorem handleLikeSolution_wrote {env : LikeEnv} {capture : Option Bytes}
    (h : (handleLikeSolution env capture).wrote = true) :
    ∃ callerId userId solution liked, env.claims = .ok callerId ∧ stoi callerId = some userId ∧
      env.findById = .ok (some solution) ∧ env.toggle = .ok liked ∧
      handleLikeSolution env capture = afterLike env (pathId capture) userId solution liked := by
  rw [handleLikeSolution] at h ⊢
  cases hclaims : env.claims with
  | error e => simp [hclaims, refused] at h
  | ok callerId =>
    simp only [hclaims] at h ⊢
    split_ifs at h ⊢ with hid
    · simp [refused] at h
    · cases hfind : env.findById with
      | error e => simp [hfind, threw] at h
      | ok found =>
        cases found with
        | none => simp [hfind, refused] at h
        | some solution =>
          simp only [hfind] at h ⊢
          cases huser : stoi callerId with
          | none => simp [huser, threw] at h
          | some userId =>
            simp only [huser] at h ⊢
            cases htoggle : env.toggle with
            | error e => simp [htoggle, threw] at h
            | ok liked => exact ⟨callerId, userId, solution, liked, rfl, huser, rfl, rfl, rfl⟩

theorem handleReplyDiscussion_wrote {env : ReplyEnv} {capture : Option Bytes} {body : Bytes}
    (h : (handleReplyDiscussion env capture body).wrote = true) :
    ∃ callerId userId parent id, env.claims = .ok callerId ∧ stoi callerId = some userId ∧
      env.findById = .ok (some parent) ∧ env.create = .ok id ∧
      handleReplyDiscussion env capture body =
        afterReply env (pathId capture) userId parent id := by
  -- Every path that ends before the insertion contradicts `h`.
  rw [handleReplyDiscussion] at h ⊢
  cases hclaims : env.claims with
  | error e => simp [hclaims, refused] at h
  | ok callerId =>
    simp only [hclaims] at h ⊢
    split_ifs at h ⊢ with hid
    · simp [refused] at h
    · cases hfind : env.findById with
      | error e => simp [hfind, threw] at h
      | ok found =>
        cases found with
        | none => simp [hfind, refused] at h
        | some parent =>
          simp only [hfind] at h ⊢
          cases hbody : replyContent body with
          | error e => simp [hbody, refused] at h
          | ok content =>
            cases content with
            | none => simp [hbody, threw] at h
            | some content =>
              simp only [hbody] at h ⊢
              cases huser : stoi callerId with
              | none => simp [huser, threw] at h
              | some userId =>
                simp only [huser] at h ⊢
                cases hcreate : env.create with
                | error e => simp [hcreate, threw] at h
                | ok id =>
                  simp only [hcreate] at h ⊢
                  cases hcount : env.incrementReplyCount with
                  | error e => simp [hcount, threw] at h
                  | ok u => exact ⟨callerId, userId, parent, id, rfl, huser, rfl, rfl, rfl⟩

/-- An answer that waits for a notification is a success exactly if the notification is sent. -/
theorem sent_isOk_iff {α : Type} {sent : Except Bytes (Option (Int × Bytes))} {a : α} {P : Prop}
    (h : (∃ x, sent = .ok x) ↔ P) :
    (∃ y, (match sent with
      | .error _ => threw true
      | .ok pushed => (⟨true, .ok a, pushed⟩ : Outcome α)).answer = .ok y) ↔ P := by
  rw [← h]
  cases sent with
  | error e => simp [threw]
  | ok pushed => exact iff_of_true ⟨a, rfl⟩ ⟨pushed, rfl⟩

/-- After the writes of a like and with the statements that follow, only the notification can
    fail. -/
theorem afterLike_isOk_iff {env : LikeEnv} {solutionId userId : Int} {solution : SolutionRow}
    {liked : Bool} {updated : Option SolutionRow} {username : Option Bytes}
    (hupdated : env.updated = .ok updated) (hname : env.username = .ok username) :
    (∃ data, (afterLike env solutionId userId solution liked).answer = .ok data) ↔
      (liked = true → solution.userId ≠ userId →
        Utf8.WellFormed (username.getD someUser) ∧ Cuttable solution.title) := by
  simp only [afterLike, hupdated, hname]
  split_ifs with hnotify
  · rw [sent_isOk_iff notifySolutionLike_isOk_iff]
    exact ⟨fun h _ => h, fun h => h hnotify.1⟩
  · exact iff_of_true ⟨_, rfl⟩ fun hl hne => absurd ⟨hl, hne⟩ hnotify

theorem afterReply_isOk_iff {env : ReplyEnv} {discussionId userId id : Int}
    {parent : DiscussionRow} {username : Option Bytes} (hname : env.username = .ok username) :
    (∃ data, (afterReply env discussionId userId parent id).answer = .ok data) ↔
      (parent.userId ≠ userId →
        Utf8.WellFormed (username.getD someUser) ∧ Cuttable parent.shown) := by
  simp only [afterReply, hname]
  split_ifs with hnotify
  · exact sent_isOk_iff notifyDiscussionReply_isOk_iff
  · exact iff_of_true ⟨_, rfl⟩ fun hne => absurd hne hnotify

/-- A like or a reply whose writes are done, and whose later statements succeed, is answered with
    success exactly if there is nobody to tell, or the name of the actor and the first 50 bytes of
    the title (for a reply to a reply, of its content) are UTF-8. -/
theorem answered_iff (like : LikeEnv) (reply : ReplyEnv) (capture : Option Bytes) (body : Bytes) :
    ((handleLikeSolution like capture).wrote = true → (∃ updated, like.updated = .ok updated) →
      (∃ username, like.username = .ok username) →
      ((∃ data, (handleLikeSolution like capture).answer = .ok data) ↔ like.Sendable)) ∧
    ((handleReplyDiscussion reply capture body).wrote = true →
      (∃ username, reply.username = .ok username) →
      ((∃ id, (handleReplyDiscussion reply capture body).answer = .ok id) ↔ reply.Sendable)) := by
  constructor
  · rintro hw ⟨updated, hupdated⟩ ⟨username, hname⟩
    obtain ⟨callerId, userId, solution, liked, hclaims, huser, hfind, htoggle, he⟩ :=
      handleLikeSolution_wrote hw
    rw [he, afterLike_isOk_iff hupdated hname]
    constructor
    · intro h c u sol name hc hu hsol hn hl
      cases hclaims.symm.trans hc
      cases huser.symm.trans hu
      cases hfind.symm.trans hsol
      cases hname.symm.trans hn
      cases htoggle.symm.trans hl
      exact h rfl
    · rintro h rfl
      exact h callerId userId solution username hclaims huser hfind hname htoggle
  · rintro hw ⟨username, hname⟩
    obtain ⟨callerId, userId, parent, id, hclaims, huser, hfind, -, he⟩ :=
      handleReplyDiscussion_wrote hw
    rw [he, afterReply_isOk_iff hname]
    constructor
    · intro h c u d name hc hu hd hn
      cases hclaims.symm.trans hc
      cases huser.symm.trans hu
      cases hfind.symm.trans hd
      cases hname.symm.trans hn
      exact h
    · intro h
      exact h callerId userId parent username hclaims huser hfind hname

/-- A serialiser. -/
def plainDump : Dump := ⟨NotificationRow.message, bytes "type_error.316"⟩

/-- The user 2 likes the solution 5 of the user 1 for the first time. -/
def likeOf (title : Bytes) : LikeEnv where
  claims := .ok (bytes "2")
  findById := .ok (some ⟨1, title, 0⟩)
  toggle := .ok true
  updated := .ok (some ⟨1, title, 1⟩)
  username := .ok (some (bytes "bob"))
  dump := plainDump

/-- The user 2 replies to the discussion 5 of the user 1. -/
def replyTo (title : Bytes) : ReplyEnv where
  claims := .ok (bytes "2")
  findById := .ok (some ⟨5, 1, none, some title, bytes "x"⟩)
  create := .ok 9
  incrementReplyCount := .ok ()
  username := .ok (some (bytes "bob"))
  dump := plainDump

/-- The body of a reply. -/
def replyBody : Bytes := bytes "\x7b\"content\":\"ok\"\x7d"

/-- 16 characters of three bytes. -/
def shortTitle : Bytes := (List.replicate 16 (Utf8.ofString "题")).flatten

/-- 17 of them. -/
def longTitle : Bytes := (List.replicate 17 (Utf8.ofString "题")).flatten

theorem answered_short :
    (∃ data, (handleLikeSolution (likeOf shortTitle) (some (bytes "5"))).answer = .ok data) ∧
    ∃ id, (handleReplyDiscussion (replyTo shortTitle) (some (bytes "5")) replyBody).answer =
      .ok id := by
  have hsend : Utf8.WellFormed (bytes "bob") ∧ Cuttable shortTitle := by decide +kernel
  obtain ⟨hlike, hreply⟩ :=
    answered_iff (likeOf shortTitle) (replyTo shortTitle) (some (bytes "5")) replyBody
  constructor
  · refine (hlike (by decide +kernel) ⟨_, rfl⟩ ⟨_, rfl⟩).2 ?_
    rintro c u sol name - - ⟨⟩ ⟨⟩ - -
    exact hsend
  · refine (hreply (by decide +kernel) ⟨_, rfl⟩).2 ?_
    rintro c u d name - - ⟨⟩ ⟨⟩ -
    exact hsend

/-- The 50 bytes end inside the last character of the longer title. -/
theorem not_answered_long :
    Utf8.WellFormed longTitle ∧
    handleLikeSolution (likeOf longTitle) (some (bytes "5")) =
      ⟨true, .error (internalError (bytes "internal error")), none⟩ ∧
    handleReplyDiscussion (replyTo longTitle) (some (bytes "5")) replyBody =
      ⟨true, .error (internalError (bytes "internal error")), none⟩ := by
  refine ⟨by decide +kernel, by decide +kernel, by decide +kernel⟩

end LiteCode.NotifyAuthor
