import LiteCode.Lib.Cut
import LiteCode.Routes.Items

/-!
# Ids in paths

A handler whose route has a `(\d+)` is to act on the item with this id. A comment in
`handle_reply_discussion` says why the id is taken from the capture: the last slash of the path
stands in front of `replies` or `like`, so that `std::stoi` throws, and a valid request is answered
with "invalid id". The route that marks a notification as read ends with `/read`, and its handler
looks for the last slash all the same.

* `Stmt.items`, `Stmt.refers`: the items that a statement reads or changes, and those that it counts
  for or refers to;
* `ActsOn`: a handler does not answer with an invalid id; it goes to the item with the id first, and
  to no other of its kind. Counters and references go to this item, or to those that its row or the
  body names: the root of a discussion, the parent of a comment, the solution of a comment;
* `capture_eq_some_iff`: the matches of the patterns; `pathId_capture`, `pathId_lastSlash`: where
  the id is read rightly;
* `actsOn_iff`: all handlers act on the item, but for the one that marks a notification as read,
  which does so for no caller.
-/

namespace LiteCode.Items

open ErrorHandler NotifyAuthor Program

/-! ## What is meant -/

/-- The items that a statement reads or changes. -/
def Stmt.items : Stmt → List Item
  | .markRead _ n => [⟨.notification, n⟩]
  | .findSolution n | .toggleSolutionLike n _ | .softDeleteSolution n | .listForSolution n _ _
  | .countForSolution n => [⟨.solution, n⟩]
  | .findComment n | .toggleCommentLike n _ | .softDeleteComment n => [⟨.comment, n⟩]
  | .findDiscussion n | .listReplies n | .toggleDiscussionLike n _ | .softDeleteDiscussion n =>
    [⟨.discussion, n⟩]
  | .findProblem n | .countForProblem n => [⟨.problem, n⟩]
  | _ => []

/-- The items whose counter a statement changes, or to which a new row refers. -/
def Stmt.refers : Stmt → List Item
  | .incrementCommentCount n | .decrementCommentCount n => [⟨.solution, n⟩]
  | .incrementReplyCount n | .decrementReplyCount n => [⟨.discussion, n⟩]
  | .createComment c => ⟨.solution, c.solutionId⟩ :: (c.parentId.map (Item.mk .comment)).toList
  | .createReply d => ⟨.discussion, d.parentId⟩ :: ⟨.discussion, d.rootId⟩ ::
      (d.problemId.map (Item.mk .problem)).toList
  | .notifySolutionLike _ _ n _ _ | .notifySolutionComment _ _ n _ _ _ _ => [⟨.solution, n⟩]
  | .notifySolutionCommentReply _ _ n _ parentId _ _ _ => [⟨.solution, n⟩, ⟨.comment, parentId⟩]
  | .notifyDiscussionReply _ _ n _ _ => [⟨.discussion, n⟩]
  | _ => []

/-- The items that are named in a row of `discussions`. -/
def DiscussionRow.names (d : DiscussionRow) : List Item :=
  ⟨.discussion, d.id⟩ :: (d.rootId.map (Item.mk .discussion)).toList ++
    (d.parentId.map (Item.mk .discussion)).toList ++ (d.problemId.map (Item.mk .problem)).toList

/-- What the statements come to. -/
abbrev Env : Type := List Stmt → (s : Stmt) → Outcome s

section

variable (floatToInt : Decimal → Int32)

/-- The parent comment that a body names. -/
def bodyParent (body : Bytes) : Option Int :=
  (Json.parse body).bind fun j => (j.get? (bytes "parent_id")).bind (getInt? floatToInt)

/-- The items that are named in the row of an item, or in the body that is sent to it. -/
def named (env : Env) (body : Bytes) : Item → List Item
  | ⟨.solution, _⟩ => ((bodyParent floatToInt body).map (Item.mk .comment)).toList
  | ⟨.comment, n⟩ =>
    match env [] (.findComment n) with
    | .ok (some c) => [⟨.solution, c.solutionId⟩]
    | _ => []
  | ⟨.discussion, n⟩ =>
    match env [] (.findDiscussion n) with
    | .ok (some d) => d.names
    | _ => []
  | _ => []

/-- The routes without a caller. -/
def Route.isPublic : Route → Bool
  | .getSolution | .listSolutionComments | .getDiscussion | .countProblemDiscussions => true
  | _ => false

/-- A handler acts on the item `t`. -/
structure Acts (env : Env) (letIn : Prop) (t : Item) (others : List Item) (m : Handler Answer) :
    Prop where
  valid : ∀ k, (m.run env []).1 ≠ .error (invalidId k)
  /-- A caller who is let in gets to the item. -/
  first : letIn → ∃ s, (m.run env []).2.head? = some s ∧ s.items = [t]
  /-- There is no other item of its kind. -/
  items : ∀ s ∈ (m.run env []).2, ∀ i ∈ s.items, i = t ∨ i.kind ≠ t.kind ∧ i ∈ others
  refers : ∀ s ∈ (m.run env []).2, ∀ i ∈ s.refers, i = t ∨ i ∈ others

/-- The handler of a route acts on the item with an id. -/
def ActsOn (env : Env) (r : Route) (req : Request) (n : Int) : Prop :=
  Acts env (r.isPublic = true ∨ ∃ claims, req.claims = .ok claims) ⟨r.kind, n⟩
    (named floatToInt env req.body ⟨r.kind, n⟩) (r.handle floatToInt req)

end

/-- The pattern of a route matches a path, and its capture denotes a positive `int`. -/
def Route.Denotes (r : Route) (path : Bytes) (n : Int) : Prop :=
  ∃ digits, r.capture path = some digits ∧ (Json.digitsVal digits : Int) = n ∧
    1 ≤ n ∧ n ≤ 2 ^ 31 - 1

/-- An id that a path denotes is positive. -/
theorem Route.Denotes.one_le {r : Route} {path : Bytes} {n : Int} (h : r.Denotes path n) :
    1 ≤ n := by
  obtain ⟨_, _, _, hpos, _⟩ := h
  exact hpos

/-! ## Paths -/

variable {r : Route} {path digits s : Bytes} {n : Int}

/-- The text after a `(\d+)` does not start with a digit. -/
theorem noDigit_pattern (r : Route) : NoDigit r.pattern.2 := by
  cases r <;> rintro b ⟨⟩ <;> rfl

/-- The matches of a pattern. -/
theorem capture_eq_some_iff : r.capture path = some digits ↔
    path = r.pattern.1 ++ digits ++ r.pattern.2 ∧ digits ≠ [] ∧
      ∀ b ∈ digits, Json.isDigit b = true := by
  constructor
  · intro h
    rw [Route.capture] at h
    dsimp only at h
    split_ifs at h with hmatch
    obtain ⟨hstart, hne, htail⟩ := hmatch
    cases h
    refine ⟨?_, hne, fun b => List.mem_takeWhile_imp⟩
    calc
      path = path.take r.pattern.1.length ++ path.drop r.pattern.1.length :=
        (List.take_append_drop ..).symm
      _ = r.pattern.1 ++ ((path.drop r.pattern.1.length).takeWhile Json.isDigit ++
            (path.drop r.pattern.1.length).dropWhile Json.isDigit) := by
        rw [hstart, List.takeWhile_append_dropWhile]
      _ = _ := by rw [htail, List.append_assoc]
  · rintro ⟨rfl, hne, hdigit⟩
    have htake := takeWhile_digits hdigit (noDigit_pattern r)
    have hdrop := dropWhile_digits hdigit (noDigit_pattern r)
    rw [Route.capture]
    dsimp only
    rw [List.append_assoc, List.take_left, List.drop_left, htake, hdrop, if_pos ⟨rfl, hne, rfl⟩]

/-- What is behind the last slash has none. -/
theorem afterLastSlash_append {a b : Bytes} (hb : 0x2F ∉ b) :
    afterLastSlash (a ++ 0x2F :: b) = some b := by
  have hslash : (a ++ 0x2F :: b).contains 0x2F = true :=
    List.contains_iff_mem.2 (List.mem_append_right a List.mem_cons_self)
  rw [afterLastSlash, if_pos hslash, List.rtakeWhile, List.reverse_append, List.reverse_cons,
    List.append_assoc, List.singleton_append, takeWhile_ne_append (by simpa using hb),
    List.reverse_reverse]

/-- There is a slash in front of the `(\d+)`. -/
theorem pattern_fst (r : Route) : ∃ a, r.pattern.1 = a ++ [0x2F] :=
  ⟨r.pattern.1.dropLast, by cases r <;> rfl⟩

theorem slash_notMem (h : ∀ b ∈ digits, Json.isDigit b = true) : 0x2F ∉ digits :=
  fun hmem => absurd (h _ hmem) (by decide)

/-- The last slash is the one in front of the id, if nothing follows it. -/
theorem afterLastSlash_capture (h : r.capture path = some digits) (htail : r.pattern.2 = []) :
    afterLastSlash path = some digits := by
  obtain ⟨rfl, -, hdigit⟩ := capture_eq_some_iff.1 h
  obtain ⟨a, ha⟩ := pattern_fst r
  rw [htail, ha, List.append_nil, List.append_assoc, List.singleton_append]
  exact afterLastSlash_append (slash_notMem hdigit)

/-- What follows the last slash of a notification that is read. -/
theorem afterLastSlash_markRead (h : Route.markRead.capture path = some digits) :
    afterLastSlash path = some (bytes "read") := by
  obtain ⟨rfl, -, -⟩ := capture_eq_some_iff.1 h
  exact afterLastSlash_append (by decide)

/-- A capture is read as the number that it denotes. -/
theorem pathId_capture (h : r.Denotes path n) : pathId (r.capture path) = n := by
  obtain ⟨digits, hcapture, rfl, -, hmax⟩ := h
  obtain ⟨-, hne, hdigit⟩ := capture_eq_some_iff.1 hcapture
  rw [hcapture, pathId, Option.bind_some, stoi_digits hne hdigit (by omega)]
  rfl

/-- The last segment of the path is read as its number. -/
theorem pathId_lastSlash (h : r.Denotes path n) (htail : r.pattern.2 = []) :
    pathId (afterLastSlash path) = n := by
  obtain ⟨digits, hcapture, -⟩ := id h
  rw [afterLastSlash_capture hcapture htail, ← hcapture]
  exact pathId_capture h

/-! ## Answers -/

/-- An answer that is not about an id. -/
def NotInvalid (e : Envelope) : Prop := ∀ k, e ≠ invalidId k

/-- An answer with another status than 400 is not about an id. -/
theorem notInvalid_of_status {status : Nat} {code : ErrorCode} {m : Bytes} {l : List Detail}
    (h : status ≠ 400) : NotInvalid ⟨status, code, m, l⟩ := by
  rintro k ⟨⟩
  exact h rfl

/-- Nor is one whose message has another first letter than `invalid`. -/
theorem notInvalid_of_head {m : Bytes} {l : List Detail} (h : m.head? ≠ some 0x69) :
    NotInvalid (invalidInput m l) := by
  intro k hk
  exact h (congrArg (fun e => e.message.head?) hk)

theorem notInvalid_body : NotInvalid (invalidInput (bytes "invalid body") []) := by
  intro k hk
  have hlength := congrArg (fun e => e.message.length) hk
  revert hlength
  cases k <;> decide

/-! ## Handlers -/

variable {env : Env} {letIn : Prop} {t : Item} {others : List Item} {req : Request} {α : Type}

/-- A statement of a handler that acts on an item. -/
def Fine (t : Item) (others : List Item) (s : Stmt) : Prop :=
  (∀ i ∈ s.items, i = t ∨ i.kind ≠ t.kind ∧ i ∈ others) ∧ ∀ i ∈ s.refers, i = t ∨ i ∈ others

/-- A statement about the item itself. -/
theorem fine_item {s : Stmt} (hi : s.items = [t]) (hr : s.refers = []) : Fine t others s := by
  refine ⟨fun i h => .inl ?_, fun i h => ?_⟩
  · rw [hi] at h
    exact List.mem_singleton.1 h
  · rw [hr] at h
    cases h

/-- A statement about what the item refers to. -/
theorem fine_refers {s : Stmt} (hi : s.items = []) (hr : ∀ i ∈ s.refers, i = t ∨ i ∈ others) :
    Fine t others s := by
  refine ⟨fun i h => ?_, hr⟩
  rw [hi] at h
  cases h

theorem fine_none {s : Stmt} (hi : s.items = []) (hr : s.refers = []) : Fine t others s :=
  fine_refers hi fun i h => by
    rw [hr] at h
    cases h

/-- A statement about an item of another kind that was named. -/
theorem fine_other {s : Stmt} {i : Item} (hi : s.items = [i]) (hr : s.refers = [])
    (hk : i.kind ≠ t.kind) (ho : i ∈ others) : Fine t others s := by
  refine ⟨fun j h => .inr ?_, fun j h => ?_⟩
  · rw [hi] at h
    cases List.mem_singleton.1 h
    exact ⟨hk, ho⟩
  · rw [hr] at h
    cases h

/-- The statements and the errors of a part of a handler. -/
def Good (t : Item) (others : List Item) (m : Handler α) : Prop :=
  All (Fine t others) NotInvalid (fun _ => True) m

theorem good_ret (a : α) : Good t others (.ret a) := trivial

theorem good_fail {e : Envelope} (h : NotInvalid e) : Good t others (.fail e : Handler α) := h

/-- Good handlers compose. -/
theorem Good.bind {β : Type} {m : Handler α} {f : α → Handler β} (hm : Good t others m)
    (hf : ∀ a, Good t others (f a)) : Good t others (m >>= f) :=
  All.bind hm fun a _ => hf a

/-- A statement that is fine makes a good handler. -/
theorem good_query {s : Stmt} (h : Fine t others s) : Good t others (query s) := by
  refine ⟨h, fun a => ?_⟩
  cases a with
  | error what => exact notInvalid_of_status (by decide)
  | ok a => trivial

/-- So it does where its failure is ignored. -/
theorem good_attempt {s : Stmt} (h : Fine t others s) : Good t others (attempt s) :=
  ⟨h, fun _ => trivial⟩

/-- The user id comes from the token, without a statement. -/
theorem good_id (claims : Claims) : Good t others claims.id := by
  rw [Claims.id]
  split
  · trivial
  · exact notInvalid_of_status (by decide)

/-- The first statement is about the item. -/
theorem acts_query {s : Stmt} {k : s.Result → Handler Answer} (hi : s.items = [t])
    (hr : s.refers = []) (hk : ∀ a, env [] s = .ok a → Good t others (k a)) :
    Acts env letIn t others (query s >>= k) := by
  obtain ⟨next, hnext, hgood⟩ : ∃ next, query s >>= k = .op s next ∧
      Good t others (next (env [] s)) := by
    refine ⟨_, rfl, ?_⟩
    dsimp only
    cases ha : env [] s with
    | error what => exact notInvalid_of_status (by decide)
    | ok a => exact hk a ha
  obtain ⟨ops, hops, hP, hE, -⟩ := All.run hgood env [s]
  have hrun : (query s >>= k).run env [] = (next (env [] s)).run env [s] := by
    rw [hnext]
    rfl
  have hfine : ∀ s' ∈ [s] ++ ops, Fine t others s' := List.forall_mem_cons.2 ⟨fine_item hi hr, hP⟩
  rw [← hops, ← hrun] at hfine
  refine ⟨fun k' hk' => ?_, fun _ => ⟨s, ?_, hi⟩, fun s' hs => (hfine s' hs).1,
    fun s' hs => (hfine s' hs).2⟩
  · rw [hrun] at hk'
    exact hE _ hk' k' rfl
  · rw [hrun, hops]
    rfl

/-- The handler has no statement. -/
theorem acts_fail {e : Envelope} (he : NotInvalid e) (hlet : ¬letIn) :
    Acts env letIn t others (.fail e) := by
  refine ⟨fun k hk => he k (Except.error.inj hk), fun h => absurd h hlet, ?_, ?_⟩ <;> rintro s ⟨⟩

/-- Behind a valid id the handler acts on it. -/
theorem acts_itemId {kd : Kind} {text : Option Bytes} {k : Int → Handler Answer}
    (hid : pathId text = n) (hn : 1 ≤ n) (h : Acts env letIn t others (k n)) :
    Acts env letIn t others (itemId kd text >>= k) := by
  have hne : pathId text ≠ 0 := by omega
  rw [itemId, if_neg hne, hid, ret_bind]
  exact h

/-- So does one that asks for a token first. -/
theorem acts_authenticated {k : Claims → Handler Answer}
    (h : ∀ claims, req.claims = .ok claims →
      Acts env (false = true ∨ ∃ claims, req.claims = .ok claims) t others (k claims)) :
    Acts env (false = true ∨ ∃ claims, req.claims = .ok claims) t others
      (requireAuthentication req >>= k) := by
  cases hclaims : req.claims with
  | error message =>
    rw [requireAuthentication, hclaims]
    exact acts_fail (notInvalid_of_status (by decide)) (by simp)
  | ok claims =>
    have := h claims hclaims
    rw [hclaims] at this
    rw [requireAuthentication, hclaims]
    exact this

/-- A handler with a caller, up to its first statement. -/
theorem acts_caller {kd : Kind} {text : Option Bytes} {s : Int → Stmt}
    {k : Claims → (id : Int) → (s id).Result → Handler Answer} (hid : pathId text = n)
    (hn : 1 ≤ n) (hi : (s n).items = [t]) (hr : (s n).refers = [])
    (hk : ∀ claims a, env [] (s n) = .ok a → Good t others (k claims n a)) :
    Acts env (false = true ∨ ∃ claims, req.claims = .ok claims) t others
      (requireAuthentication req >>= fun claims => itemId kd text >>= fun id =>
        query (s id) >>= k claims id) :=
  acts_authenticated fun claims _ => acts_itemId hid hn (acts_query hi hr (hk claims))

/-! ## Routes -/

variable {floatToInt : Decimal → Int32}

theorem actsOn_getSolution (h : Route.getSolution.Denotes req.path n) :
    ActsOn floatToInt env .getSolution req n := by
  refine acts_itemId (pathId_lastSlash h rfl) h.one_le (acts_query rfl rfl fun found _ => ?_)
  cases found with
  | none => exact good_fail (notInvalid_of_status (by decide))
  | some solution => exact (good_query (fine_none rfl rfl)).bind fun _ => good_ret _

theorem actsOn_likeSolution (h : Route.likeSolution.Denotes req.path n) :
    ActsOn floatToInt env .likeSolution req n := by
  refine acts_caller (pathId_capture h) h.one_le rfl rfl fun claims found _ => ?_
  cases found with
  | none => exact good_fail (notInvalid_of_status (by decide))
  | some solution =>
    refine (good_id claims).bind fun userId => (good_query (fine_item rfl rfl)).bind fun liked =>
      (good_query (fine_item rfl rfl)).bind fun updated => ?_
    dsimp only
    split_ifs
    · refine (good_query (fine_none rfl rfl)).bind fun username =>
        (good_query (fine_refers rfl ?_)).bind fun _ => good_ret _
      exact fun i hi => .inl (List.mem_singleton.1 hi)
    · exact good_ret _

theorem actsOn_deleteSolution (h : Route.deleteSolution.Denotes req.path n) :
    ActsOn floatToInt env .deleteSolution req n := by
  refine acts_caller (pathId_lastSlash h rfl) h.one_le rfl rfl fun claims found _ => ?_
  cases found with
  | none => exact good_fail (notInvalid_of_status (by decide))
  | some solution =>
    refine (good_id claims).bind fun userId => ?_
    split_ifs
    · exact good_fail (notInvalid_of_status (by decide))
    · exact (good_query (fine_item rfl rfl)).bind fun _ => good_ret _

theorem actsOn_listSolutionComments (h : Route.listSolutionComments.Denotes req.path n) :
    ActsOn floatToInt env .listSolutionComments req n := by
  refine acts_itemId (pathId_capture h) h.one_le (acts_query rfl rfl fun found _ => ?_)
  cases found with
  | none => exact good_fail (notInvalid_of_status (by decide))
  | some solution =>
    exact (good_query (fine_item rfl rfl)).bind fun items =>
      (good_query (fine_item rfl rfl)).bind fun total => good_ret _

/-- A body is read, or it is answered. -/
theorem readContent_cases (body : Bytes) :
    (∃ j content, readContent body = .ret (j, content) ∧ Json.parse body = some j) ∨
      ∃ e, readContent body = .fail e ∧ NotInvalid e := by
  rw [readContent]
  split
  · next members hparse =>
    split
    · exact .inr ⟨_, rfl, notInvalid_of_head (by decide)⟩
    · exact .inl ⟨_, _, rfl, hparse⟩
    · exact .inr ⟨_, rfl, notInvalid_of_status (by decide)⟩
  · exact .inr ⟨_, rfl, notInvalid_body⟩

/-- The parent of a comment is the one that the body names. -/
theorem all_parentComment {solutionId : Int} {j : Json} {body : Bytes}
    (hparse : Json.parse body = some j) (ht : t.kind = .solution)
    (hothers : others = ((bodyParent floatToInt body).map (Item.mk .comment)).toList) :
    All (Fine t others) NotInvalid (fun parentId => ∀ pid ∈ parentId, ⟨.comment, pid⟩ ∈ others)
      (parentComment floatToInt solutionId j) := by
  have hmust : NotInvalid (invalidInput (bytes "parent_id must be int") []) :=
    notInvalid_of_head (by decide)
  have hnone : ∀ pid ∈ (none : Option Int), ⟨.comment, pid⟩ ∈ others := by rintro pid ⟨⟩
  rw [parentComment]
  split
  · exact hnone
  · exact hnone
  · next v _ hv =>
    split
    · exact hmust
    · next pid hpid =>
      have hnamed : ⟨.comment, pid⟩ ∈ others := by
        rw [hothers, bodyParent, hparse, Option.bind_some, hv, Option.bind_some, hpid]
        exact List.mem_singleton_self _
      have hkind : Kind.comment ≠ t.kind := by
        rw [ht]
        decide
      split_ifs
      · refine All.bind (good_attempt (fine_other rfl rfl hkind hnamed)) fun found _ => ?_
        cases found with
        | error what => exact hmust
        | ok found =>
          cases found with
          | none => exact notInvalid_of_status (by decide)
          | some parent =>
            dsimp only
            split_ifs
            · rintro _ ⟨⟩
              exact hnamed
            · exact notInvalid_of_head (by decide)
      · exact hnone

theorem comment_ne_solution : Kind.comment ≠ .solution := by decide

/-- The notification of the author is about the solution and the comment. -/
theorem good_notifyComment {solution : SolutionRow} {c : NewComment} {commentId : Int}
    (ht : t = ⟨.solution, c.solutionId⟩) (hc : ∀ pid ∈ c.parentId, ⟨.comment, pid⟩ ∈ others) :
    Good t others (notifyComment solution c commentId) := by
  rw [notifyComment]
  refine (good_attempt (fine_none rfl rfl)).bind fun username => ?_
  cases username with
  | error what => exact good_ret ()
  | ok username =>
    dsimp only
    split
    -- a reply is told to the author of the parent, and to nobody else
    · next pid hpid =>
      have hnamed := hc pid hpid
      have hkind : Kind.comment ≠ t.kind := by
        rw [ht]
        exact comment_ne_solution
      refine (good_attempt (fine_other rfl rfl hkind hnamed)).bind fun found => ?_
      split
      · split_ifs
        · refine (good_attempt (fine_refers rfl fun i hi => ?_)).bind fun _ => good_ret ()
          rcases List.mem_cons.1 hi with rfl | hi
          · exact .inl ht.symm
          · cases List.mem_singleton.1 hi
            exact .inr hnamed
        · exact good_ret ()
      · exact good_ret ()
    · split_ifs
      · refine (good_attempt (fine_refers rfl fun i hi => ?_)).bind fun _ => good_ret ()
        exact .inl ((List.mem_singleton.1 hi).trans ht.symm)
      · exact good_ret ()

theorem actsOn_createSolutionComment (h : Route.createSolutionComment.Denotes req.path n) :
    ActsOn floatToInt env .createSolutionComment req n := by
  refine acts_caller (pathId_capture h) h.one_le rfl rfl fun claims found _ => ?_
  cases found with
  | none => exact good_fail (notInvalid_of_status (by decide))
  | some solution =>
    dsimp only
    rcases readContent_cases req.body with ⟨j, content, hread, hparse⟩ | ⟨e, hread, he⟩
    · rw [hread, ret_bind]
      dsimp only
      split_ifs
      · exact good_fail (notInvalid_of_head (by decide))
      · refine (good_id claims).bind fun userId =>
          All.bind (all_parentComment hparse rfl rfl) fun parentId hparent => ?_
        refine (good_query (fine_refers rfl fun i hi => ?_)).bind fun commentId =>
          (good_query (fine_refers rfl ?_)).bind fun _ =>
            (good_notifyComment rfl hparent).bind fun _ => good_ret _
        rotate_left
        · exact fun i hi => .inl (List.mem_singleton.1 hi)
        rcases List.mem_cons.1 hi with rfl | hi
        · exact .inl rfl
        · obtain ⟨pid, hpid, rfl⟩ := Option.map_eq_some_iff.1 (Option.mem_toList.1 hi)
          exact .inr (hparent pid hpid)
    · rw [hread, fail_bind]
      exact good_fail he

theorem actsOn_deleteSolutionComment (h : Route.deleteSolutionComment.Denotes req.path n) :
    ActsOn floatToInt env .deleteSolutionComment req n := by
  refine acts_caller (pathId_capture h) h.one_le rfl rfl fun claims found hfound => ?_
  cases found with
  | none => exact good_fail (notInvalid_of_status (by decide))
  | some comment =>
    have hnamed : ⟨.solution, comment.solutionId⟩ ∈
        named floatToInt env req.body ⟨.comment, n⟩ := by
      rw [named, hfound]
      exact List.mem_singleton_self _
    refine (good_id claims).bind fun userId => ?_
    split_ifs
    · exact good_fail (notInvalid_of_status (by decide))
    · refine (good_query (fine_item rfl rfl)).bind fun _ =>
        (good_query (fine_refers rfl fun i hi => .inr ?_)).bind fun _ => good_ret _
      cases List.mem_singleton.1 hi
      exact hnamed

theorem actsOn_likeSolutionComment (h : Route.likeSolutionComment.Denotes req.path n) :
    ActsOn floatToInt env .likeSolutionComment req n := by
  refine acts_caller (pathId_capture h) h.one_le rfl rfl fun claims found _ => ?_
  cases found with
  | none => exact good_fail (notInvalid_of_status (by decide))
  | some comment =>
    exact (good_id claims).bind fun userId => (good_query (fine_item rfl rfl)).bind fun liked =>
      (good_query (fine_item rfl rfl)).bind fun updated => good_ret _

/-! ## Routes of discussions -/

/-- What a discussion names is what its row refers to. -/
theorem named_discussion {d : DiscussionRow} {body : Bytes}
    (h : env [] (.findDiscussion n) = .ok (some d)) :
    named floatToInt env body ⟨.discussion, n⟩ = d.names := by
  rw [named, h]

theorem problem_ne_discussion : Kind.problem ≠ .discussion := by decide

theorem problem_mem_names {d : DiscussionRow} {p : Int} (h : d.problemId = some p) :
    ⟨.problem, p⟩ ∈ d.names := by
  simp [DiscussionRow.names, h]

theorem root_mem_names (d : DiscussionRow) : ⟨.discussion, d.rootId.getD d.id⟩ ∈ d.names := by
  cases h : d.rootId <;> simp [DiscussionRow.names, h]

theorem rootOfReply_mem_names {d : DiscussionRow} {p : Int} (h : d.parentId = some p) :
    ⟨.discussion, d.rootId.getD p⟩ ∈ d.names := by
  cases hr : d.rootId <;> simp [DiscussionRow.names, h, hr]

theorem actsOn_getDiscussion (h : Route.getDiscussion.Denotes req.path n) :
    ActsOn floatToInt env .getDiscussion req n := by
  refine acts_itemId (pathId_capture h) h.one_le (acts_query rfl rfl fun found hfound => ?_)
  cases found with
  | none => exact good_fail (notInvalid_of_status (by decide))
  | some d =>
    rw [Route.kind, named_discussion hfound]
    have hproblem : Good ⟨.discussion, n⟩ d.names (problemOf d.problemId) := by
      cases hp : d.problemId with
      | none => exact good_ret none
      | some p => exact good_query (fine_other rfl rfl problem_ne_discussion (problem_mem_names hp))
    exact (good_query (fine_none rfl rfl)).bind fun user => hproblem.bind fun problem =>
      (good_query (fine_item rfl rfl)).bind fun replies => good_ret _

theorem actsOn_replyDiscussion (h : Route.replyDiscussion.Denotes req.path n) :
    ActsOn floatToInt env .replyDiscussion req n := by
  refine acts_caller (pathId_capture h) h.one_le rfl rfl fun claims found hfound => ?_
  cases found with
  | none => exact good_fail (notInvalid_of_status (by decide))
  | some parent =>
    rw [Route.kind, named_discussion hfound]
    dsimp only
    rcases readContent_cases req.body with ⟨j, content, hread, -⟩ | ⟨e, hread, he⟩
    · rw [hread, ret_bind]
      dsimp only
      split_ifs
      · exact good_fail (notInvalid_of_head (by decide))
      · have hroot := root_mem_names parent
        refine (good_id claims).bind fun userId =>
          (good_query (fine_refers rfl fun i hi => ?_)).bind fun id =>
            (good_query (fine_refers rfl fun i hi => ?_)).bind fun _ => ?_
        -- the new row has the parent, the root and the problem
        · rcases List.mem_cons.1 hi with rfl | hi
          · exact .inl rfl
          · rcases List.mem_cons.1 hi with rfl | hi
            · exact .inr hroot
            · obtain ⟨p, hp, rfl⟩ := Option.map_eq_some_iff.1 (Option.mem_toList.1 hi)
              exact .inr (problem_mem_names hp)
        -- it is counted at the root
        · cases List.mem_singleton.1 hi
          exact .inr hroot
        · split_ifs
          · refine (good_query (fine_none rfl rfl)).bind fun username =>
              (good_query (fine_refers rfl fun i hi => ?_)).bind fun _ => good_ret _
            exact .inl (List.mem_singleton.1 hi)
          · exact good_ret _
    · rw [hread, fail_bind]
      exact good_fail he

theorem actsOn_likeDiscussion (h : Route.likeDiscussion.Denotes req.path n) :
    ActsOn floatToInt env .likeDiscussion req n := by
  refine acts_caller (pathId_capture h) h.one_le rfl rfl fun claims found _ => ?_
  cases found with
  | none => exact good_fail (notInvalid_of_status (by decide))
  | some d =>
    exact (good_id claims).bind fun userId => (good_query (fine_item rfl rfl)).bind fun liked =>
      (good_query (fine_item rfl rfl)).bind fun updated => good_ret _

theorem actsOn_deleteDiscussion (h : Route.deleteDiscussion.Denotes req.path n) :
    ActsOn floatToInt env .deleteDiscussion req n := by
  refine acts_caller (pathId_capture h) h.one_le rfl rfl fun claims found hfound => ?_
  cases found with
  | none => exact good_fail (notInvalid_of_status (by decide))
  | some d =>
    rw [Route.kind, named_discussion hfound]
    refine (good_id claims).bind fun userId => ?_
    split_ifs
    · exact good_fail (notInvalid_of_status (by decide))
    · refine (good_query (fine_item rfl rfl)).bind fun _ => ?_
      split
      · next parentId hparent =>
        refine (good_query (fine_refers rfl fun i hi => .inr ?_)).bind fun _ => good_ret _
        cases List.mem_singleton.1 hi
        exact rootOfReply_mem_names hparent
      · exact good_ret _

theorem actsOn_countProblemDiscussions (h : Route.countProblemDiscussions.Denotes req.path n) :
    ActsOn floatToInt env .countProblemDiscussions req n :=
  acts_itemId (pathId_lastSlash h rfl) h.one_le (acts_query rfl rfl fun _ _ => good_ret _)

/-! ## Notifications -/

/-- Behind the last slash there is no number. -/
theorem pathId_markRead (h : Route.markRead.Denotes req.path n) :
    pathId (afterLastSlash req.path) = 0 := by
  obtain ⟨digits, hcapture, -⟩ := h
  rw [afterLastSlash_markRead hcapture]
  decide

/-- A caller does not get to the notification. -/
theorem not_actsOn_markRead {claims : Claims} (h : Route.markRead.Denotes req.path n)
    (hclaims : req.claims = .ok claims) : ¬ActsOn floatToInt env .markRead req n := by
  intro hacts
  have hrun : handleMarkRead req = .fail internal ∨
      handleMarkRead req = .fail (invalidId .notification) := by
    rw [handleMarkRead, requireAuthentication, hclaims]
    dsimp only
    rw [ret_bind, Claims.id]
    -- the number of the user is read before the path
    split
    · rw [ret_bind, itemId, if_pos (pathId_markRead h), fail_bind]
      exact .inr rfl
    · exact .inl rfl
  -- there is no statement, and so no first one
  obtain ⟨s, hs, -⟩ := hacts.first (.inr ⟨claims, hclaims⟩)
  rcases hrun with hrun | hrun
  all_goals
    rw [Route.handle, hrun] at hs
    cases hs

/-! ## All routes -/

/-- Every route but one acts on the id of its path. -/
theorem actsOn_of_ne (h : r.Denotes req.path n) (hr : r ≠ .markRead) :
    ActsOn floatToInt env r req n := by
  cases r with
  | markRead => exact absurd rfl hr
  | getSolution => exact actsOn_getSolution h
  | likeSolution => exact actsOn_likeSolution h
  | deleteSolution => exact actsOn_deleteSolution h
  | listSolutionComments => exact actsOn_listSolutionComments h
  | createSolutionComment => exact actsOn_createSolutionComment h
  | deleteSolutionComment => exact actsOn_deleteSolutionComment h
  | likeSolutionComment => exact actsOn_likeSolutionComment h
  | getDiscussion => exact actsOn_getDiscussion h
  | replyDiscussion => exact actsOn_replyDiscussion h
  | likeDiscussion => exact actsOn_likeDiscussion h
  | deleteDiscussion => exact actsOn_deleteDiscussion h
  | countProblemDiscussions => exact actsOn_countProblemDiscussions h

/-- A handler acts on the item whose id stands in the path, unless it is the one that marks a
    notification as read, and there is a caller. -/
theorem actsOn_iff (floatToInt : Decimal → Int32) (env : Env) (r : Route) (req : Request) (n : Int)
    (h : r.Denotes req.path n) :
    ActsOn floatToInt env r req n ↔ ¬(r = .markRead ∧ ∃ claims, req.claims = .ok claims) := by
  constructor
  · rintro hacts ⟨rfl, claims, hclaims⟩
    exact not_actsOn_markRead h hclaims hacts
  · intro hnot
    by_cases hr : r = .markRead
    · subst hr
      -- nobody is let in
      exact acts_authenticated fun claims hclaims => absurd ⟨rfl, claims, hclaims⟩ hnot
    · exact actsOn_of_ne h hr

/-- A request of the user `7`. -/
def requestOfSeven (path body : String) : Request where
  path := bytes path
  claims := .ok ⟨[0x37], bytes "user"⟩
  limit := none
  offset := none
  body := bytes body

/-- The discussion `12` is a reply in the thread of the discussion `4`. -/
def threadOfFour : Env
  | _, .findDiscussion _ => .ok (some ⟨12, 7, none, some 4, some 4, none, [0x61], 0, 0, [], []⟩)
  | _, .createReply _ => .ok 13
  | _, .incrementReplyCount _ => .ok ()
  | _, _ => .error []

theorem actsOn_iff_reply : ActsOn (fun _ => 0) threadOfFour .replyDiscussion
    (requestOfSeven "/api/v1/discussions/12/replies" "\x7b\"content\":\"b\"\x7d") 12 :=
  (actsOn_iff _ _ _ _ _ ⟨[0x31, 0x32], by decide, by decide, by decide, by decide⟩).2
    (by rintro ⟨⟨⟩, -⟩)

theorem denotes_five : Route.markRead.Denotes
    (requestOfSeven "/api/v1/notifications/5/read" "").path 5 :=
  ⟨[0x35], by decide, by decide, by decide, by decide⟩

/-- The notification `5` is not marked as read, whatever the statements would come to: there are
    none, and the answer is "invalid notification id". -/
theorem not_actsOn : ¬∀ floatToInt env (r : Route) (req : Request) (n : Int),
    r.Denotes req.path n → ActsOn floatToInt env r req n :=
  fun h => not_actsOn_markRead denotes_five rfl (h (fun _ => 0) threadOfFour _ _ 5 denotes_five)

end LiteCode.Items
