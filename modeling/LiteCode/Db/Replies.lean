import LiteCode.Lib.ListIndex
import LiteCode.Lib.System
import Mathlib.Data.List.Nodup
import Mathlib.Logic.Function.Basic

/-!
# Replies and comments

A discussion carries the number of its replies, `reply_count`, and a solution the number of its
comments, `comment_count`. `handle_reply_discussion`, `handle_create_solution_comment`,
`handle_delete_discussion` and `handle_delete_solution_comment` write the reply or the comment in
one statement and the counter in the next one. There is no transaction: the statements of other
requests come in between, and any of them may fail. A statement that fails is taken to have had no
effect: no reply of the database is lost.

Replies are nested, and all of them are charged to the discussion at the top (`root_id`).

* `Tables.Below`: a reply to a discussion, at any depth;
* `Threaded`: the row of a reply names the top of its thread, so that the counter can be compared
  with the rows charged to it (`below_iff`);
* `Counted`: the steps in which the counter follows the rows;
* `counts_eq_live`: with these steps only, every counter is right whenever no request is in
  progress.
-/

namespace LiteCode.Replies

/-- Replies to discussions, or comments on solutions. -/
inductive Kind
  | discussion
  | solutionComment
  deriving DecidableEq, Repr

/-- A row of `discussions` or `solution_comments`. `ownerId` is `root_id` in the first table and
    `solution_id` in the second one. -/
structure Post where
  id : Nat
  userId : Int
  parentId : Option Nat
  ownerId : Option Nat
  isDeleted : Bool
  deriving DecidableEq, Repr

/-- The rows of one kind, and the counters: `reply_count` of every discussion, `comment_count` of
    every solution. -/
structure Tables where
  posts : List Post
  count : Nat → Option Nat
  nextId : Nat
  unique : (posts.map Post.id).Nodup
  id_lt : ∀ r ∈ posts, r.id < nextId

namespace Tables

/-- `find_by_id`: rows that are deleted are not found. -/
def findById (t : Tables) (id : Nat) : Option Post :=
  t.posts.find? fun r => r.id = id ∧ r.isDeleted = false

/-- A row after `SET is_deleted = TRUE`. -/
def markDeleted (r : Post) : Post := { r with isDeleted := true }

/-- A soft deletion keeps the ids. -/
theorem map_id_softDelete (posts : List Post) (id : Nat) :
    (posts.map fun r => if r.id = id then markDeleted r else r).map Post.id =
      posts.map Post.id := by
  rw [List.map_map]
  refine List.map_congr_left fun r _ => ?_
  rw [Function.comp_apply]
  split_ifs <;> rfl

theorem id_lt_softDelete (t : Tables) (id : Nat) :
    ∀ r ∈ t.posts.map (fun r => if r.id = id then markDeleted r else r), r.id < t.nextId := by
  intro r hr
  obtain ⟨x, hx, rfl⟩ := List.mem_map.1 hr
  split_ifs <;> exact t.id_lt x hx

/-- A new post has an id of its own. -/
theorem unique_concat (t : Tables) {r : Post} (h : r.id = t.nextId) :
    ((t.posts ++ [r]).map Post.id).Nodup := by
  refine nodup_map_concat t.unique fun x hx => ?_
  rw [h]
  exact Nat.ne_of_lt (t.id_lt x hx)

theorem id_lt_concat (t : Tables) {r : Post} (h : r.id = t.nextId) :
    ∀ x ∈ t.posts ++ [r], x.id < t.nextId + 1 := by
  refine forall_mem_concat (fun x hx => Nat.lt_succ_of_lt (t.id_lt x hx)) ?_
  rw [h]
  exact Nat.lt_succ_self _

/-- `UPDATE ... SET is_deleted = TRUE WHERE id = ?`. -/
def softDelete (t : Tables) (id : Nat) : Tables where
  posts := t.posts.map fun r => if r.id = id then markDeleted r else r
  count := t.count
  nextId := t.nextId
  unique := map_id_softDelete t.posts id ▸ t.unique
  id_lt := t.id_lt_softDelete id

/-- `create`. A new discussion has a counter of its own. -/
def create (t : Tables) (k : Kind) (userId : Int) (parentId : Option Nat) (ownerId : Nat) :
    Tables where
  posts := t.posts ++ [⟨t.nextId, userId, parentId, some ownerId, false⟩]
  count := match k with
    | .discussion => Function.update t.count t.nextId (some 0)
    | .solutionComment => t.count
  nextId := t.nextId + 1
  unique := t.unique_concat rfl
  id_lt := t.id_lt_concat rfl

/-- `UPDATE ... SET count = f(count) WHERE id = ?`. -/
def updateCount (t : Tables) (f : Nat → Nat) (ownerId : Nat) : Tables :=
  { t with count := fun i => if i = ownerId then (t.count i).map f else t.count i }

/-- A reply to a discussion, or to one of its replies. -/
inductive Below (t : Tables) (d : Nat) : Post → Prop
  | reply {r : Post} : r ∈ t.posts → r.parentId = some d → Below t d r
  | nested {q r : Post} : Below t d q → r ∈ t.posts → r.parentId = some q.id → Below t d r

open Classical in
/-- The number of the replies of a discussion that are not deleted, at any depth. -/
noncomputable def replies (t : Tables) (d : Nat) : Nat :=
  t.posts.countP fun r => r.isDeleted = false ∧ t.Below d r

/-- The number of the rows of an owner that are not deleted. -/
def live (t : Tables) (ownerId : Nat) : Nat :=
  t.posts.countP fun r => r.isDeleted = false ∧ r.ownerId = some ownerId

end Tables

/-! ## Requests -/

/-- The statements of a request that are still to come. -/
inductive Pc
  /-- `find_by_id` of the discussion or the solution that is replied to. -/
  | find
  /-- `find_by_id` of the comment that a comment replies to. -/
  | findParent
  | insert (ownerId : Nat)
  | increment (ownerId : Nat)
  /-- `find_by_id` of the row that is to be deleted. -/
  | findDeleted
  /-- The row is written, and then the counter of `ownerId` if there is one. -/
  | softDelete (ownerId : Option Nat)
  | decrement (ownerId : Nat)
  | returned
  /-- A statement failed or a check did, and the request with it. -/
  | failed
  deriving DecidableEq, Repr

/-- A request in progress: `target` is the discussion or the solution that is replied to, or the
    row that is to be deleted. -/
structure Call where
  kind : Kind
  target : Nat
  parentId : Option Nat
  userId : Int
  isAdmin : Bool
  pc : Pc
  deriving DecidableEq, Repr

/-- `handle_reply_discussion`. -/
def replyDiscussion (discussionId : Nat) (userId : Int) : Call :=
  ⟨.discussion, discussionId, some discussionId, userId, false, .find⟩

/-- `handle_create_solution_comment`, with the `parent_id` of the body if it is positive. -/
def createSolutionComment (solutionId : Nat) (parentId : Option Nat) (userId : Int) : Call :=
  ⟨.solutionComment, solutionId, parentId, userId, false, .find⟩

/-- `handle_delete_discussion`. -/
def deleteDiscussion (id : Nat) (userId : Int) (isAdmin : Bool) : Call :=
  ⟨.discussion, id, none, userId, isAdmin, .findDeleted⟩

/-- `handle_delete_solution_comment`. -/
def deleteSolutionComment (id : Nat) (userId : Int) (isAdmin : Bool) : Call :=
  ⟨.solutionComment, id, none, userId, isAdmin, .findDeleted⟩

/-- The request is between two statements. What comes after the counter, the notifications and
    the answer, does not write to the tables. -/
def Pc.inProgress : Pc → Bool
  | .returned | .failed => false
  | _ => true

/-- The tables and the requests. -/
structure State where
  tables : Kind → Tables
  calls : List Call

/-- The steps: a new request, and the next statement of the request `p`, which may fail. What the
    handlers check of the body, and a solution that is deleted, end a request like a statement
    that fails, before it has written anything. -/
inductive Action
  | reply (discussionId : Nat) (userId : Int)
  | comment (solutionId : Nat) (parentId : Option Nat) (userId : Int)
  | deleteReply (id : Nat) (userId : Int) (isAdmin : Bool)
  | deleteComment (id : Nat) (userId : Int) (isAdmin : Bool)
  | statement (p : Nat) (ok : Bool)
  deriving DecidableEq, Repr

/-- A new request. -/
def State.begin (s : State) (c : Call) : State := { s with calls := s.calls ++ [c] }

/-- The request `p` goes on at `pc`. -/
def State.goto (s : State) (p : Nat) (c : Call) (pc : Pc) : State :=
  { s with calls := s.calls.set p { c with pc } }

/-- The tables of a kind after a write. -/
def State.write (s : State) (k : Kind) (t : Tables) : State :=
  { s with tables := Function.update s.tables k t }

/-- Where the reply is charged: `root_id` of the parent, or the parent itself. -/
def Post.rootOf (parent : Post) : Nat := parent.ownerId.getD parent.id

/-- Where a row that is deleted was charged. -/
def Post.chargedTo (k : Kind) (r : Post) : Option Nat :=
  match k with
  | .discussion => r.parentId.map fun parentId => r.ownerId.getD parentId
  | .solutionComment => r.ownerId

/-- What follows the first `SELECT` of a reply or a comment. -/
def afterFind (t : Tables) (c : Call) : Pc :=
  match c.kind with
  | .discussion =>
    match t.findById c.target with
    | some parent => .insert parent.rootOf
    | none => .failed
  | .solutionComment =>
    if (t.count c.target).isSome then
      if c.parentId.isSome then .findParent else .insert c.target
    else .failed

/-- What follows the `SELECT` of the parent comment. -/
def afterFindParent (t : Tables) (c : Call) : Pc :=
  match c.parentId.bind t.findById with
  | some parent => if parent.ownerId = some c.target then .insert c.target else .failed
  | none => .failed

/-- What follows the `SELECT` of the row that is to be deleted: only the author or an admin goes
    on. -/
def afterFindDeleted (t : Tables) (c : Call) : Pc :=
  match t.findById c.target with
  | some r => if c.userId ≠ r.userId ∧ !c.isAdmin then .failed else .softDelete (r.chargedTo c.kind)
  | none => .failed

/-- The next statement of the request `p`, if the database carries it out. -/
def statement (s : State) (p : Nat) (c : Call) : State :=
  let t := s.tables c.kind
  match c.pc with
  | .find => s.goto p c (afterFind t c)
  | .findParent => s.goto p c (afterFindParent t c)
  | .insert ownerId =>
    (s.write c.kind (t.create c.kind c.userId c.parentId ownerId)).goto p c (.increment ownerId)
  | .increment ownerId => (s.write c.kind (t.updateCount (· + 1) ownerId)).goto p c .returned
  | .findDeleted => s.goto p c (afterFindDeleted t c)
  | .softDelete ownerId =>
    (s.write c.kind (t.softDelete c.target)).goto p c (ownerId.elim .returned .decrement)
  | .decrement ownerId =>
    (s.write c.kind (t.updateCount (fun n => max (n - 1) 0) ownerId)).goto p c .returned
  | .returned => s
  | .failed => s

/-- One step. -/
def step (s : State) : Action → Option State
  | .reply discussionId userId => some (s.begin (replyDiscussion discussionId userId))
  | .comment solutionId parentId userId =>
    some (s.begin (createSolutionComment solutionId parentId userId))
  | .deleteReply id userId isAdmin => some (s.begin (deleteDiscussion id userId isAdmin))
  | .deleteComment id userId isAdmin => some (s.begin (deleteSolutionComment id userId isAdmin))
  | .statement p ok =>
    match s.calls[p]? with
    | none => none
    | some c =>
      if !c.pc.inProgress then none
      else some (if ok then statement s p c else s.goto p c .failed)

/-- `reply_count` of the discussions at the top is the number of their replies. -/
def RepliesCounted (s : State) : Prop :=
  ∀ d ∈ (s.tables .discussion).posts, d.parentId = none →
    ∀ n, (s.tables .discussion).count d.id = some n → n = (s.tables .discussion).replies d.id

/-- `comment_count` of the solutions is the number of their comments. -/
def CommentsCounted (s : State) : Prop :=
  ∀ solutionId n, (s.tables .solutionComment).count solutionId = some n →
    n = (s.tables .solutionComment).live solutionId

/-- A reply names the top of the thread of an older discussion or reply; a comment names its
    solution. -/
def Threaded (k : Kind) (t : Tables) : Prop :=
  ∀ r ∈ t.posts, match k, r.parentId with
    | .discussion, some parentId =>
      ∃ q ∈ t.posts, q.id = parentId ∧ q.id < r.id ∧ r.ownerId = some q.rootOf
    | .discussion, none => r.ownerId = none
    | .solutionComment, _ => r.ownerId.isSome

/-- No request is in progress. -/
def Quiet (s : State) : Prop := ∀ c ∈ s.calls, c.pc.inProgress = false

instance (s : State) : Decidable (Quiet s) :=
  inferInstanceAs (Decidable (∀ c ∈ s.calls, c.pc.inProgress = false))

/-- The rows and their counters, from a consistent database on. -/
def system : System State Action where
  init s := RepliesCounted s ∧ CommentsCounted s ∧ (∀ k, Threaded k (s.tables k)) ∧ s.calls = []
  step := step

/-- A statement that is carried out if `ok`, and leaves the counter and the rows in step: the
    update of a counter does not fail, a row that is deleted was not deleted since it was found,
    and a counter that is decremented is not zero. -/
def Call.counts (t : Tables) (ok : Bool) (c : Call) : Bool :=
  match c.pc with
  | .increment _ => ok
  | .decrement ownerId => ok && t.count ownerId != some 0
  | .softDelete (some _) => !ok || (t.findById c.target).isSome
  | _ => true

/-- The steps in which the counters follow. -/
def Counted (s : State) : Action → Prop
  | .statement p ok => ∀ c ∈ s.calls[p]?, c.counts (s.tables c.kind) ok = true
  | _ => True

instance (s : State) : (a : Action) → Decidable (Counted s a)
  | .reply _ _ => isTrue trivial
  | .comment _ _ _ => isTrue trivial
  | .deleteReply _ _ _ => isTrue trivial
  | .deleteComment _ _ _ => isTrue trivial
  | .statement p _ => inferInstanceAs (Decidable (∀ c ∈ s.calls[p]?, _))

variable {s s' : State} {a : Action} {c : Call} {p : Nat} {k : Kind} {t t' : Tables} {q r : Post}

/-! ## Threads -/

/-- What is found is there, and not deleted. -/
theorem Tables.mem_findById {id : Nat} (h : t.findById id = some r) :
    r ∈ t.posts ∧ r.id = id ∧ r.isDeleted = false :=
  ⟨List.mem_of_find?_eq_some h, by simpa using List.find?_some h⟩

theorem Tables.Below.mem {d : Nat} (h : t.Below d r) : r ∈ t.posts := by
  cases h <;> assumption

/-- The id is a key. -/
theorem Tables.eq_of_id (hq : q ∈ t.posts) (hr : r ∈ t.posts) (h : q.id = r.id) : q = r :=
  List.inj_on_of_nodup_map t.unique hq hr h

/-- The posts after a soft deletion. -/
theorem Tables.mem_softDelete {id : Nat} :
    r ∈ (t.softDelete id).posts ↔ ∃ q ∈ t.posts, (if q.id = id then markDeleted q else q) = r :=
  List.mem_map

/-- What the deletion of a row leaves as it is. -/
theorem softDelete_fields (q : Post) (id : Nat) :
    (if q.id = id then Tables.markDeleted q else q).id = q.id ∧
      (if q.id = id then Tables.markDeleted q else q).parentId = q.parentId ∧
      (if q.id = id then Tables.markDeleted q else q).ownerId = q.ownerId := by
  split_ifs <;> exact ⟨rfl, rfl, rfl⟩

/-- The rows charged to a discussion at the top are the replies to it. -/
theorem below_iff (h : Threaded .discussion t) {d : Post} (hd : d ∈ t.posts)
    (htop : d.parentId = none) (hr : r ∈ t.posts) :
    t.Below d.id r ↔ r.ownerId = some d.id := by
  constructor
  · intro hb
    clear hr
    induction hb with
    | reply hr hp =>
      have := h _ hr
      rw [hp] at this
      obtain ⟨q, hq, hid, -, ho⟩ := this
      have hnone := h d hd
      rw [htop] at hnone
      rw [ho, Tables.eq_of_id hq hd hid, Post.rootOf, hnone, Option.getD_none]
    | nested hq hr hp ih =>
      have := h _ hr
      rw [hp] at this
      obtain ⟨x, hx, hid, -, ho⟩ := this
      rw [ho, Tables.eq_of_id hx hq.mem hid, Post.rootOf, ih, Option.getD_some]
  · -- the parent of a row is older
    intro ho
    induction hn : r.id using Nat.strongRecOn generalizing r with
    | ind n ih =>
      have := h r hr
      cases hp : r.parentId with
      | none =>
        rw [hp, ho] at this
        cases this
      | some parentId =>
        rw [hp] at this
        obtain ⟨q, hq, rfl, hlt, hroot⟩ := this
        rw [ho, Option.some.injEq, Post.rootOf] at hroot
        cases hqo : q.ownerId with
        | none =>
          rw [hqo, Option.getD_none] at hroot
          exact .reply hr (hroot ▸ hp)
        | some o =>
          rw [hqo, Option.getD_some] at hroot
          exact .nested (ih q.id (hn ▸ hlt) hq (hroot ▸ hqo) rfl) hr hp

/-- Of a post at the top, the replies are what is counted. -/
theorem replies_eq_live (h : Threaded .discussion t) {d : Post} (hd : d ∈ t.posts)
    (htop : d.parentId = none) : t.replies d.id = t.live d.id := by
  refine List.countP_congr fun r hr => ?_
  simp only [decide_eq_true_eq, below_iff h hd htop hr]

/-- The rows of `t` are in `t'`, deleted or not. -/
def Tables.Extends (t t' : Tables) : Prop :=
  ∀ r ∈ t.posts, ∃ x ∈ t'.posts, x.id = r.id ∧ x.parentId = r.parentId ∧ x.ownerId = r.ownerId

/-- A request that is about to insert a reply charges it to the top of the thread of its parent,
    which is there. -/
def Charged (t : Tables) (c : Call) (ownerId : Nat) : Prop :=
  c.kind = .discussion → ∃ q ∈ t.posts, c.parentId = some q.id ∧ ownerId = q.rootOf

/-- A reply is to the discussion that is found first. -/
def Asked (c : Call) : Prop :=
  c.kind = .discussion → c.pc ≠ .findParent ∧ (c.pc = .find → c.parentId = some c.target)

/-- The rows, and what the requests know of them. -/
structure Shape (s : State) : Prop where
  threaded : ∀ k, Threaded k (s.tables k)
  asked : ∀ c ∈ s.calls, Asked c
  inserting : ∀ c ∈ s.calls, ∀ o, c.pc = .insert o → Charged (s.tables c.kind) c o
  deleting : ∀ c ∈ s.calls, ∀ o, c.pc = .softDelete o →
    ∃ r ∈ (s.tables c.kind).posts, r.id = c.target ∧ r.ownerId = o

theorem Tables.Extends.refl (t : Tables) : t.Extends t := fun r hr => ⟨r, hr, rfl, rfl, rfl⟩

/-- A soft deletion leaves every post with its parent and its owner. -/
theorem Tables.extends_softDelete (t : Tables) (id : Nat) : t.Extends (t.softDelete id) :=
  fun r hr => ⟨_, List.mem_map_of_mem hr, softDelete_fields r id⟩

/-- So does a new post. -/
theorem Tables.extends_create (t : Tables) (userId : Int) (parentId : Option Nat) (ownerId : Nat) :
    t.Extends (t.create k userId parentId ownerId) :=
  fun r hr => ⟨r, List.mem_append_left _ hr, rfl, rfl, rfl⟩

theorem Tables.extends_updateCount (t : Tables) (f : Nat → Nat) (ownerId : Nat) :
    t.Extends (t.updateCount f ownerId) := Extends.refl t

/-- A count has no part in the threads. -/
theorem Threaded.updateCount (h : Threaded k t) (f : Nat → Nat) (ownerId : Nat) :
    Threaded k (t.updateCount f ownerId) := h

/-- What a call charges stays where it is. -/
theorem Charged.mono (h : t.Extends t') {o : Nat} (hc : Charged t c o) : Charged t' c o := by
  intro hk
  obtain ⟨q, hq, hp, ho⟩ := hc hk
  obtain ⟨x, hx, hid, -, hown⟩ := h q hq
  exact ⟨x, hx, by rw [hp, hid], by rw [ho, Post.rootOf, Post.rootOf, hid, hown]⟩

/-- A soft deletion keeps the threads. -/
theorem Threaded.softDelete (h : Threaded k t) (id : Nat) : Threaded k (t.softDelete id) := by
  intro r hr
  obtain ⟨q, hq, rfl⟩ := Tables.mem_softDelete.1 hr
  obtain ⟨hid, hp, ho⟩ := softDelete_fields q id
  have := h q hq
  rw [hid, hp, ho]
  cases k with
  | solutionComment => exact this
  | discussion =>
    cases hpq : q.parentId with
    | none =>
      rw [hpq] at this
      exact this
    | some parentId =>
      rw [hpq] at this
      obtain ⟨x, hx, hxid, hlt, hown⟩ := this
      obtain ⟨hid', -, ho'⟩ := softDelete_fields x id
      refine ⟨_, Tables.mem_softDelete.2 ⟨x, hx, rfl⟩, hid'.trans hxid, lt_of_eq_of_lt hid' hlt, ?_⟩
      rw [hown, Post.rootOf, Post.rootOf, hid', ho']

/-- A reply that charges the right post joins its thread. -/
theorem Threaded.create (h : Threaded c.kind t) {o : Nat} (hc : Charged t c o) :
    Threaded c.kind (t.create c.kind c.userId c.parentId o) := by
  intro r hr
  rcases List.mem_append.1 hr with hr | hr
  · have := h r hr
    cases hk : c.kind with
    | solutionComment => simpa only [hk] using this
    | discussion =>
      cases hp : r.parentId with
      | none => simpa only [hk, hp] using this
      | some parentId =>
        simp only [hk, hp] at this
        obtain ⟨q, hq, hid, hlt, hown⟩ := this
        exact ⟨q, List.mem_append_left _ hq, hid, hlt, hown⟩
  · rw [List.mem_singleton.1 hr]
    cases hk : c.kind with
    | solutionComment => rfl
    | discussion =>
      obtain ⟨q, hq, hp, ho⟩ := hc hk
      simp only [hp]
      exact ⟨q, List.mem_append_left _ hq, rfl, t.id_lt q hq, by rw [ho]⟩

/-- A row that is deleted was charged to its owner. -/
theorem Threaded.chargedTo_eq (h : Threaded k t) (hr : r ∈ t.posts) :
    r.chargedTo k = r.ownerId := by
  have := h r hr
  cases k with
  | solutionComment => rfl
  | discussion =>
    rw [Post.chargedTo]
    cases hp : r.parentId with
    | none =>
      rw [hp] at this
      exact this.symm
    | some parentId =>
      rw [hp] at this
      obtain ⟨q, -, -, -, ho⟩ := this
      rw [ho]
      rfl

theorem State.write_self (s : State) (k : Kind) : s.write k (s.tables k) = s := by
  rw [State.write, Function.update_eq_self]

/-- A write changes the tables of its kind. -/
theorem State.tables_write (s : State) (k k' : Kind) (t : Tables) :
    (s.write k t).tables k' = if k' = k then t else s.tables k' :=
  Function.update_apply ..

/-- A request that writes and goes on. -/
theorem Shape.write (h : Shape s) (p : Nat) (hext : (s.tables c.kind).Extends t')
    (hthr : Threaded c.kind t') {pc : Pc} (hask : Asked { c with pc })
    (hins : ∀ o, pc = .insert o → Charged t' c o)
    (hdel : ∀ o, pc = .softDelete o → ∃ r ∈ t'.posts, r.id = c.target ∧ r.ownerId = o) :
    Shape ((s.write c.kind t').goto p c pc) where
  threaded k := by
    change Threaded k ((s.write c.kind t').tables k)
    rw [State.tables_write]
    split_ifs with hk
    · rw [hk]
      exact hthr
    · exact h.threaded k
  asked x hx := by
    rcases List.mem_or_eq_of_mem_set hx with hx | rfl
    · exact h.asked x hx
    · exact hask
  inserting x hx o ho := by
    change Charged ((s.write c.kind t').tables x.kind) x o
    rw [State.tables_write]
    rcases List.mem_or_eq_of_mem_set hx with hx | rfl
    · have := h.inserting x hx o ho
      split_ifs with hk
      · exact (hk ▸ this).mono hext
      · exact this
    · rw [if_pos rfl]
      exact hins o ho
  deleting x hx o ho := by
    change ∃ r ∈ ((s.write c.kind t').tables x.kind).posts, _
    rw [State.tables_write]
    rcases List.mem_or_eq_of_mem_set hx with hx | rfl
    · obtain ⟨r, hr, hid, hown⟩ := h.deleting x hx o ho
      split_ifs with hk
      · obtain ⟨y, hy, hyid, -, hyown⟩ := hext r (hk ▸ hr)
        exact ⟨y, hy, hyid.trans hid, hyown.trans hown⟩
      · exact ⟨r, hr, hid, hown⟩
    · rw [if_pos rfl]
      exact hdel o ho

/-- A request that goes on without a write. -/
theorem Shape.goto (h : Shape s) (p : Nat) {pc : Pc} (hask : Asked { c with pc })
    (hins : ∀ o, pc = .insert o → Charged (s.tables c.kind) c o)
    (hdel : ∀ o, pc = .softDelete o →
      ∃ r ∈ (s.tables c.kind).posts, r.id = c.target ∧ r.ownerId = o) :
    Shape (s.goto p c pc) := by
  have := h.write p (Tables.Extends.refl _) (h.threaded _) hask hins hdel
  rwa [State.write_self] at this

/-- A reply goes on with the top of the thread of the row that was found. -/
theorem afterFind_discussion (t : Tables) (hk : c.kind = .discussion) :
    afterFind t c = .failed ∨
      ∃ q ∈ t.posts, q.id = c.target ∧ afterFind t c = .insert q.rootOf := by
  rw [afterFind, hk]
  dsimp only
  split
  · next q hf =>
    obtain ⟨hq, hid, -⟩ := Tables.mem_findById hf
    exact .inr ⟨q, hq, hid, rfl⟩
  · exact .inl rfl

/-- A comment goes on to its parent or to the insertion, or fails. -/
theorem afterFind_comment (t : Tables) (hk : c.kind = .solutionComment) :
    afterFind t c = .failed ∨ afterFind t c = .findParent ∨ afterFind t c = .insert c.target := by
  rw [afterFind, hk]
  dsimp only
  split_ifs <;> simp

/-- From its parent it goes on to the insertion, or fails. -/
theorem afterFindParent_eq (t : Tables) (c : Call) :
    afterFindParent t c = .insert c.target ∨ afterFindParent t c = .failed := by
  rw [afterFindParent]
  split
  · split_ifs <;> simp
  · exact .inr rfl

/-- Only the author or an admin comes to the deletion, of a row that was found. -/
theorem afterFindDeleted_eq (t : Tables) (c : Call) : afterFindDeleted t c = .failed ∨
    ∃ r ∈ t.posts, r.id = c.target ∧ (c.userId = r.userId ∨ c.isAdmin = true) ∧
      afterFindDeleted t c = .softDelete (r.chargedTo c.kind) := by
  rw [afterFindDeleted]
  split
  · next r hf =>
    obtain ⟨hr, hid, -⟩ := Tables.mem_findById hf
    split_ifs with hauth
    · exact .inl rfl
    · refine .inr ⟨r, hr, hid, ?_, rfl⟩
      simpa [not_and, or_iff_not_imp_left] using hauth
  · exact .inl rfl

/-- A request that goes on with a statement that needs nothing of the rows. -/
theorem Shape.goto_plain (h : Shape s) (p : Nat) {pc : Pc}
    (hpc : pc ≠ .find ∧ pc ≠ .findParent ∧ (∀ o, pc ≠ .insert o) ∧ ∀ o, pc ≠ .softDelete o) :
    Shape (s.goto p c pc) :=
  h.goto p (fun _ => ⟨hpc.2.1, fun hf => absurd hf hpc.1⟩) (fun o ho => absurd ho (hpc.2.2.1 o))
    fun o ho => absurd ho (hpc.2.2.2 o)

theorem Shape.write_plain (h : Shape s) (p : Nat) (hext : (s.tables c.kind).Extends t')
    (hthr : Threaded c.kind t') {pc : Pc}
    (hpc : pc ≠ .find ∧ pc ≠ .findParent ∧ (∀ o, pc ≠ .insert o) ∧ ∀ o, pc ≠ .softDelete o) :
    Shape ((s.write c.kind t').goto p c pc) :=
  h.write p hext hthr (fun _ => ⟨hpc.2.1, fun hf => absurd hf hpc.1⟩)
    (fun o ho => absurd ho (hpc.2.2.1 o)) fun o ho => absurd ho (hpc.2.2.2 o)

/-- A call has looked for the post that it answers. -/
theorem Shape.find (h : Shape s) (hp : s.calls[p]? = some c) (hpc : c.pc = .find) :
    Shape (s.goto p c (afterFind (s.tables c.kind) c)) := by
  cases hk : c.kind with
  | discussion =>
    have hparent := (h.asked c (List.mem_of_getElem? hp) hk).2 hpc
    rcases afterFind_discussion (s.tables .discussion) hk with he | ⟨q, hq, hid, he⟩
    · rw [he]
      exact h.goto_plain p (by simp)
    · rw [he]
      refine h.goto p (fun _ => by simp) (fun o ho _ => ?_) (by simp)
      cases ho
      exact ⟨q, hk ▸ hq, hid ▸ hparent, rfl⟩
  | solutionComment =>
    have hno : ∀ {P : Prop}, c.kind = .discussion → P := fun h => by simp [hk] at h
    rcases afterFind_comment (s.tables .solutionComment) hk with he | he | he
    all_goals
      rw [he]
      exact h.goto p (fun h => hno h) (fun _ _ h => hno h) (by simp)

/-- A comment has looked for its parent. -/
theorem Shape.findParent (h : Shape s) (hp : s.calls[p]? = some c) (hpc : c.pc = .findParent) :
    Shape (s.goto p c (afterFindParent (s.tables c.kind) c)) := by
  have hno : ∀ {P : Prop}, c.kind = .discussion → P := fun hk =>
    absurd hpc (h.asked c (List.mem_of_getElem? hp) hk).1
  rcases afterFindParent_eq (s.tables c.kind) c with he | he
  all_goals
    rw [he]
    exact h.goto p (fun h => hno h) (fun _ _ h => hno h) (by simp)

/-- A deletion has looked for its post. -/
theorem Shape.findDeleted (h : Shape s) :
    Shape (s.goto p c (afterFindDeleted (s.tables c.kind) c)) := by
  rcases afterFindDeleted_eq (s.tables c.kind) c with he | ⟨r, hr, hid, -, he⟩
  · rw [he]
    exact h.goto_plain p (by simp)
  · rw [he, (h.threaded c.kind).chargedTo_eq hr]
    refine h.goto p (fun _ => by simp) (by simp) fun o ho => ?_
    cases ho
    exact ⟨r, hr, hid, rfl⟩

/-- A statement that is carried out. -/
theorem Shape.statement (h : Shape s) (hp : s.calls[p]? = some c) : Shape (statement s p c) := by
  have hc := List.mem_of_getElem? hp
  cases hpc : c.pc with
  | find =>
    simp only [Replies.statement, hpc]
    exact h.find hp hpc
  | findParent =>
    simp only [Replies.statement, hpc]
    exact h.findParent hp hpc
  | insert o =>
    simp only [Replies.statement, hpc]
    refine h.write_plain p (Tables.extends_create _ _ _ _)
      ((h.threaded _).create (h.inserting c hc o hpc)) ?_
    simp
  | increment o =>
    simp only [Replies.statement, hpc]
    refine h.write_plain p (Tables.extends_updateCount _ _ _) ((h.threaded _).updateCount _ _) ?_
    simp
  | findDeleted =>
    simp only [Replies.statement, hpc]
    exact h.findDeleted
  | softDelete o =>
    simp only [Replies.statement, hpc]
    refine h.write_plain p (Tables.extends_softDelete _ _) ((h.threaded _).softDelete _) ?_
    cases o <;> simp
  | decrement o =>
    simp only [Replies.statement, hpc]
    refine h.write_plain p (Tables.extends_updateCount _ _ _) ((h.threaded _).updateCount _ _) ?_
    simp
  | returned => simpa only [Replies.statement, hpc] using h
  | failed => simpa only [Replies.statement, hpc] using h

/-- A call begins before its insertion. -/
theorem Shape.begin (h : Shape s) (hask : Asked c)
    (hpc : (∀ o, c.pc ≠ .insert o) ∧ ∀ o, c.pc ≠ .softDelete o) : Shape (s.begin c) where
  threaded := h.threaded
  asked x hx := (List.mem_append.1 hx).elim (h.asked x) fun hx => List.mem_singleton.1 hx ▸ hask
  inserting x hx o ho := (List.mem_append.1 hx).elim (fun hx => h.inserting x hx o ho) fun hx =>
    absurd (List.mem_singleton.1 hx ▸ ho) (hpc.1 o)
  deleting x hx o ho := (List.mem_append.1 hx).elim (fun hx => h.deleting x hx o ho) fun hx =>
    absurd (List.mem_singleton.1 hx ▸ ho) (hpc.2 o)

/-- A step is a new request, before its first statement, or the next statement of one. -/
theorem step_cases (h : step s a = some s') :
    (∃ c, s' = s.begin c ∧ Asked c ∧ (c.pc = .find ∨ c.pc = .findDeleted)) ∨
    ∃ p ok c, a = .statement p ok ∧ s.calls[p]? = some c ∧ c.pc.inProgress = true ∧
      s' = if ok then statement s p c else s.goto p c .failed := by
  cases a with
  | reply discussionId userId => exact .inl ⟨_, (Option.some.inj h).symm, by simp [Asked,
      replyDiscussion], .inl rfl⟩
  | comment solutionId parentId userId => exact .inl ⟨_, (Option.some.inj h).symm, by simp [Asked,
      createSolutionComment], .inl rfl⟩
  | deleteReply id userId isAdmin => exact .inl ⟨_, (Option.some.inj h).symm, by simp [Asked,
      deleteDiscussion], .inr rfl⟩
  | deleteComment id userId isAdmin => exact .inl ⟨_, (Option.some.inj h).symm, by simp [Asked,
      deleteSolutionComment], .inr rfl⟩
  | statement p ok =>
    simp only [step] at h
    split at h
    · cases h
    · next c hp =>
      split_ifs at h with hin hok
      all_goals
        cases h
        exact .inr ⟨p, ok, c, rfl, hp, by simpa using hin, by simp [hok]⟩

/-- Every step keeps the threads. -/
theorem Shape.step (h : Shape s) (hs : step s a = some s') : Shape s' := by
  rcases step_cases hs with ⟨c, rfl, hask, hpc⟩ | ⟨p, ok, c, rfl, hp, -, rfl⟩
  · exact h.begin hask (by rcases hpc with hpc | hpc <;> simp [hpc])
  · split_ifs
    · exact h.statement hp
    · exact h.goto_plain p (by simp)

theorem Shape.init (h : system.init s) : Shape s := by
  obtain ⟨-, -, hthr, hcalls⟩ := h
  have hno : ∀ c ∈ s.calls, ∀ {P : Prop}, P := by simp [hcalls]
  exact ⟨hthr, fun c hc => hno c hc, fun c hc => hno c hc, fun c hc => hno c hc⟩

/-! ## The counters -/

/-- The owners whose counters are meant: discussions at the top, and all solutions. -/
def Top (k : Kind) (t : Tables) (o : Nat) : Prop :=
  k = .discussion → ∃ r ∈ t.posts, r.id = o ∧ r.parentId = none

/-- How many requests are before the statement `x`. -/
def pending (s : State) (x : Pc) (k : Kind) : Nat :=
  s.calls.countP fun c => c.kind = k ∧ c.pc = x

/-- The counters with the updates that are still to come. -/
def Balanced (s : State) : Prop :=
  ∀ k o n, Top k (s.tables k) o → (s.tables k).count o = some n →
    n + pending s (.increment o) k = (s.tables k).live o + pending s (.decrement o) k

/-- `1` if a request at `pc` is before the statement `x`. -/
def Pc.is (pc x : Pc) : Nat := if pc = x then 1 else 0

/-- What a request that goes on changes in the updates to come. -/
theorem pending_goto (hp : s.calls[p]? = some c) (pc x : Pc) :
    pending (s.goto p c pc) x c.kind + c.pc.is x = pending s x c.kind + pc.is x := by
  simpa [pending, Pc.is, State.goto] using
    countP_set_add (y := { c with pc }) (p := fun d => d.kind = c.kind ∧ d.pc = x) hp

/-- What is pending of one kind has nothing to do with the calls of another. -/
theorem pending_goto_other (hp : s.calls[p]? = some c) (pc x : Pc) (hk : c.kind ≠ k) :
    pending (s.goto p c pc) x k = pending s x k := by
  simpa [pending, hk, State.goto] using
    countP_set_add (y := { c with pc }) (p := fun d => d.kind = k ∧ d.pc = x) hp

/-- A request that writes and goes on: it is enough to look at the counters of its tables. -/
theorem Balanced.write (h : Balanced s) (hp : s.calls[p]? = some c) {pc : Pc}
    (hw : ∀ o n, Top c.kind t' o → t'.count o = some n →
      Top c.kind (s.tables c.kind) o ∧ ∃ m, (s.tables c.kind).count o = some m ∧
        n + pc.is (.increment o) + c.pc.is (.decrement o) + (s.tables c.kind).live o =
          m + c.pc.is (.increment o) + t'.live o + pc.is (.decrement o)) :
    Balanced ((s.write c.kind t').goto p c pc) := by
  intro k o n htop hn
  change Top k ((s.write c.kind t').tables k) o at htop
  change ((s.write c.kind t').tables k).count o = some n at hn
  change n + pending (s.goto p c pc) _ k =
    ((s.write c.kind t').tables k).live o + pending (s.goto p c pc) _ k
  rw [State.tables_write] at htop hn ⊢
  by_cases hk : k = c.kind
  · subst hk
    rw [if_pos rfl] at htop hn ⊢
    obtain ⟨htop, m, hm, hsum⟩ := hw o n htop hn
    have hb := h _ o m htop hm
    have hinc := pending_goto hp pc (.increment o)
    have hdec := pending_goto hp pc (.decrement o)
    omega
  · rw [if_neg hk] at htop hn ⊢
    rw [pending_goto_other hp _ _ (Ne.symm hk), pending_goto_other hp _ _ (Ne.symm hk)]
    exact h k o n htop hn

/-- The next statement updates a counter. -/
def Pc.updates : Pc → Bool
  | .increment _ | .decrement _ => true
  | _ => false

/-- A call that does not come to an update has none pending. -/
theorem Pc.is_eq_zero {x : Pc} (h : x.updates = false) (o : Nat) :
    x.is (.increment o) = 0 ∧ x.is (.decrement o) = 0 := by
  constructor <;> refine if_neg fun he => ?_ <;> simp [he, Pc.updates] at h

/-- A request that goes on without a write. -/
theorem Balanced.goto (h : Balanced s) (hp : s.calls[p]? = some c) {pc : Pc}
    (hc : c.pc.updates = false) (hpc : pc.updates = false) : Balanced (s.goto p c pc) := by
  have : Balanced ((s.write c.kind (s.tables c.kind)).goto p c pc) :=
    h.write hp fun o n htop hn => by
      refine ⟨htop, n, hn, ?_⟩
      rw [(Pc.is_eq_zero hc o).1, (Pc.is_eq_zero hc o).2, (Pc.is_eq_zero hpc o).1,
        (Pc.is_eq_zero hpc o).2]
      omega
  rwa [State.write_self] at this

/-- A look-up does not come to an update. -/
theorem afterFind_updates (t : Tables) (c : Call) : (afterFind t c).updates = false := by
  cases hk : c.kind with
  | discussion => rcases afterFind_discussion t hk with he | ⟨q, -, -, he⟩ <;> rw [he] <;> rfl
  | solutionComment => rcases afterFind_comment t hk with he | he | he <;> rw [he] <;> rfl

/-- A new reply is one more. -/
theorem Tables.live_create (t : Tables) (k : Kind) (userId : Int) (parentId : Option Nat)
    (ownerId o : Nat) :
    (t.create k userId parentId ownerId).live o = t.live o + if ownerId = o then 1 else 0 := by
  change (t.posts ++ [_]).countP _ = _
  rw [List.countP_append, List.countP_singleton]
  simp [live]

/-- Deleting a row takes it from the rows of its owner, if it was not deleted. -/
theorem Tables.live_softDelete (hr : r ∈ t.posts) (o : Nat) :
    (t.softDelete r.id).live o +
      (if r.isDeleted = false ∧ r.ownerId = some o then 1 else 0) = t.live o := by
  have := countP_map_key_add (g := markDeleted) (p := fun x => x.isDeleted = false ∧
    x.ownerId = some o) t.unique hr
  simpa [live, softDelete, markDeleted] using this

/-- What is at the top after a deletion was there before. -/
theorem Top.of_softDelete {id o : Nat} (h : Top k (t.softDelete id) o) : Top k t o := by
  intro hk
  obtain ⟨r, hr, hid, hp⟩ := h hk
  obtain ⟨q, hq, rfl⟩ := Tables.mem_softDelete.1 hr
  obtain ⟨hid', hp', -⟩ := softDelete_fields q id
  exact ⟨q, hq, hid' ▸ hid, hp' ▸ hp⟩

/-- A reply is not at the top. -/
theorem Top.of_create {o i : Nat} (hc : Charged t c o)
    (h : Top c.kind (t.create c.kind c.userId c.parentId o) i) : Top c.kind t i := by
  intro hk
  obtain ⟨r, hr, hid, hp⟩ := h hk
  rcases List.mem_append.1 hr with hr | hr
  · exact ⟨r, hr, hid, hp⟩
  · obtain ⟨q, -, hq, -⟩ := hc hk
    rw [List.mem_singleton.1 hr] at hp
    rw [hq] at hp
    cases hp

/-- The counter of an owner is not touched by a new row. -/
theorem Tables.count_create {userId : Int} {parentId : Option Nat} {ownerId o : Nat}
    (htop : Top k t o) : (t.create k userId parentId ownerId).count o = t.count o := by
  cases k with
  | solutionComment => rfl
  | discussion =>
    obtain ⟨r, hr, rfl, -⟩ := htop rfl
    exact Function.update_of_ne (Nat.ne_of_lt (t.id_lt r hr)) _ _

/-- An update changes the count of its owner. -/
theorem Tables.count_updateCount {f : Nat → Nat} {ownerId o n : Nat}
    (h : (t.updateCount f ownerId).count o = some n) :
    ∃ m, t.count o = some m ∧ n = if o = ownerId then f m else m := by
  simp only [updateCount] at h
  split_ifs at h with ho
  · obtain ⟨m, hm, rfl⟩ := Option.map_eq_some_iff.1 h
    exact ⟨m, hm, by rw [if_pos ho]⟩
  · exact ⟨n, h, by rw [if_neg ho]⟩

theorem Pc.is_ne {x y : Pc} (h : x ≠ y) : x.is y = 0 := if_neg h

/-- A reply or a comment that is inserted: its counter is still to be incremented. -/
theorem Balanced.insert (h : Balanced s) (hp : s.calls[p]? = some c) {o : Nat}
    (hpc : c.pc = .insert o) (hc : Charged (s.tables c.kind) c o) :
    Balanced ((s.write c.kind ((s.tables c.kind).create c.kind c.userId c.parentId o)).goto p c
      (.increment o)) := by
  refine h.write hp fun i n htop hn => ?_
  have htop := htop.of_create hc
  refine ⟨htop, n, Tables.count_create htop ▸ hn, ?_⟩
  obtain ⟨hinc, hdec⟩ := Pc.is_eq_zero (x := c.pc) (by rw [hpc]; rfl) i
  rw [Tables.live_create, hinc, hdec, Pc.is_ne (y := .decrement i) (by simp)]
  simp only [Pc.is, Pc.increment.injEq]
  omega

/-- The increment is counted when it is made. -/
theorem Balanced.increment (h : Balanced s) (hp : s.calls[p]? = some c) {o : Nat}
    (hpc : c.pc = .increment o) :
    Balanced ((s.write c.kind ((s.tables c.kind).updateCount (· + 1) o)).goto p c .returned) := by
  refine h.write hp fun i n htop hn => ?_
  obtain ⟨m, hm, rfl⟩ := Tables.count_updateCount hn
  refine ⟨htop, m, hm, ?_⟩
  change _ + (s.tables c.kind).live i = _ + (s.tables c.kind).live i + _
  rw [hpc, Pc.is_ne (x := .increment o) (y := .decrement i) (by simp),
    (Pc.is_eq_zero (x := .returned) rfl i).1, (Pc.is_eq_zero (x := .returned) rfl i).2]
  simp only [Pc.is, Pc.increment.injEq, eq_comm (a := o)]
  split_ifs <;> omega

/-- So is the decrement, if the count is not at zero. -/
theorem Balanced.decrement (h : Balanced s) (hp : s.calls[p]? = some c) {o : Nat}
    (hpc : c.pc = .decrement o) (hne : (s.tables c.kind).count o ≠ some 0) :
    Balanced ((s.write c.kind ((s.tables c.kind).updateCount (fun n => max (n - 1) 0) o)).goto p c
      .returned) := by
  refine h.write hp fun i n htop hn => ?_
  obtain ⟨m, hm, rfl⟩ := Tables.count_updateCount hn
  refine ⟨htop, m, hm, ?_⟩
  change _ + (s.tables c.kind).live i = _ + (s.tables c.kind).live i + _
  rw [hpc, Pc.is_ne (x := .decrement o) (y := .increment i) (by simp),
    (Pc.is_eq_zero (x := .returned) rfl i).1, (Pc.is_eq_zero (x := .returned) rfl i).2]
  simp only [Pc.is, Pc.decrement.injEq, eq_comm (a := o)]
  split_ifs with hi
  · -- the counter was not zero
    have : m ≠ 0 := fun h0 => hne (hi ▸ h0 ▸ hm)
    omega
  · omega

/-- A row that is deleted: its counter, if it has one, is still to be decremented. -/
theorem Balanced.softDelete (h : Balanced s) (hp : s.calls[p]? = some c) {o : Option Nat}
    (hpc : c.pc = .softDelete o) (hr : r ∈ (s.tables c.kind).posts) (hid : r.id = c.target)
    (hown : r.ownerId = o) (hlive : o.isSome → r.isDeleted = false) :
    Balanced ((s.write c.kind ((s.tables c.kind).softDelete c.target)).goto p c
      (o.elim .returned .decrement)) := by
  refine h.write hp fun i n htop hn => ⟨htop.of_softDelete, n, hn, ?_⟩
  obtain ⟨hinc, hdec⟩ := Pc.is_eq_zero (x := c.pc) (by rw [hpc]; rfl) i
  rw [← hid, ← Tables.live_softDelete hr i, hinc, hdec, hown]
  cases o with
  | none =>
    obtain ⟨hinc, hdec⟩ := Pc.is_eq_zero (x := .returned) rfl i
    rw [Option.elim_none, hinc, hdec]
    simp
  | some o =>
    rw [Option.elim_some, Pc.is_ne (y := .increment i) (by simp), hlive rfl]
    simp only [Pc.is, Pc.decrement.injEq, Option.some.injEq, true_and]
    omega

/-- A statement that is carried out keeps the balance. -/
theorem Balanced.statement (h : Balanced s) (hs : Shape s) (hp : s.calls[p]? = some c)
    (hg : c.counts (s.tables c.kind) true = true) : Balanced (statement s p c) := by
  have hc := List.mem_of_getElem? hp
  cases hpc : c.pc with
  | find =>
    simp only [Replies.statement, hpc]
    exact h.goto hp (by rw [hpc]; rfl) (afterFind_updates _ _)
  | findParent =>
    simp only [Replies.statement, hpc]
    refine h.goto hp (by rw [hpc]; rfl) ?_
    rcases afterFindParent_eq (s.tables c.kind) c with he | he <;> rw [he] <;> rfl
  | insert o =>
    simp only [Replies.statement, hpc]
    exact h.insert hp hpc (hs.inserting c hc o hpc)
  | increment o =>
    simp only [Replies.statement, hpc]
    exact h.increment hp hpc
  | findDeleted =>
    simp only [Replies.statement, hpc]
    refine h.goto hp (by rw [hpc]; rfl) ?_
    rcases afterFindDeleted_eq (s.tables c.kind) c with he | ⟨r, -, -, -, he⟩ <;> rw [he] <;> rfl
  | softDelete o =>
    simp only [Replies.statement, hpc]
    obtain ⟨r, hr, hid, hown⟩ := hs.deleting c hc o hpc
    refine h.softDelete hp hpc hr hid hown fun ho => ?_
    obtain ⟨o, rfl⟩ := Option.isSome_iff_exists.1 ho
    simp only [Call.counts, hpc, Bool.not_true, Bool.false_or] at hg
    obtain ⟨x, hx⟩ := Option.isSome_iff_exists.1 hg
    obtain ⟨hx, hxid, hlive⟩ := Tables.mem_findById hx
    rwa [Tables.eq_of_id hr hx (hid.trans hxid.symm)]
  | decrement o =>
    simp only [Replies.statement, hpc]
    refine h.decrement hp hpc ?_
    simpa [Call.counts, hpc] using hg
  | returned => simpa only [Replies.statement, hpc] using h
  | failed => simpa only [Replies.statement, hpc] using h

/-- A new call has nothing pending. -/
theorem Balanced.begin (h : Balanced s) (hc : c.pc.updates = false) : Balanced (s.begin c) := by
  have hpend : ∀ x k, x.updates = true → pending (s.begin c) x k = pending s x k := by
    intro x k hx
    have hne : c.pc ≠ x := fun he => by simp [← he, hc] at hx
    rw [pending, State.begin, List.countP_append, List.countP_singleton]
    simp [pending, hne]
  intro k o n htop hn
  rw [hpend _ _ rfl, hpend _ _ rfl]
  exact h k o n htop hn

/-- Every step in which the counters follow keeps the balance. -/
theorem Balanced.step (h : Balanced s) (hs : Shape s) (hg : Counted s a)
    (hstep : step s a = some s') : Balanced s' := by
  rcases step_cases hstep with ⟨c, rfl, -, hpc⟩ | ⟨p, ok, c, rfl, hp, -, rfl⟩
  · exact h.begin (by rcases hpc with hpc | hpc <;> rw [hpc] <;> rfl)
  · have hg : c.counts (s.tables c.kind) ok = true := hg c hp
    cases ok with
    | true => exact h.statement hs hp hg
    | false =>
      -- the statement that failed was no update of a counter
      refine h.goto hp ?_ rfl
      cases hpc : c.pc <;> first | rfl | simp [Call.counts, hpc] at hg

/-- The counters are right, when there is nothing to come. -/
theorem Balanced.counted (h : Balanced s) (hs : Shape s) (hq : Quiet s) :
    RepliesCounted s ∧ CommentsCounted s := by
  have hpend : ∀ x k, x.updates = true → pending s x k = 0 := by
    intro x k hx
    rw [pending, List.countP_eq_zero]
    intro c hc hw
    obtain ⟨-, rfl⟩ := of_decide_eq_true hw
    have := hq c hc
    cases hpc : c.pc <;> simp [hpc, Pc.updates, Pc.inProgress] at hx this
  refine ⟨fun d hd htop n hn => ?_, fun o n hn => ?_⟩
  · have := h .discussion d.id n (fun _ => ⟨d, hd, rfl, htop⟩) hn
    rw [hpend _ _ rfl, hpend _ _ rfl] at this
    rw [replies_eq_live (hs.threaded .discussion) hd htop]
    omega
  · have := h .solutionComment o n (fun hk => by cases hk) hn
    rw [hpend _ _ rfl, hpend _ _ rfl] at this
    omega

/-- At the start the counts are right. -/
theorem Balanced.init (h : system.init s) : Balanced s := by
  obtain ⟨hr, hc, hthr, hcalls⟩ := h
  intro k o n htop hn
  rw [pending, pending, hcalls]
  cases k with
  | discussion =>
    obtain ⟨d, hd, rfl, hp⟩ := htop rfl
    rw [hr d hd hp n hn, replies_eq_live (hthr .discussion) hd hp]
    rfl
  | solutionComment =>
    rw [hc o n hn]
    rfl

/-- In every run in which no update of a counter fails after its row was written, no row is deleted
    twice and no counter that is zero is decremented: whenever no request is in progress, the
    counter of a discussion at the top is the number of its replies at any depth, and the counter
    of a solution the number of its comments. -/
theorem counts_eq_live (s : State) (h : system.Reach Counted s) (hq : Quiet s) :
    RepliesCounted s ∧ CommentsCounted s := by
  have hinv : Shape s ∧ Balanced s := by
    refine h.invariant (P := fun s => Shape s ∧ Balanced s) (fun s hs => ⟨.init hs, .init hs⟩) ?_
    intro t a t' ht hg hs
    exact ⟨ht.1.step hs, ht.2.step ht.1 hg hs⟩
  exact hinv.2.counted hinv.1 hq

/-- A discussion with two replies. -/
def twoReplies : Tables where
  posts := [⟨1, 7, none, none, false⟩, ⟨2, 7, some 1, some 1, false⟩,
    ⟨3, 8, some 1, some 1, false⟩]
  count i := if i = 1 then some 2 else if i = 2 ∨ i = 3 then some 0 else none
  nextId := 4
  unique := by decide
  id_lt := by decide

/-- A solution with one comment. -/
def oneComment : Tables where
  posts := [⟨1, 7, none, some 5, false⟩]
  count i := if i = 5 then some 1 else none
  nextId := 2
  unique := by decide
  id_lt := by decide

/-- The two of them, and no request. -/
def database : State := ⟨fun k => if k = .discussion then twoReplies else oneComment, []⟩

theorem threaded_twoReplies : Threaded .discussion twoReplies := by
  intro r hr
  simp only [twoReplies, List.mem_cons, List.not_mem_nil, or_false] at hr
  rcases hr with rfl | rfl | rfl
  · rfl
  · exact ⟨_, List.mem_cons_self, rfl, by decide, rfl⟩
  · exact ⟨_, List.mem_cons_self, rfl, by decide, rfl⟩

theorem init_database : system.init database := by
  refine ⟨fun d hd hp n hn => ?_, fun o n hn => ?_, fun k => ?_, rfl⟩
  · change d ∈ twoReplies.posts at hd
    change twoReplies.count d.id = some n at hn
    change n = twoReplies.replies d.id
    rw [replies_eq_live threaded_twoReplies hd hp]
    simp only [twoReplies, List.mem_cons, List.not_mem_nil, or_false] at hd
    rcases hd with rfl | rfl | rfl
    · cases hn
      rfl
    · cases hp
    · cases hp
  · change (if o = 5 then some 1 else none) = some n at hn
    split_ifs at hn with ho
    cases hn
    rw [ho]
    rfl
  · cases k with
    | discussion => exact threaded_twoReplies
    | solutionComment =>
      intro r hr
      rw [List.mem_singleton.1 hr]
      rfl

/-- A reply to a reply, which its author deletes at the same time. -/
theorem counts_eq_live_nested : ∃ s : State, (s.tables .discussion).count 1 = some 2 ∧
    (s.tables .discussion).posts.length = 4 ∧ RepliesCounted s := by
  obtain ⟨s, hl, hs⟩ := System.exists_exec_of_runGuarded (S := system) (G := Counted)
    (s := database) (l := [.reply 2 9, .deleteReply 2 7 false, .statement 0 true,
      .statement 1 true, .statement 0 true, .statement 1 true, .statement 1 true,
      .statement 0 true])
    (p := fun s => (s.tables .discussion).count 1 = some 2 ∧
      (s.tables .discussion).posts.length = 4 ∧ Quiet s) (by decide +kernel)
  obtain ⟨hn, hlen, hq⟩ := of_decide_eq_true hs
  exact ⟨s, hn, hlen, (counts_eq_live s ⟨_, _, init_database, hl⟩ hq).1⟩

/-- The author and an admin delete the same reply: the counter loses two for one. And an update of
    the counter that fails leaves a comment that is not counted. -/
theorem counts_drift :
    (∃ s, system.Reach System.Always s ∧ Quiet s ∧ ¬ RepliesCounted s) ∧
    (∃ s, system.Reach System.Always s ∧ Quiet s ∧ ¬ CommentsCounted s) := by
  constructor
  · obtain ⟨s, hl, hs⟩ := System.exists_exec_of_run (S := system) (s := database)
      (l := [.deleteReply 2 7 false, .deleteReply 2 1 true, .statement 0 true, .statement 1 true,
        .statement 0 true, .statement 1 true, .statement 0 true, .statement 1 true])
      (p := fun s => ((s.tables .discussion).posts.head?.map fun d => (d.id, d.parentId)) =
        some (1, none) ∧ (s.tables .discussion).count 1 = some 0 ∧
        (s.tables .discussion).live 1 = 1 ∧ Quiet s) (by decide +kernel)
    obtain ⟨hd, hn, hr, hq⟩ := of_decide_eq_true hs
    have hreach : system.Reach System.Always s := ⟨_, _, init_database, hl⟩
    have hshape : Shape s := hreach.invariant (fun _ => .init) fun _ _ _ ht _ hs => ht.step hs
    obtain ⟨d, hd, he⟩ := Option.map_eq_some_iff.1 hd
    obtain ⟨hid, hp⟩ := Prod.mk.injEq .. ▸ he
    have hd := List.mem_of_mem_head? hd
    refine ⟨s, hreach, hq, fun hc => ?_⟩
    have := hc d hd hp 0 (hid ▸ hn)
    rw [replies_eq_live (hshape.threaded .discussion) hd hp, hid, hr] at this
    cases this
  · obtain ⟨s, hl, hs⟩ := System.exists_exec_of_run (S := system) (s := database)
      (l := [.comment 5 none 9, .statement 0 true, .statement 0 true, .statement 0 false])
      (p := fun s => (s.tables .solutionComment).count 5 = some 1 ∧
        (s.tables .solutionComment).live 5 = 2 ∧ Quiet s) (by decide +kernel)
    obtain ⟨hn, hr, hq⟩ := of_decide_eq_true hs
    refine ⟨s, ⟨_, _, init_database, hl⟩, hq, fun hc => ?_⟩
    have := hc 5 1 hn
    rw [hr] at this
    cases this

end LiteCode.Replies
