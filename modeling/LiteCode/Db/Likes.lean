import LiteCode.Lib.ListIndex
import LiteCode.Lib.System
import Mathlib.Data.List.Nodup
import Mathlib.Logic.Function.Basic

/-!
# Likes

A user likes a discussion, a solution or a comment on a solution, or takes the like back:
`toggle_like` of `src/db/discussion_repo.h` and `src/db/solution_comment_repo.h`, and
`toggle_solution_like` of `src/routes/solution_routes.h`. Each is a `SELECT` of the like and then
two writes, one to the likes and one to the counter `like_count` of the item. There is no
transaction: the statements of other requests come in between, and any of them may fail. A
statement that fails is taken to have had no effect: no reply of the database is lost.

The counter is decremented whether the `DELETE` found a row or not, stays at zero when it is zero,
and is left as it is when its statement fails. Otherwise it follows the likes.

* `Tables`: the likes of one kind of item, with the keys that the database enforces;
* `Counted`: the steps in which the counter follows;
* `likeCount_eq_rows`: with these steps only, the counter is the number of likes whenever no
  request is in progress.
-/

namespace LiteCode.Likes

/-- What is liked. -/
inductive Kind
  | discussion
  | solution
  | solutionComment
  deriving DecidableEq, Repr

/-- The two tables of one kind: the likes, as pairs of a user and an item, and `like_count` of
    every item that exists. `unique` is the key of the likes, `exists_item` the foreign key. -/
structure Tables where
  likes : List (Int × Int)
  likeCount : Int → Option Nat
  unique : likes.Nodup
  exists_item : ∀ r ∈ likes, (likeCount r.2).isSome

/-- The number of likes of an item. -/
def Tables.rows (t : Tables) (item : Int) : Nat := t.likes.countP fun r => r.2 = item

/-- `DELETE FROM ..._likes WHERE user_id = ? AND ..._id = ?`. -/
def Tables.delete (t : Tables) (r : Int × Int) : Tables where
  likes := t.likes.erase r
  likeCount := t.likeCount
  unique := t.unique.erase r
  exists_item x hx := t.exists_item x (List.mem_of_mem_erase hx)

/-- `INSERT INTO ..._likes`: refused when the like or no such item is there. -/
def Tables.insert (t : Tables) (r : Int × Int) : Option Tables :=
  if h : r ∉ t.likes ∧ (t.likeCount r.2).isSome then
    some {
      likes := t.likes ++ [r]
      likeCount := t.likeCount
      unique := List.nodup_append.2 ⟨t.unique, List.nodup_singleton r, by
        rintro x hx y hy rfl
        exact h.1 (List.mem_singleton.1 hy ▸ hx)⟩
      exists_item := fun x hx => (List.mem_append.1 hx).elim (t.exists_item x) fun hx =>
        (List.mem_singleton.1 hx) ▸ h.2 }
  else none

/-- `UPDATE ... SET like_count = f(like_count) WHERE id = ?`. -/
def Tables.updateCount (t : Tables) (f : Nat → Nat) (item : Int) : Tables where
  likes := t.likes
  likeCount i := if i = item then (t.likeCount i).map f else t.likeCount i
  unique := t.unique
  exists_item r hr := by
    have := t.exists_item r hr
    split_ifs
    · rwa [Option.isSome_map]
    · exact this

/-! ## Requests -/

/-- The statements of a toggle that are still to come. -/
inductive Pc
  | select
  | delete
  | decrement
  | insert
  | increment
  /-- The toggle returned whether the like is new. -/
  | returned (liked : Bool)
  /-- A statement failed, and the request with it. -/
  | failed
  deriving DecidableEq, Repr

/-- A toggle in progress. -/
structure Call where
  kind : Kind
  item : Int
  userId : Int
  pc : Pc
  deriving DecidableEq, Repr

/-- `discussion_repo::toggle_like`. -/
def toggleDiscussionLike (discussionId userId : Int) : Call :=
  ⟨.discussion, discussionId, userId, .select⟩

/-- `toggle_solution_like`. -/
def toggleSolutionLike (solutionId userId : Int) : Call := ⟨.solution, solutionId, userId, .select⟩

/-- `solution_comment_repo::toggle_like`. -/
def toggleCommentLike (commentId userId : Int) : Call :=
  ⟨.solutionComment, commentId, userId, .select⟩

/-- The toggle is between two statements. -/
def Pc.inProgress : Pc → Bool
  | .returned _ | .failed => false
  | _ => true

/-- The tables and the requests. -/
structure State where
  tables : Kind → Tables
  calls : List Call

/-- The steps: a new request, and the next statement of the request `p`, which may fail. -/
inductive Action
  | likeDiscussion (discussionId userId : Int)
  | likeSolution (solutionId userId : Int)
  | likeComment (commentId userId : Int)
  | statement (p : Nat) (ok : Bool)
  deriving DecidableEq, Repr

/-- A new request. -/
def State.begin (s : State) (c : Call) : State := { s with calls := s.calls ++ [c] }

/-- The request `p` goes on at `pc`. -/
def State.goto (s : State) (p : Nat) (c : Call) (pc : Pc) : State :=
  { s with calls := s.calls.set p { c with pc } }

/-- The tables of a kind after a write. -/
def State.write (s : State) (k : Kind) (t : Tables) : State :=
  { s with tables := Function.update s.tables k t }

/-- The next statement of the request `p`, if the database carries it out. -/
def statement (s : State) (p : Nat) (c : Call) : State :=
  let t := s.tables c.kind
  match c.pc with
  | .select => s.goto p c (if (c.userId, c.item) ∈ t.likes then .delete else .insert)
  | .delete => (s.write c.kind (t.delete (c.userId, c.item))).goto p c .decrement
  | .decrement =>
    (s.write c.kind (t.updateCount (fun n => max 0 (n - 1)) c.item)).goto p c (.returned false)
  | .insert =>
    match t.insert (c.userId, c.item) with
    | some t => (s.write c.kind t).goto p c .increment
    | none => s.goto p c .failed
  | .increment => (s.write c.kind (t.updateCount (· + 1) c.item)).goto p c (.returned true)
  | .returned _ => s
  | .failed => s

/-- One step. -/
def step (s : State) : Action → Option State
  | .likeDiscussion discussionId userId => some (s.begin (toggleDiscussionLike discussionId userId))
  | .likeSolution solutionId userId => some (s.begin (toggleSolutionLike solutionId userId))
  | .likeComment commentId userId => some (s.begin (toggleCommentLike commentId userId))
  | .statement p ok =>
    match s.calls[p]? with
    | none => none
    | some c =>
      if !c.pc.inProgress then none
      else some (if ok then statement s p c else s.goto p c .failed)

/-- The counters are the numbers of likes. -/
def Consistent (s : State) : Prop :=
  ∀ k item n, (s.tables k).likeCount item = some n → n = (s.tables k).rows item

/-- No toggle is in progress. -/
def Quiet (s : State) : Prop := ∀ c ∈ s.calls, c.pc.inProgress = false

instance (s : State) : Decidable (Quiet s) :=
  inferInstanceAs (Decidable (∀ c ∈ s.calls, c.pc.inProgress = false))

/-- The likes and their counters, from a consistent database on. -/
def system : System State Action where
  init s := Consistent s ∧ s.calls = []
  step := step

/-- The steps in which the counter follows the likes: the update of a counter does not fail, a
    `DELETE` finds the like that its `SELECT` found, and a counter that is decremented is not
    zero. -/
def Counted (s : State) : Action → Prop
  | .statement p ok => ∀ c ∈ s.calls[p]?,
      (c.pc = .delete → ok = true → (c.userId, c.item) ∈ (s.tables c.kind).likes) ∧
      (c.pc = .decrement → ok = true ∧ (s.tables c.kind).likeCount c.item ≠ some 0) ∧
      (c.pc = .increment → ok = true)
  | _ => True

instance (s : State) : (a : Action) → Decidable (Counted s a)
  | .likeDiscussion _ _ => isTrue trivial
  | .likeSolution _ _ => isTrue trivial
  | .likeComment _ _ => isTrue trivial
  | .statement p _ => inferInstanceAs (Decidable (∀ c ∈ s.calls[p]?, _))

/-! ## The counters -/

variable {s s' : State} {a : Action} {c : Call} {p : Nat} {k : Kind} {item : Int} {t t' : Tables}

/-- The request is before the statement `pc` on an item. -/
def Call.waits (pc : Pc) (k : Kind) (item : Int) (c : Call) : Bool :=
  c.kind = k ∧ c.item = item ∧ c.pc = pc

/-- How many requests are before the statement `pc` on an item. -/
def pending (s : State) (pc : Pc) (k : Kind) (item : Int) : Nat :=
  s.calls.countP (Call.waits pc k item)

/-- The counter with the updates that are still to come. -/
def Balanced (s : State) : Prop :=
  ∀ k item n, (s.tables k).likeCount item = some n →
    n + pending s .increment k item = (s.tables k).rows item + pending s .decrement k item

theorem rows_delete {r : Int × Int} (h : r ∈ t.likes) (item : Int) :
    t.rows item = (t.delete r).rows item + if r.2 = item then 1 else 0 := by
  rw [Tables.rows, (List.perm_cons_erase h).countP_eq, List.countP_cons]
  simp [Tables.rows, Tables.delete]

theorem insert_eq_some {r : Int × Int} (h : t.insert r = some t') :
    t'.likeCount = t.likeCount ∧
      ∀ item, t'.rows item = t.rows item + if r.2 = item then 1 else 0 := by
  rw [Tables.insert] at h
  split_ifs at h
  cases h
  refine ⟨rfl, fun item => ?_⟩
  rw [Tables.rows, Tables.rows, List.countP_append, List.countP_singleton]
  simp

/-- What a request that goes on changes in the updates to come. -/
theorem pending_goto (hp : s.calls[p]? = some c) (x pc : Pc) (k : Kind) (item : Int) :
    pending (s.goto p c pc) x k item + (if c.waits x k item then 1 else 0) =
      pending s x k item + if { c with pc }.waits x k item then 1 else 0 :=
  countP_set_add hp

/-- A request that neither waits for the update `x` of the counter nor will. -/
theorem pending_goto_eq (hp : s.calls[p]? = some c) {x pc : Pc} (hc : c.pc ≠ x) (hpc : pc ≠ x)
    (k : Kind) (item : Int) : pending (s.goto p c pc) x k item = pending s x k item := by
  simpa [Call.waits, hc, hpc] using pending_goto hp x pc k item

/-- A request that comes to the update `x` of its counter. -/
theorem pending_goto_add (hp : s.calls[p]? = some c) {x : Pc} (hc : c.pc ≠ x) :
    pending (s.goto p c x) x c.kind c.item = pending s x c.kind c.item + 1 := by
  simpa [Call.waits, hc] using pending_goto hp x x c.kind c.item

/-- A request that made the update `x` of its counter. -/
theorem pending_goto_sub (hp : s.calls[p]? = some c) {x pc : Pc} (hc : c.pc = x) (hpc : pc ≠ x) :
    pending (s.goto p c pc) x c.kind c.item + 1 = pending s x c.kind c.item := by
  simpa [Call.waits, hc, hpc] using pending_goto hp x pc c.kind c.item

/-- Requests on another item do not count. -/
theorem pending_goto_other (hp : s.calls[p]? = some c) (x pc : Pc)
    (hne : ¬ (c.kind = k ∧ c.item = item)) :
    pending (s.goto p c pc) x k item = pending s x k item := by
  have hw : ∀ pc, ({ c with pc } : Call).waits x k item = false := by
    intro pc
    simp only [Call.waits, decide_eq_false_iff_not]
    exact fun h => hne ⟨h.1, h.2.1⟩
  simpa [hw, show c.waits x k item = false from hw c.pc] using pending_goto hp x pc k item

/-- A request that goes on without a write. -/
theorem Balanced.goto (h : Balanced s) (hp : s.calls[p]? = some c) {pc : Pc}
    (hc : c.pc ≠ .increment ∧ c.pc ≠ .decrement) (hpc : pc ≠ .increment ∧ pc ≠ .decrement) :
    Balanced (s.goto p c pc) := by
  intro k item n hn
  rw [pending_goto_eq hp hc.1 hpc.1, pending_goto_eq hp hc.2 hpc.2]
  exact h k item n hn

/-- A request that writes to the tables of its item: it is enough to look at this item. -/
theorem Balanced.write (h : Balanced s) (hp : s.calls[p]? = some c) {pc : Pc}
    (hother : ∀ i, i ≠ c.item → t'.likeCount i = (s.tables c.kind).likeCount i ∧
      t'.rows i = (s.tables c.kind).rows i)
    (hitem : ∀ n, t'.likeCount c.item = some n →
      n + pending (s.goto p c pc) .increment c.kind c.item =
        t'.rows c.item + pending (s.goto p c pc) .decrement c.kind c.item) :
    Balanced ((s.write c.kind t').goto p c pc) := by
  intro k item n hn
  change (Function.update s.tables c.kind t' k).likeCount item = some n at hn
  change n + pending (s.goto p c pc) .increment k item =
    (Function.update s.tables c.kind t' k).rows item + pending (s.goto p c pc) .decrement k item
  by_cases hk : k = c.kind
  · subst hk
    rw [Function.update_self] at hn ⊢
    by_cases hi : item = c.item
    · subst hi
      exact hitem n hn
    · obtain ⟨hcount, hrows⟩ := hother item hi
      rw [hcount] at hn
      rw [hrows, pending_goto_other hp _ _ (fun h => hi h.2.symm),
        pending_goto_other hp _ _ (fun h => hi h.2.symm)]
      exact h _ item n hn
  · rw [Function.update_of_ne hk] at hn ⊢
    rw [pending_goto_other hp _ _ (fun h => hk h.1.symm),
      pending_goto_other hp _ _ (fun h => hk h.1.symm)]
    exact h k item n hn

theorem updateCount_other {f : Nat → Nat} {i : Int} (hi : i ≠ item) :
    (t.updateCount f item).likeCount i = t.likeCount i ∧
      (t.updateCount f item).rows i = t.rows i :=
  ⟨if_neg hi, rfl⟩

theorem updateCount_self {f : Nat → Nat} {n : Nat}
    (h : (t.updateCount f item).likeCount item = some n) :
    ∃ m, t.likeCount item = some m ∧ n = f m := by
  simp only [Tables.updateCount, if_true] at h
  obtain ⟨m, hm, he⟩ := Option.map_eq_some_iff.1 h
  exact ⟨m, hm, he.symm⟩

/-- A statement that is carried out keeps the balance. -/
theorem Balanced.statement (h : Balanced s) (hp : s.calls[p]? = some c)
    (hg : Counted s (.statement p true)) : Balanced (statement s p c) := by
  have hg := hg c hp
  have hb := h c.kind c.item
  cases hpc : c.pc with
  | select =>
    simp only [Likes.statement, hpc]
    refine h.goto hp (by simp [hpc]) ?_
    split <;> simp
  | delete =>
    -- The row goes now, and the counter follows: a decrement is pending.
    have hg := hg.1 hpc rfl
    simp only [Likes.statement, hpc]
    refine h.write hp (fun i hi => ⟨rfl, ?_⟩) fun n hn => ?_
    · rw [rows_delete hg i, if_neg (Ne.symm hi), Nat.add_zero]
    · rw [pending_goto_eq hp (by simp [hpc]) (by simp), pending_goto_add hp (by simp [hpc]),
        hb n hn, rows_delete hg c.item, if_pos rfl]
      omega
  | decrement =>
    simp only [Likes.statement, hpc]
    refine h.write hp (fun i hi => updateCount_other hi) fun n hn => ?_
    obtain ⟨m, hm, rfl⟩ := updateCount_self hn
    -- The counter is positive (`Counted`), so it is not cut off at zero.
    have hpos : m ≠ 0 := fun h0 => (hg.2.1 hpc).2 (h0 ▸ hm)
    have hsub : pending (s.goto p c (.returned false)) .decrement c.kind c.item + 1 = _ :=
      pending_goto_sub hp hpc (by simp)
    have hbm := hb m hm
    rw [pending_goto_eq hp (by simp [hpc]) (by simp)]
    change max 0 (m - 1) + _ = (s.tables c.kind).rows c.item + _
    omega
  | insert =>
    simp only [Likes.statement, hpc]
    split
    · next t ht =>
      obtain ⟨hcount, hrows⟩ := insert_eq_some ht
      refine h.write hp (fun i hi => ⟨by rw [hcount], ?_⟩) fun n hn => ?_
      · rw [hrows, if_neg (Ne.symm hi), Nat.add_zero]
      · rw [hcount] at hn
        rw [pending_goto_add hp (by simp [hpc]), pending_goto_eq hp (by simp [hpc]) (by simp),
          hrows, if_pos rfl, ← Nat.add_assoc, hb n hn]
        omega
    · exact h.goto hp (by simp [hpc]) (by simp)
  | increment =>
    simp only [Likes.statement, hpc]
    refine h.write hp (fun i hi => updateCount_other hi) fun n hn => ?_
    obtain ⟨m, hm, rfl⟩ := updateCount_self hn
    have hsub : pending (s.goto p c (.returned true)) .increment c.kind c.item + 1 = _ :=
      pending_goto_sub hp hpc (by simp)
    have hbm := hb m hm
    rw [pending_goto_eq hp (x := .decrement) (by simp [hpc]) (by simp)]
    change m + 1 + _ = (s.tables c.kind).rows c.item + _
    omega
  | returned liked => simpa only [Likes.statement, hpc] using h
  | failed => simpa only [Likes.statement, hpc] using h

theorem Balanced.begin (h : Balanced s) (hc : c.pc = .select) : Balanced (s.begin c) := by
  have hpend : ∀ x k item, x ≠ .select → pending (s.begin c) x k item = pending s x k item := by
    intro x k item hx
    have hw : c.waits x k item = false := by
      simp only [Call.waits, hc, decide_eq_false_iff_not]
      exact fun h => hx h.2.2.symm
    rw [pending, State.begin, List.countP_append, List.countP_singleton, hw]
    rfl
  intro k item n hn
  rw [hpend _ _ _ (by simp), hpend _ _ _ (by simp)]
  exact h k item n hn

theorem Balanced.step (h : Balanced s) (hg : Counted s a) (hs : step s a = some s') :
    Balanced s' := by
  cases a with
  | likeDiscussion discussionId userId =>
    cases hs
    exact h.begin rfl
  | likeSolution solutionId userId =>
    cases hs
    exact h.begin rfl
  | likeComment commentId userId =>
    cases hs
    exact h.begin rfl
  | statement p ok =>
    simp only [Likes.step] at hs
    split at hs
    · cases hs
    · next c hp =>
      split_ifs at hs with hin hok
      · subst hok
        cases hs
        exact h.statement hp hg
      · -- the statement that failed was no update of a counter
        cases hs
        refine h.goto hp ?_ (by simp)
        have hg := hg c hp
        exact ⟨fun hpc => hok (hg.2.2 hpc), fun hpc => hok (hg.2.1 hpc).1⟩

/-- In every run in which no update of a counter fails after its like was written, every `DELETE`
    finds its like and no counter that is zero is decremented: whenever no toggle is in progress,
    the counter of every item is the number of its likes. -/
theorem likeCount_eq_rows (s : State) (h : system.Reach Counted s) (hq : Quiet s) :
    Consistent s := by
  have hb : Balanced s := by
    refine h.invariant (fun s hs k item n hn => ?_) fun t a t' ht hg hs => ht.step hg hs
    rw [pending, pending, hs.2]
    exact hs.1 k item n hn
  have hpend : ∀ x k item, x.inProgress = true → pending s x k item = 0 := by
    intro x k item hx
    rw [pending, List.countP_eq_zero]
    intro c hc hw
    simp only [Call.waits, decide_eq_true_eq] at hw
    have := hq c hc
    rw [hw.2.2, hx] at this
    cases this
  intro k item n hn
  have := hb k item n hn
  rwa [hpend _ _ _ rfl, hpend _ _ _ rfl] at this

/-- An item with two likes. -/
def twoLikes : Tables where
  likes := [(7, 5), (8, 5)]
  likeCount i := if i = 5 then some 2 else none
  unique := by decide
  exists_item := by decide

/-- Items of every kind with two likes, and no request. -/
def twoLikesEach : State := ⟨fun _ => twoLikes, []⟩

/-- The statements of two requests in turn. -/
def twice : List Action :=
  [.statement 0 true, .statement 1 true, .statement 0 true, .statement 1 true, .statement 0 true,
    .statement 1 true]

theorem init_twoLikesEach : system.init twoLikesEach := by
  refine ⟨fun k item n hn => ?_, rfl⟩
  change (if item = 5 then some 2 else none) = some n at hn
  split_ifs at hn with hi
  cases hn
  rw [hi]
  exact (by decide : 2 = twoLikes.rows 5)

/-- A new like of one user, and a like that another one takes back, at the same time. -/
theorem likeCount_eq_rows_interleaved : ∃ s, s.calls.length = 2 ∧
    (s.tables .discussion).likeCount 5 = some 2 ∧ (s.tables .discussion).rows 5 = 2 ∧
    Consistent s := by
  obtain ⟨s, hl, hs⟩ := System.exists_exec_of_runGuarded (S := system) (G := Counted)
    (s := twoLikesEach) (l := [.likeDiscussion 5 9, .likeDiscussion 5 7, .statement 0 true,
      .statement 1 true, .statement 0 true, .statement 1 true, .statement 1 true,
      .statement 0 true])
    (p := fun s => s.calls.length = 2 ∧ (s.tables .discussion).likeCount 5 = some 2 ∧
      (s.tables .discussion).rows 5 = 2 ∧ Quiet s) (by decide +kernel)
  obtain ⟨hc, hn, hr, hq⟩ := of_decide_eq_true hs
  exact ⟨s, hc, hn, hr, likeCount_eq_rows s ⟨_, _, init_twoLikesEach, hl⟩ hq⟩

/-- A user takes a like back twice at the same time: the counter is decremented twice. And an
    update of the counter that fails leaves a like that is not counted. -/
theorem likeCount_drifts :
    (∃ s, system.Reach System.Always s ∧ Quiet s ∧
      (s.tables .discussion).likeCount 5 = some 0 ∧ (s.tables .discussion).rows 5 = 1) ∧
    (∃ s, system.Reach System.Always s ∧ Quiet s ∧
      (s.tables .solution).likeCount 5 = some 0 ∧ (s.tables .solution).rows 5 = 1) ∧
    (∃ s, system.Reach System.Always s ∧ Quiet s ∧
      (s.tables .solutionComment).likeCount 5 = some 2 ∧
      (s.tables .solutionComment).rows 5 = 3) := by
  have hrun : ∀ l k n r, (system.run twoLikesEach l).any (fun s => Quiet s ∧
      (s.tables k).likeCount 5 = some n ∧ (s.tables k).rows 5 = r) = true →
      ∃ s, system.Reach System.Always s ∧ Quiet s ∧ (s.tables k).likeCount 5 = some n ∧
        (s.tables k).rows 5 = r := by
    intro l k n r h
    obtain ⟨s, hl, hs⟩ := System.exists_exec_of_run h
    exact ⟨s, ⟨_, _, init_twoLikesEach, hl⟩, of_decide_eq_true hs⟩
  refine ⟨hrun (.likeDiscussion 5 7 :: .likeDiscussion 5 7 :: twice) _ _ _ (by decide +kernel),
    hrun (.likeSolution 5 7 :: .likeSolution 5 7 :: twice) _ _ _ (by decide +kernel),
    hrun [.likeComment 5 9, .statement 0 true, .statement 0 true, .statement 0 false] _ _ _
      (by decide +kernel)⟩

end LiteCode.Likes
