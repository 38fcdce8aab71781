import LiteCode.Db.ProblemUpdate
import LiteCode.Lib.JsonText
import LiteCode.Lib.SortedList
import LiteCode.Routes.ErrorHandler

/-!
# The problems before and after a problem

`handle_problem_navigation` of `src/routes/problem_routes.h`, with `list` of
`src/db/problem_repo.h`. The handler reads a page of the list of problems, newest first, and takes
the two entries next to the problem of the path. It asks for a page of 1000; `clamp_list_filter`
makes that 100, without a word.

* `Meets`: the answer names the neighbours of the problem among all live ones;
* `meets_iff`: it does exactly if fewer than 99 live problems are newer, or there are at most 100
  live ones.
-/

namespace LiteCode.ProblemNavigation

open ErrorHandler ProblemRepo

variable {weight : Bytes → Bytes}

/-! ## The list -/

/-- `ProblemListFilter`. -/
structure ProblemListFilter where
  includeDeleted : Bool := false
  difficulty : Option Bytes := none
  tagId : Option Nat := none
  limit : Int := 20
  offset : Int := 0
  deriving DecidableEq, Repr

/-- `clamp_list_filter`. -/
def clampListFilter (f : ProblemListFilter) : ProblemListFilter :=
  { f with
    limit := if f.limit ≤ 0 then 20 else if 100 < f.limit then 100 else f.limit
    offset := if f.offset < 0 then 0 else f.offset }

/-- The `WHERE` clause. -/
def ProblemListFilter.selects (f : ProblemListFilter) (db : Db weight) (r : Problem) : Bool :=
  f.tagId.all (fun t => db.problemTags.contains (r.id, t)) && (f.includeDeleted || !r.isDeleted) &&
    f.difficulty.all fun d => weight r.difficulty == weight d

/-- `ORDER BY created_at DESC, id DESC`. -/
def Before (a b : Problem) : Prop :=
  b.createdAt < a.createdAt ∨ a.createdAt = b.createdAt ∧ b.id ≤ a.id

instance : DecidableRel Before := fun _ _ => inferInstanceAs (Decidable (_ ∨ _))

/-- How the statements of a request go. -/
structure Faults where
  find : Option Fault := none
  count : Option Fault := none
  list : Option Fault := none
  deriving DecidableEq, Repr

/-- `ProblemListResult`. -/
structure ProblemListResult where
  items : List Problem
  total : Nat
  limit : Int
  offset : Int
  deriving DecidableEq, Repr

/-- The rows of a filter, in order. -/
def selected (db : Db weight) (f : ProblemListFilter) : List Problem :=
  (db.problems.filter (f.selects db)).insertionSort Before

/-- `list`, with `count`. -/
def list (db : Db weight) (faults : Faults) (filter : ProblemListFilter) :
    Except Bytes ProblemListResult :=
  let f := clampListFilter filter
  match faults.count, faults.list with
  | some fault, _ => .error (fault.rethrow "problem_repo::count")
  | none, some fault => .error (fault.rethrow "problem_repo::list")
  | none, none => .ok {
      items := ((selected db f).drop f.offset.toNat).take f.limit.toNat
      total := (db.problems.filter (f.selects db)).length
      limit := f.limit
      offset := f.offset }

/-! ## The handler -/

/-- A link to a problem. -/
structure Link where
  slug : Bytes
  title : Bytes
  deriving DecidableEq, Repr

def link (r : Problem) : Link := ⟨r.slug, r.title⟩

inductive Response
  | error (e : Envelope)
  | success (prev next : Option Link)
  deriving DecidableEq, Repr

/-- The slug of a path. -/
def slugOf (path : Bytes) : Bytes :=
  let slug := path.drop (bytes "/api/v1/problems/").length
  if bytes "/navigation" <:+ slug then slug.take (slug.length - (bytes "/navigation").length)
  else slug

/-- The entries next to the one with an id, if it is in the list. -/
def neighbours (items : List Problem) (id : Nat) : Option Problem × Option Problem :=
  match items.findIdx? fun r => r.id == id with
  | none => (none, none)
  | some i => (if 0 < i then items[i - 1]? else none,
      if i < items.length - 1 then items[i + 1]? else none)

/-- `handle_problem_navigation`, with the answer of its route to an exception. -/
def handleProblemNavigation (db : Db weight) (faults : Faults) (path : Bytes) : Response :=
  if path.length ≤ (bytes "/api/v1/problems/").length + (bytes "/navigation").length then
    .error (invalidInput (bytes "invalid path") [])
  else if (slugOf path).isEmpty then .error (invalidInput (bytes "invalid slug") [])
  else match faults.find with
    -- `find_by_slug` adds nothing to the text of an exception
    | some (.acquire what) | some (.execute what) =>
      .error (internalError (bytes "internal error: " ++ what))
    | none =>
      match db.findBySlug (slugOf path) false with
      | none => .error ⟨404, .notFound, bytes "problem not found", []⟩
      | some current =>
        match list db faults { limit := 1000 } with
        | .error e => .error (internalError (bytes "internal error: " ++ e))
        | .ok allPrev =>
          let (prev, next) := neighbours allPrev.items current.id
          .success (prev.map link) (next.map link)

/-! ## What is meant -/

/-- A live problem. -/
def Live (db : Db weight) (r : Problem) : Prop := r ∈ db.problems ∧ r.isDeleted = false

/-- `a` comes before `b` in the order `created_at DESC, id DESC`. -/
def Newer (a b : Problem) : Prop :=
  b.createdAt < a.createdAt ∨ a.createdAt = b.createdAt ∧ b.id < a.id

instance : DecidableRel Newer := fun _ _ => inferInstanceAs (Decidable (_ ∨ _))

/-- The path of a problem. -/
def navigationPath (slug : Bytes) : Bytes :=
  bytes "/api/v1/problems/" ++ slug ++ bytes "/navigation"

/-- The answer has the neighbours of the problem among the live ones. -/
def Meets (db : Db weight) (p : Problem) : Prop :=
  ∃ prev next, handleProblemNavigation db {} (navigationPath p.slug) =
      .success (prev.map link) (next.map link) ∧
    IsPred Newer (Live db) p prev ∧ IsPred (fun a b => Newer b a) (Live db) p next

/-- How many live problems are newer. -/
def newerCount (db : Db weight) (p : Problem) : Nat :=
  db.problems.countP fun r => !r.isDeleted && decide (Newer r p)

/-- How many live problems there are. -/
def liveCount (db : Db weight) : Nat := db.problems.countP fun r => !r.isDeleted

variable {db : Db weight} {p : Problem} {k : Nat}

/-! ## The order -/

instance : Std.Total Before := ⟨fun a b => by unfold Before; omega⟩

instance : IsTrans Problem Before := ⟨fun a b c hab hbc => by unfold Before at *; omega⟩

/-- The order is asymmetric. -/
theorem not_newer_of_newer (a b : Problem) (h : Newer a b) : ¬Newer b a := by
  unfold Newer at *
  omega

/-- What comes before in the list is newer. -/
theorem newer_of_before (a b : Problem) (h : Before a b) (hne : a.id ≠ b.id) : Newer a b := by
  unfold Before at h
  unfold Newer
  omega

/-- The list without parameters has the problems that are not deleted. -/
theorem selects_default : (ProblemListFilter.selects {} db) = fun r => !r.isDeleted := by
  funext r
  simp [ProblemListFilter.selects]

/-- All live problems, newest first. -/
def liveList (db : Db weight) : List Problem := selected db {}

/-- They are the live ones. -/
theorem mem_liveList {r : Problem} : r ∈ liveList db ↔ Live db r := by
  rw [liveList, selected, List.mem_insertionSort, List.mem_filter, Live]
  simp [ProblemListFilter.selects]

/-- Each is listed once. -/
theorem nodup_liveList_ids : ((liveList db).map Problem.id).Nodup := by
  have hperm := (List.perm_insertionSort Before
    (db.problems.filter ((ProblemListFilter.selects {}) db))).map Problem.id
  exact hperm.nodup_iff.2 (db.nodup_ids.sublist (List.filter_sublist.map _))

/-- The newest comes first. -/
theorem pairwise_liveList : (liveList db).Pairwise Newer :=
  pairwise_insertionSort_of_total newer_of_before
    (db.nodup_ids.sublist (List.filter_sublist.map _))

theorem length_liveList : (liveList db).length = liveCount db := by
  rw [liveList, selected, List.length_insertionSort, liveCount, List.countP_eq_length_filter,
    selects_default]

/-- The newer problems are those in front. -/
theorem newerCount_eq (hk : (liveList db)[k]? = some p) : newerCount db p = k := by
  rw [← countP_of_getElem? not_newer_of_newer pairwise_liveList hk, newerCount, liveList, selected,
    (List.perm_insertionSort _ _).countP_eq, List.countP_filter]
  refine List.countP_congr fun r _ => ?_
  simp [ProblemListFilter.selects, and_comm]

/-! ## The page -/

/-- The entries of a page next to a problem that is on it, or none. -/
theorem neighbours_take (hk : (liveList db)[k]? = some p) (size : Nat) :
    neighbours ((liveList db).take size) p.id =
      if k < size then
        (if k = 0 then none else (liveList db)[k - 1]?,
          if k + 1 < size then (liveList db)[k + 1]? else none)
      else (none, none) := by
  have hids : (((liveList db).take size).map Problem.id).Nodup :=
    nodup_liveList_ids.sublist ((List.take_sublist _ _).map _)
  by_cases hsize : k < size
  · have hfind : ((liveList db).take size).findIdx? (fun r => r.id == p.id) = some k :=
      (findIdx?_key_eq_some_iff hids).2 ⟨p, by rw [List.getElem?_take_of_lt hsize, hk], rfl⟩
    have hlength := (List.getElem?_eq_some_iff.1 hk).1
    have hprev : (if 0 < k then ((liveList db).take size)[k - 1]? else none) =
        if k = 0 then none else (liveList db)[k - 1]? := by
      by_cases hzero : k = 0
      · rw [if_pos hzero, if_neg (by omega)]
      · rw [if_neg hzero, if_pos (by omega), List.getElem?_take_of_lt (by omega)]
    have hnext : (if k < ((liveList db).take size).length - 1 then
        ((liveList db).take size)[k + 1]? else none) =
          if k + 1 < size then (liveList db)[k + 1]? else none := by
      rw [List.length_take]
      by_cases hlast : k + 1 < size
      · rw [if_pos hlast, List.getElem?_take_of_lt hlast]
        split_ifs with hmore
        · rfl
        · exact (List.getElem?_eq_none (by omega)).symm
      · rw [if_neg hlast, if_neg (by omega)]
    rw [if_pos hsize, neighbours, hfind]
    simp only [hprev, hnext]
  · have hfind : ((liveList db).take size).findIdx? (fun r => r.id == p.id) = none := by
      refine Option.eq_none_iff_forall_not_mem.2 fun i hi => ?_
      obtain ⟨r, hr, hid⟩ := (findIdx?_key_eq_some_iff hids).1 hi
      -- the only entry with this id is further behind
      have hlt : i < size := by
        have := (List.getElem?_eq_some_iff.1 hr).1
        rw [List.length_take] at this
        omega
      rw [List.getElem?_take_of_lt hlt] at hr
      have hfront := (findIdx?_key_eq_some_iff nodup_liveList_ids).2 ⟨r, hr, hid⟩
      have hback := (findIdx?_key_eq_some_iff nodup_liveList_ids).2 ⟨p, hk, rfl⟩
      rw [hfront] at hback
      cases hback
      exact hsize hlt
    rw [if_neg hsize, neighbours, hfind]

/-- The slug is cut out of the path. -/
theorem slugOf_navigationPath (slug : Bytes) : slugOf (navigationPath slug) = slug := by
  have hdrop : (navigationPath slug).drop (bytes "/api/v1/problems/").length =
      slug ++ bytes "/navigation" := by
    rw [navigationPath, List.append_assoc, List.drop_left]
  simp only [slugOf, hdrop]
  rw [if_pos (List.suffix_append _ _), List.length_append, Nat.add_sub_cancel, List.take_left]

/-- The problem is found by its path. -/
theorem handleProblemNavigation_eq (hp : Live db p) (hslug : p.slug ≠ []) :
    handleProblemNavigation db {} (navigationPath p.slug) =
      let (prev, next) := neighbours ((liveList db).take 100) p.id
      .success (prev.map link) (next.map link) := by
  have hlen : ¬(navigationPath p.slug).length ≤
      (bytes "/api/v1/problems/").length + (bytes "/navigation").length := by
    have := List.length_pos_iff.2 hslug
    rw [navigationPath, List.length_append, List.length_append]
    omega
  have hfound : db.findBySlug p.slug false = some p :=
    Db.findBySlug_eq_some_iff.2 ⟨hp.1, rfl, by rw [hp.2]; rfl⟩
  have hlist : list db {} { limit := 1000 } = .ok {
      items := (liveList db).take 100
      total := (db.problems.filter (ProblemListFilter.selects {} db)).length
      limit := 100
      offset := 0 } := rfl
  rw [handleProblemNavigation, if_neg hlen, slugOf_navigationPath,
    if_neg (by simpa using hslug)]
  simp only [hfound, hlist]

/-- The neighbours among the live problems stand next to the problem in the list of all. -/
theorem meets_iff_of_getElem? (hk : (liveList db)[k]? = some p) : Meets db p ↔
    handleProblemNavigation db {} (navigationPath p.slug) =
      .success ((if k = 0 then none else (liveList db)[k - 1]?).map link)
        ((liveList db)[k + 1]?.map link) := by
  have hlive : Live db = (· ∈ liveList db) := by
    funext r
    exact propext mem_liveList.symm
  have hprev := isPred_getElem? not_newer_of_newer pairwise_liveList hk
  have hnext := isSucc_getElem? not_newer_of_newer pairwise_liveList hk
  rw [Meets, hlive]
  constructor
  · rintro ⟨prev, next, h, hleft, hright⟩
    rw [h, hleft.unique not_newer_of_newer hprev,
      hright.unique (fun a b => not_newer_of_newer b a) hnext]
  · intro h
    exact ⟨_, _, h, hprev, hnext⟩

/-- The answer has the neighbours of a live problem exactly if fewer than 99 live problems are
    newer, or the page has all live ones. -/
theorem meets_iff (db : Db weight) (p : Problem) (hp : Live db p) :
    Meets db p ↔ p.slug ≠ [] ∧ (newerCount db p < 99 ∨ liveCount db ≤ 100) := by
  obtain ⟨k, hk⟩ := List.getElem?_of_mem (mem_liveList.2 hp)
  have hlength := (List.getElem?_eq_some_iff.1 hk).1
  rw [newerCount_eq hk, ← length_liveList, meets_iff_of_getElem? hk]
  by_cases hslug : p.slug = []
  · -- no route leads here with an empty slug
    rw [hslug]
    exact iff_of_false (by rw [handleProblemNavigation]; simp [navigationPath]) fun h => h.1 rfl
  rw [handleProblemNavigation_eq hp hslug, neighbours_take hk, and_iff_right hslug]
  by_cases hsize : k < 100
  · rw [if_pos hsize]
    by_cases hnext : k + 1 < 100
    · rw [if_pos hnext]
      exact iff_of_true rfl (.inl (by omega))
    · rw [if_neg hnext]
      by_cases hlast : k + 1 < (liveList db).length
      · -- the last entry of a page that is not the last one
        have hmore : (liveList db)[k + 1]? = some (liveList db)[k + 1] :=
          List.getElem?_eq_getElem hlast
        rw [hmore]
        exact iff_of_false nofun fun h => by omega
      · have hend : (liveList db)[k + 1]? = none := List.getElem?_eq_none (by omega)
        rw [hend]
        exact iff_of_true rfl (.inr (by omega))
  · have hprev : (liveList db)[k - 1]? = some (liveList db)[k - 1] :=
      List.getElem?_eq_getElem (by omega)
    rw [if_neg hsize, if_neg (by omega), hprev]
    exact iff_of_false nofun fun h => by omega

/-! ## A catalogue -/

/-- The problem with the number `i`, created at the time `i`. -/
def numbered (i : Nat) : Problem where
  id := i
  slug := decimal i
  title := decimal i
  difficulty := bytes "easy"
  description := []
  template := none
  timeLimit := 1000
  memoryLimit := 256
  acceptedCount := 0
  submissionCount := 0
  isDeleted := false
  createdAt := i
  updatedAt := i

/-- The first `n` problems. -/
def catalogue (n : Nat) : Db id where
  problems := (List.range n).map numbered
  nextId := n + 1
  problemTags := []
  testCases := []
  nextCaseId := 1
  nodup_ids := by
    rw [List.map_map]
    exact List.nodup_range.map fun i j h => h
  id_lt := by
    intro r hr
    obtain ⟨i, hi, rfl⟩ := List.mem_map.1 hr
    exact Nat.lt_succ_of_lt (List.mem_range.1 hi)
  nodup_slugs := by
    rw [List.map_map]
    exact List.nodup_range.map decimal_injective
  nextId_pos := Nat.succ_pos n

theorem live_numbered {i n : Nat} (h : i < n) : Live (catalogue n) (numbered i) :=
  ⟨List.mem_map_of_mem (List.mem_range.2 h), rfl⟩

theorem meets_iff_three : Meets (catalogue 3) (numbered 1) ↔
    (numbered 1).slug ≠ [] ∧
      (newerCount (catalogue 3) (numbered 1) < 99 ∨ liveCount (catalogue 3) ≤ 100) :=
  meets_iff (catalogue 3) (numbered 1) (live_numbered (by decide))

/-- Of 101 problems, the oldest one has no neighbours. -/
theorem oldest_alone :
    Live (catalogue 101) (numbered 0) ∧
    handleProblemNavigation (catalogue 101) {} (navigationPath (numbered 0).slug) =
      .success none none ∧ ¬Meets (catalogue 101) (numbered 0) := by
  have hanswer : handleProblemNavigation (catalogue 101) {} (navigationPath (numbered 0).slug) =
      .success none none := by decide +kernel
  refine ⟨live_numbered (by decide), hanswer, ?_⟩
  rintro ⟨prev, next, h, hprev, -⟩
  rw [hanswer] at h
  cases prev with
  | none => exact hprev (numbered 1) (live_numbered (by decide)) (.inl (by decide))
  | some q => cases h

end LiteCode.ProblemNavigation
