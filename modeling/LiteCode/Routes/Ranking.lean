import LiteCode.Db.UserRepo
import LiteCode.Lib.SortedList
import LiteCode.Lib.Stoi
import LiteCode.Lib.Utf8
import LiteCode.Routes.ErrorHandler
import Mathlib.Data.List.Perm.Subperm

/-!
# The leaderboard

`GET /api/v1/stats/ranking` (`get_ranking_handler` of `src/routes/stats_routes.h`) lists the users
page by page, with the problems they solved and the submissions they made. Users whose names match a
pattern are left out, by the same clause in the query of the page and in that of the total.

The counts come from an outer join, and are null for a user without any submission. The page shows
nulls as zero, but is sorted by the columns themselves: `ORDER BY solved_count` names the column of
the join, as the shown expression has no name. A null is below every number.

* `getRankingHandler`: the endpoint, from the parameters to the page;
* `Leaderboard`: the rows of all pages are the ranked users, sorted by what is shown, and numbered;
* `leaderboard_iff`: this holds exactly if no user without submissions belongs in front of one who
  has some.
-/

namespace LiteCode.StatsRoutes

open ErrorHandler

/-! ## The tables -/

/-- A text of the database, whose character set is UTF-8. -/
abbrev Text := {t : Bytes // Utf8.WellFormed t}

/-- A row of `users`: the columns of the query. -/
structure UserRow where
  id : Nat
  username : Text
  role : UserRepo.Role
  avatar : Option Text
  deriving DecidableEq

/-- A row of `submissions`. -/
structure SubmissionRow where
  userId : Nat
  problemId : Nat
  status : Bytes
  deriving DecidableEq, Repr

/-- A row of `problems`. -/
structure ProblemRow where
  id : Nat
  isDeleted : Bool
  deriving DecidableEq, Repr

/-- The tables. An id of a user is an `INT`, counted from one. -/
structure Db where
  users : List UserRow
  submissions : List SubmissionRow
  problems : List ProblemRow
  ids : (users.map UserRow.id).Nodup
  ids_pos : ∀ u ∈ users, 0 < u.id
  ids_lt : ∀ u ∈ users, u.id < 2 ^ 31

/-! ## The queries -/

/-- `p.is_deleted = FALSE` for the problem of a submission, if it has one. -/
def Db.alive (db : Db) (problemId : Nat) : Bool :=
  (db.problems.find? fun p => p.id == problemId).any fun p => !p.isDeleted

/-- The columns of `agg`. -/
structure Agg where
  solvedCount : Nat
  submissionCount : Nat
  acceptedCount : Nat
  deriving DecidableEq, Repr

/-- The row of `agg` that is joined to a user, if there is one. -/
def Db.agg (db : Db) (u : UserRow) : Option Agg :=
  let own := db.submissions.filter fun s => s.userId == u.id
  let accepted := own.filter fun s => s.status == bytes "ac" && db.alive s.problemId
  if own.isEmpty then none
  else some {
    solvedCount := (accepted.map SubmissionRow.problemId).eraseDups.length
    submissionCount := own.countP fun s => db.alive s.problemId
    acceptedCount := accepted.length }

/-- A row of the join. -/
abbrev Joined := UserRow × Option Agg

/-- `LeaderboardRow`; the rate is a `double` in the code. -/
structure LeaderboardRow where
  userId : Nat
  username : Bytes
  role : Bytes
  solvedCount : Nat
  submissionCount : Nat
  acceptedCount : Nat
  acceptanceRate : Rat
  avatar : Option Bytes
  deriving DecidableEq, Repr

/-- The row that is shown for a row of the join: nulls are zero. -/
def leaderboardRow (r : Joined) : LeaderboardRow :=
  let solved := (r.2.map Agg.solvedCount).getD 0
  let submitted := (r.2.map Agg.submissionCount).getD 0
  { userId := r.1.id
    username := r.1.username
    role := r.1.role.name
    solvedCount := solved
    submissionCount := submitted
    acceptedCount := (r.2.map Agg.acceptedCount).getD 0
    acceptanceRate := if 0 < submitted then (solved : Rat) * 100 / submitted else 0
    avatar := r.1.avatar.map Subtype.val }

/-- The place of a column in an order: a null is below every number. -/
def sortKey : Option Nat → Nat
  | none => 0
  | some n => n + 1

/-- `ORDER BY solved_count DESC, submission_count ASC, u.id ASC`, of the joined columns. -/
def Before (a b : Joined) : Prop :=
  sortKey (b.2.map Agg.solvedCount) < sortKey (a.2.map Agg.solvedCount) ∨
    sortKey (a.2.map Agg.solvedCount) = sortKey (b.2.map Agg.solvedCount) ∧
      (sortKey (a.2.map Agg.submissionCount) < sortKey (b.2.map Agg.submissionCount) ∨
        sortKey (a.2.map Agg.submissionCount) = sortKey (b.2.map Agg.submissionCount) ∧
          a.1.id ≤ b.1.id)

instance : DecidableRel Before := fun _ _ => inferInstanceAs (Decidable (_ ∨ _))

/-- The names that are left out. -/
def excludedNames : Bytes := bytes "^(e2e_|lc_perf_|normaluser_|stress_|load_|fuzz_)"

section

/- `REGEXP` of the server, for a name and a pattern. -/
variable (regexp : Bytes → Bytes → Bool)

/-- The users that are listed. -/
def Db.ranked (db : Db) : List UserRow :=
  db.users.filter fun u => !regexp u.username excludedNames

/-- `count_ranked_users`. -/
def Db.countRankedUsers (db : Db) : Nat := (db.ranked regexp).length

/-- The rows of the query without its limit. -/
def Db.sortedRows (db : Db) : List Joined :=
  ((db.ranked regexp).map fun u => (u, db.agg u)).insertionSort Before

/-- `list_leaderboard`. -/
def Db.listLeaderboard (db : Db) (limit offset : Nat) : List LeaderboardRow :=
  (((db.sortedRows regexp).drop offset).take limit).map leaderboardRow

/-! ## The handler -/

/-- The value of a parameter. -/
def param (params : List (Bytes × Bytes)) (key : String) : Option Bytes :=
  (params.find? fun p => p.1 == bytes key).map Prod.snd

/-- A parameter that is not what it must be. -/
def badParam (name what : String) (raw : Bytes) : Envelope :=
  invalidInput (bytes name ++ bytes " must be a " ++ bytes what ++ bytes " integer")
    [field (bytes name), .text (bytes "value") raw]

/-- `parse_ranking_query`: the limit and the offset. -/
def parseRankingQuery (params : List (Bytes × Bytes)) : Except Envelope (Nat × Nat) := do
  let limit ← match param params "limit" with
    | none => .ok 100
    | some raw =>
      match stoiRest raw with
      | some (v, []) =>
        if v < 1 then .error (badParam "limit" "positive" raw)
        else .ok (if 200 < v then 200 else v.toNat)
      | _ => .error (badParam "limit" "positive" raw)
  let offset ← match param params "offset" with
    | none => .ok 0
    | some raw =>
      match stoiRest raw with
      | some (v, []) =>
        if v < 0 then .error (badParam "offset" "non-negative" raw) else .ok v.toNat
      | _ => .error (badParam "offset" "non-negative" raw)
  return (limit, offset)

/-- An entry of `items`. -/
structure Item where
  rank : Nat
  row : LeaderboardRow
  deriving DecidableEq, Repr

/-- The body of a `200`. -/
structure Page where
  items : List Item
  total : Nat
  limit : Nat
  offset : Nat
  deriving DecidableEq, Repr

/-- `rank_for_offset`. -/
def rankForOffset (offset pageIndex : Nat) : Nat := offset + pageIndex + 1

/-- `get_ranking_handler`. The two queries may fail, with the text of the exception. -/
def getRankingHandler (db : Db) (countFault listFault : Option Bytes)
    (params : List (Bytes × Bytes)) : Except Envelope Page := do
  let (limit, offset) ← parseRankingQuery params
  let total ← match countFault with
    | some what => .error (internalError (bytes "internal error: count_ranked_users: " ++ what))
    | none => .ok (db.countRankedUsers regexp)
  let rows ←
    if 0 < total ∧ offset < total then
      match listFault with
      | some what => .error (internalError (bytes "internal error: list_leaderboard: " ++ what))
      | none => .ok (db.listLeaderboard regexp limit offset)
    else .ok []
  return ⟨rows.zipIdx.map fun p => ⟨rankForOffset offset p.2, p.1⟩, total, limit, offset⟩

/-! ## What is meant -/

/-- The order of the rows as they are shown. -/
def ShownBefore (a b : LeaderboardRow) : Prop :=
  b.solvedCount < a.solvedCount ∨ a.solvedCount = b.solvedCount ∧
    (a.submissionCount < b.submissionCount ∨
      a.submissionCount = b.submissionCount ∧ a.userId < b.userId)

instance : DecidableRel ShownBefore := fun _ _ => inferInstanceAs (Decidable (_ ∨ _))

/-- The parameters of a page. -/
def pageParams (limit offset : Nat) : List (Bytes × Bytes) :=
  [(bytes "limit", decimal limit), (bytes "offset", decimal offset)]

/-- The pages of a limit, one after the other, until the end is reached. A page has no more than
    200 rows. -/
def pages (db : Db) (limit : Nat) : List (Except Envelope Page) :=
  (List.range (db.countRankedUsers regexp / min limit 200 + 1)).map fun i =>
    getRankingHandler regexp db none none (pageParams limit (i * min limit 200))

/-- The rows of the pages are those of the ranked users, each of them once, sorted by what they
    show, and numbered from one on; the total is their number. -/
structure Leaderboard (db : Db) (ps : List Page) : Prop where
  rows : ((ps.flatMap Page.items).map Item.row).Perm
    ((db.ranked regexp).map fun u => leaderboardRow (u, db.agg u))
  sorted : ((ps.flatMap Page.items).map Item.row).Pairwise ShownBefore
  ranks : (ps.flatMap Page.items).map Item.rank =
    (List.range (db.ranked regexp).length).map (· + 1)
  total : ∀ p ∈ ps, p.total = (db.ranked regexp).length

/-- Every page is answered, and together they are the leaderboard. -/
def Meets (db : Db) (limit : Nat) : Prop :=
  ∃ ps : List Page, pages regexp db limit = ps.map Except.ok ∧ Leaderboard regexp db ps

/-- No ranked user without submissions belongs in front of one who has some: the latter has solved
    a problem, or has no submission that counts and the lesser id. -/
def NullsLast (db : Db) : Prop :=
  ∀ u ∈ db.ranked regexp, ∀ v ∈ db.ranked regexp, ∀ a ∈ db.agg u, db.agg v = none →
    0 < a.solvedCount ∨ a.submissionCount = 0 ∧ u.id < v.id

instance (db : Db) : Decidable (NullsLast regexp db) :=
  inferInstanceAs (Decidable (∀ u ∈ _, ∀ v ∈ _, ∀ a ∈ _, _))

/-! ## The pages -/

/-- All entries of the leaderboard. -/
def allItems (db : Db) : List Item :=
  ((db.sortedRows regexp).map leaderboardRow).zipIdx.map fun p => ⟨p.2 + 1, p.1⟩

/-- The pages that are asked for, all of them answered. -/
def answers (db : Db) (limit : Nat) : List Page :=
  (List.range (db.countRankedUsers regexp / min limit 200 + 1)).map fun i =>
    ⟨((allItems regexp db).drop (i * min limit 200)).take (min limit 200),
      db.countRankedUsers regexp, min limit 200, i * min limit 200⟩

variable {regexp} {db : Db} {limit offset : Nat}

theorem param_limit : param (pageParams limit offset) "limit" = some (decimal limit) := rfl

theorem param_offset : param (pageParams limit offset) "offset" = some (decimal offset) := rfl

theorem parseRankingQuery_pageParams (hpos : 1 ≤ limit) (hlimit : limit < 2 ^ 31)
    (hoffset : offset < 2 ^ 31) :
    parseRankingQuery (pageParams limit offset) = .ok (min limit 200, offset) := by
  have hlow : ¬(limit : Int) < 1 := by omega
  have hnonneg : ¬(offset : Int) < 0 := by omega
  have hmin : (if (200 : Int) < limit then 200 else (limit : Int).toNat) = min limit 200 := by
    split <;> omega
  simp only [parseRankingQuery, param_limit, param_offset, stoiRest_decimal hlimit,
    stoiRest_decimal hoffset, hmin, if_neg hlow, if_neg hnonneg]
  rfl

theorem perm_sortedRows :
    (db.sortedRows regexp).Perm ((db.ranked regexp).map fun u => (u, db.agg u)) :=
  List.perm_insertionSort _ _

theorem length_sortedRows : (db.sortedRows regexp).length = db.countRankedUsers regexp := by
  rw [perm_sortedRows.length_eq, List.length_map, Db.countRankedUsers]

theorem length_allItems : (allItems regexp db).length = db.countRankedUsers regexp := by
  rw [allItems, List.length_map, List.length_zipIdx, List.length_map, length_sortedRows]

/-- The entries of a page are those of the leaderboard from its offset on. -/
theorem zipIdx_listLeaderboard (size : Nat) :
    ((db.listLeaderboard regexp size offset).zipIdx.map fun p =>
      (⟨rankForOffset offset p.2, p.1⟩ : Item)) =
      ((allItems regexp db).drop offset).take size := by
  ext k
  simp only [Db.listLeaderboard, allItems, rankForOffset, List.getElem?_map, List.getElem?_zipIdx,
    List.getElem?_take, List.getElem?_drop]
  split
  · simp
  · simp

/-- A page is a part of all entries. -/
theorem getRankingHandler_pageParams (hpos : 1 ≤ limit) (hlimit : limit < 2 ^ 31)
    (hoffset : offset < 2 ^ 31) :
    getRankingHandler regexp db none none (pageParams limit offset) =
      .ok ⟨((allItems regexp db).drop offset).take (min limit 200),
        db.countRankedUsers regexp, min limit 200, offset⟩ := by
  simp only [getRankingHandler, parseRankingQuery_pageParams hpos hlimit hoffset,
    ← zipIdx_listLeaderboard]
  by_cases hinside : 0 < db.countRankedUsers regexp ∧ offset < db.countRankedUsers regexp
  · simp only [bind, Except.bind, if_pos hinside]
    rfl
  · have hbeyond : (db.sortedRows regexp).length ≤ offset := by
      rw [length_sortedRows]
      omega
    have hnil : db.listLeaderboard regexp (min limit 200) offset = [] := by
      rw [Db.listLeaderboard, List.drop_eq_nil_of_le hbeyond, List.take_nil, List.map_nil]
    simp only [bind, Except.bind, if_neg hinside, hnil]
    rfl

/-- There are fewer users than ids. -/
theorem countRankedUsers_lt : db.countRankedUsers regexp < 2 ^ 31 := by
  have hsub : db.users.map UserRow.id ⊆ List.range' 1 (2 ^ 31 - 1) := by
    intro i hi
    obtain ⟨u, hu, rfl⟩ := List.mem_map.1 hi
    have hpos := db.ids_pos u hu
    have hlt := db.ids_lt u hu
    exact List.mem_range'_1.2 ⟨hpos, by omega⟩
  have hlength := (db.ids.subperm hsub).length_le
  rw [List.length_map, List.length_range'] at hlength
  have hle : db.countRankedUsers regexp ≤ db.users.length := List.length_filter_le _ _
  omega

theorem pages_eq (hpos : 1 ≤ limit) (hlimit : limit < 2 ^ 31) :
    pages regexp db limit = (answers regexp db limit).map Except.ok := by
  rw [pages, answers, List.map_map]
  refine List.map_congr_left fun i hi => getRankingHandler_pageParams hpos hlimit ?_
  calc i * min limit 200
      ≤ db.countRankedUsers regexp / min limit 200 * min limit 200 :=
        Nat.mul_le_mul_right _ (Nat.le_of_lt_succ (List.mem_range.1 hi))
    _ ≤ db.countRankedUsers regexp := Nat.div_mul_le_self _ _
    _ < 2 ^ 31 := countRankedUsers_lt

/-- Together the pages have all entries. -/
theorem flatMap_answers (hpos : 1 ≤ limit) :
    (answers regexp db limit).flatMap Page.items = allItems regexp db := by
  have hsize : 0 < min limit 200 := by omega
  rw [answers, List.flatMap_map, flatMap_pages]
  refine List.take_of_length_le ?_
  rw [length_allItems]
  exact (Nat.lt_mul_of_div_lt (Nat.lt_succ_self _) hsize).le

/-! ## The order -/

theorem map_row_allItems :
    (allItems regexp db).map Item.row = (db.sortedRows regexp).map leaderboardRow := by
  rw [allItems, List.map_map]
  exact List.zipIdx_map_fst 0 _

theorem map_rank_allItems :
    (allItems regexp db).map Item.rank = (List.range (db.ranked regexp).length).map (· + 1) := by
  have hlen : (db.ranked regexp).length = ((db.sortedRows regexp).map leaderboardRow).length := by
    rw [List.length_map, length_sortedRows, Db.countRankedUsers]
  have hsnd := List.zipIdx_map_snd 0 ((db.sortedRows regexp).map leaderboardRow)
  rw [allItems, List.map_map, hlen, List.range_eq_range', ← hsnd, List.map_map]
  rfl

/-- All but the order is as it should be. -/
theorem meets_iff_pairwise (hpos : 1 ≤ limit) (hlimit : limit < 2 ^ 31) :
    Meets regexp db limit ↔ ((db.sortedRows regexp).map leaderboardRow).Pairwise ShownBefore := by
  have hitems : (answers regexp db limit).flatMap Page.items = allItems regexp db :=
    flatMap_answers hpos
  constructor
  · rintro ⟨ps, hps, h⟩
    rw [pages_eq hpos hlimit] at hps
    obtain rfl := List.map_injective_iff.2 (fun _ _ => Except.ok.inj) hps
    have := h.sorted
    rwa [hitems, map_row_allItems] at this
  · intro h
    refine ⟨_, pages_eq hpos hlimit, ?_⟩
    constructor
    · rw [hitems, map_row_allItems]
      exact (perm_sortedRows.map leaderboardRow).trans (by rw [List.map_map]; rfl)
    · rwa [hitems, map_row_allItems]
    · rw [hitems, map_rank_allItems]
    · intro p hp
      obtain ⟨i, -, rfl⟩ := List.mem_map.1 hp
      rfl

/-! ## What the order of the columns shows -/

/-- The order of the columns, in which no two users are alike. -/
def Ahead (a b : Joined) : Prop := Before a b ∧ a.1.id ≠ b.1.id

instance : Std.Total Before := ⟨fun a b => by unfold Before; omega⟩

instance : IsTrans Joined Before := ⟨fun a b c => by unfold Before; omega⟩

theorem not_ahead_of_ahead (a b : Joined) (h : Ahead a b) : ¬Ahead b a := by
  unfold Ahead Before at *
  omega

theorem pairwise_sortedRows : (db.sortedRows regexp).Pairwise Ahead := by
  have hids : (((db.ranked regexp).map fun u => (u, db.agg u)).map fun r => r.1.id).Nodup := by
    rw [List.map_map]
    exact db.ids.sublist (List.filter_sublist.map _)
  exact pairwise_insertionSort_of_total (fun _ _ => And.intro) hids

theorem mem_sortedRows {r : Joined} :
    r ∈ db.sortedRows regexp ↔ ∃ u ∈ db.ranked regexp, (u, db.agg u) = r := by
  rw [perm_sortedRows.mem_iff, List.mem_map]

/-- Two rows are shown in the order of their columns, unless only the second is null. -/
theorem shownBefore_iff {a b : Joined} (h : Ahead a b) :
    ShownBefore (leaderboardRow a) (leaderboardRow b) ↔
      ∀ c ∈ a.2, b.2 = none →
        0 < c.solvedCount ∨ c.submissionCount = 0 ∧ a.1.id < b.1.id := by
  obtain ⟨u, m⟩ := a
  obtain ⟨v, n⟩ := b
  rcases m with - | c <;> rcases n with - | d <;>
    simp [ShownBefore, leaderboardRow, Ahead, Before, sortKey] at h ⊢ <;> omega

/-- A user with submissions is ahead of one without. -/
theorem ahead_of_null {u v : UserRow} {c : Agg} (hc : db.agg u = some c) (hnull : db.agg v = none) :
    Ahead (u, db.agg u) (v, db.agg v) := by
  constructor
  · rw [hc, hnull]
    exact .inl (Nat.succ_pos _)
  · intro (hid : u.id = v.id)
    rw [Db.agg, hid] at hc
    exact absurd (hc.symm.trans hnull) nofun

/-- The leaderboard is what it says if and only if no user without submissions belongs in front of
    one who has some. -/
theorem leaderboard_iff (regexp : Bytes → Bytes → Bool) (db : Db) (limit : Nat) (hpos : 1 ≤ limit)
    (hlimit : limit < 2 ^ 31) : Meets regexp db limit ↔ NullsLast regexp db := by
  rw [meets_iff_pairwise hpos hlimit, List.pairwise_map,
    pairwise_iff_of_pairwise not_ahead_of_ahead pairwise_sortedRows]
  constructor
  · intro h u hu v hv c hc hnull
    have hahead := ahead_of_null hc hnull
    have hshown := h _ (mem_sortedRows.2 ⟨u, hu, rfl⟩) _ (mem_sortedRows.2 ⟨v, hv, rfl⟩) hahead
    exact (shownBefore_iff hahead).1 hshown c hc hnull
  · intro h a ha b hb hahead
    obtain ⟨u, hu, rfl⟩ := mem_sortedRows.1 ha
    obtain ⟨v, hv, rfl⟩ := mem_sortedRows.1 hb
    exact (shownBefore_iff hahead).2 (h u hu v hv)

/-- `REGEXP` for a pattern of texts at the beginning of a name. -/
def startsWithOne (name pattern : Bytes) : Bool :=
  (((pattern.drop 2).takeWhile (· != 0x29)).splitOn 0x7C).any (·.isPrefixOf name)

/-- Two users; the first has one submission, of a given status. -/
def twoUsers (status : Bytes) : Db where
  users :=
    [⟨1, ⟨bytes "anna", by decide⟩, .user, none⟩, ⟨2, ⟨bytes "bert", by decide⟩, .user, none⟩]
  submissions := [⟨1, 1, status⟩]
  problems := [⟨1, false⟩]
  ids := by decide
  ids_pos := by decide
  ids_lt := by decide

theorem leaderboard_iff_solved : Meets startsWithOne (twoUsers (bytes "ac")) 20 :=
  (leaderboard_iff _ _ 20 (by decide) (by decide)).2 (by decide)

/-- A user with a wrong answer is shown in front of one who has not tried. -/
theorem failed_before_idle : ¬Meets startsWithOne (twoUsers (bytes "wa")) 20 := by
  rw [meets_iff_pairwise (by decide) (by decide)]
  decide

end

end LiteCode.StatsRoutes
