import LiteCode.Db.ProblemUpdate
import LiteCode.Db.ReplaceAll
import LiteCode.Db.TagRepo

/-!
# The tables of the problems

`soft_delete` and `restore` of `src/db/problem_repo.h`, `src/db/special_judge_repo.h`, and all the
tables together that belong to problems: with their tags, their samples and test cases, and their
special judges. No row of `problems` is ever removed. A call that throws is taken to have had no
effect: no reply of the database is lost.

* `Write`, `Write.apply`: what a call of the repositories writes, `none` if it is refused;
* `apply_create`, `apply_update`, `apply_upsert`, `apply_softDelete`, `apply_restore`,
  `apply_upsertJudge`, `apply_removeJudge`: the calls write just that.
-/

namespace LiteCode.ProblemRepo

open TagRepo (Tags TagRow)
open ReplaceAll (HasProblem)

variable {weight : Bytes → Bytes}

/-! ## Soft-deleted problems -/

namespace Db

/-- The rows changed in other columns than those of the keys. -/
def mapProblems (db : Db weight) (f : Problem → Problem) (hid : ∀ r, (f r).id = r.id)
    (hslug : ∀ r, (f r).slug = r.slug) : Db weight where
  problems := db.problems.map f
  nextId := db.nextId
  problemTags := db.problemTags
  testCases := db.testCases
  nextCaseId := db.nextCaseId
  nodup_ids := by
    have hcol : Problem.id ∘ f = Problem.id := funext hid
    rw [List.map_map, hcol]
    exact db.nodup_ids
  id_lt := by
    intro r hr
    obtain ⟨q, hq, rfl⟩ := List.mem_map.1 hr
    exact hid q ▸ db.id_lt q hq
  nodup_slugs := by
    have hcol : (fun r => weight r.slug) ∘ f = fun r => weight r.slug :=
      funext fun r => congrArg weight (hslug r)
    rw [List.map_map, hcol]
    exact db.nodup_slugs
  nextId_pos := db.nextId_pos

end Db

/-- The assignment of `is_deleted` to the row of a slug, if it has the other value. -/
def Problem.mark (weight : Bytes → Bytes) (deleted : Bool) (slug : Bytes) (now : Int)
    (r : Problem) : Problem :=
  if weight r.slug = weight slug ∧ r.isDeleted = !deleted then
    { r with isDeleted := deleted, updatedAt := now }
  else r

/-- A deletion and a restoration leave the id as it is. -/
@[simp]
theorem Problem.mark_id (deleted : Bool) (slug : Bytes) (now : Int) (r : Problem) :
    (r.mark weight deleted slug now).id = r.id := by
  rw [mark]
  split_ifs <;> rfl

/-- They leave the slug as it is. -/
@[simp]
theorem Problem.mark_slug (deleted : Bool) (slug : Bytes) (now : Int) (r : Problem) :
    (r.mark weight deleted slug now).slug = r.slug := by
  rw [mark]
  split_ifs <;> rfl

/-- The `UPDATE` of `soft_delete` and `restore`. -/
def Db.mark (db : Db weight) (deleted : Bool) (slug : Bytes) (now : Int) : Db weight :=
  db.mapProblems (Problem.mark weight deleted slug now) (Problem.mark_id deleted slug now)
    (Problem.mark_slug deleted slug now)

/-- Is there a row that `mark` changes? -/
def Db.marks (db : Db weight) (deleted : Bool) (slug : Bytes) : Bool :=
  db.problems.any fun r => weight r.slug == weight slug && r.isDeleted == !deleted

/-- `soft_delete`: whether a live row was there. -/
def softDelete (db : Db weight) (slug : Bytes) (now : Int) (fault : Option Fault) :
    Except Bytes Bool × Db weight :=
  match fault with
  | some fault => (.error (fault.rethrow "problem_repo::soft_delete"), db)
  | none => (.ok (db.marks true slug), db.mark true slug now)

/-- `restore`: whether a soft-deleted row was there. -/
def restore (db : Db weight) (slug : Bytes) (now : Int) (fault : Option Fault) :
    Except UpdateError Bool × Db weight :=
  match fault with
  | some (.acquire what) => (.error (.repo what), db)
  | some (.execute what) =>
    (.error (if isDuplicate what then .alreadyExists (bytes "problem_repo::restore: slug '" ++
        slug ++ bytes "' is already in use by another live row")
      else .repo (bytes "problem_repo::restore: " ++ what)), db)
  | none => (.ok (db.marks false slug), db.mark false slug now)

/-- Other submissions of a problem are judged: its counts are read from their table. -/
def Problem.judged (id : Nat) (accepted submissions : Int) (r : Problem) : Problem :=
  if r.id = id then { r with acceptedCount := accepted, submissionCount := submissions } else r

/-- The counts of a verdict leave the id as it is. -/
@[simp]
theorem Problem.judged_id (id : Nat) (accepted submissions : Int) (r : Problem) :
    (r.judged id accepted submissions).id = r.id := by
  rw [judged]
  split_ifs <;> rfl

/-- They leave the slug as it is. -/
@[simp]
theorem Problem.judged_slug (id : Nat) (accepted submissions : Int) (r : Problem) :
    (r.judged id accepted submissions).slug = r.slug := by
  rw [judged]
  split_ifs <;> rfl

/-! ## Special judges -/

/-- `SpecialJudgeRow`. -/
structure SpecialJudgeRow where
  problemId : Nat
  source : Bytes
  language : Bytes
  createdAt : Int
  updatedAt : Int
  deriving DecidableEq, Repr

/-- `validate_source`. -/
def validateSource (s : Bytes) : Except Bytes Unit :=
  require (1 ≤ s.length && s.length ≤ 16 * 1024 * 1024)
    (between "special judge source length" 1 (16 * 1024 * 1024) " bytes")

/-- `validate_language`. -/
def validateLanguage (lang : Bytes) : Except Bytes Unit :=
  require (lang == bytes "cpp")
    (bytes "special judge language must be 'cpp' (the litecode-judge image is C++-only today)")

/-- `problem_special_judges`: at most one row for a problem. -/
structure Judges where
  rows : List SpecialJudgeRow
  nodup : (rows.map SpecialJudgeRow.problemId).Nodup

namespace Judges

variable {j : Judges} {problemId : Nat}

/-- Is there a row for the problem? -/
def has (j : Judges) (problemId : Nat) : Bool := j.rows.any fun r => r.problemId == problemId

theorem has_iff : j.has problemId = true ↔ problemId ∈ j.rows.map SpecialJudgeRow.problemId := by
  simp only [has, List.any_eq_true, beq_iff_eq, List.mem_map]

/-- An overwritten special judge stays with its problem. -/
theorem map_problemId_overwrite (rows : List SpecialJudgeRow) (problemId : Nat)
    (source language : Bytes) (now : Int) :
    (rows.map fun r => if r.problemId = problemId then
      { r with source := source, language := language, updatedAt := now } else r).map
        SpecialJudgeRow.problemId = rows.map SpecialJudgeRow.problemId := by
  rw [List.map_map]
  refine List.map_congr_left fun r _ => ?_
  rw [Function.comp_apply]
  split_ifs <;> rfl

/-- `INSERT INTO problem_special_judges ... ON DUPLICATE KEY UPDATE ...`. -/
def upsert (j : Judges) (problemId : Nat) (source language : Bytes) (now : Int) : Judges :=
  if h : j.has problemId = true then
    ⟨j.rows.map fun r => if r.problemId = problemId then
      { r with source := source, language := language, updatedAt := now } else r, by
        rw [map_problemId_overwrite]
        exact j.nodup⟩
  else
    ⟨j.rows ++ [⟨problemId, source, language, now, now⟩],
      nodup_map_concat j.nodup fun r hr hid => h (has_iff.2 (List.mem_map.2 ⟨r, hr, hid⟩))⟩

/-- An upsert adds a problem only if it had no special judge. -/
theorem map_problemId_upsert (j : Judges) (problemId : Nat) (source language : Bytes) (now : Int) :
    (j.upsert problemId source language now).rows.map SpecialJudgeRow.problemId =
      j.rows.map SpecialJudgeRow.problemId ++ if j.has problemId then [] else [problemId] := by
  rw [upsert]
  by_cases h : j.has problemId = true
  · rw [dif_pos h, if_pos h, map_problemId_overwrite, List.append_nil]
  · rw [dif_neg h, if_neg h, List.map_append, List.map_singleton]

/-- `DELETE FROM problem_special_judges WHERE problem_id = ?`. -/
def remove (j : Judges) (problemId : Nat) : Judges :=
  ⟨j.rows.filter fun r => r.problemId != problemId,
    j.nodup.sublist (List.filter_sublist.map SpecialJudgeRow.problemId)⟩

/-- A removal takes away the one problem. -/
theorem map_problemId_remove (j : Judges) (problemId : Nat) :
    (j.remove problemId).rows.map SpecialJudgeRow.problemId =
      (j.rows.map SpecialJudgeRow.problemId).filter (· != problemId) := by
  rw [remove, List.filter_map]
  rfl

end Judges

/-- Does the text of an error name a key to another table? -/
def isForeignKey (what : Bytes) : Bool :=
  bytes "foreign key" <:+: what || bytes "FOREIGN KEY" <:+: what || bytes "1452" <:+: what

/-! ## All tables -/

/-- The tables. The ids of test cases are given out in order. -/
structure Tables (weight : Bytes → Bytes) where
  db : Db weight
  tags : Tags weight
  judges : Judges
  cases_sorted : (db.testCases.map TestCase.id).Pairwise (· < ·)
  case_lt : ∀ c ∈ db.testCases, c.id < db.nextCaseId

namespace Tables

/-- `special_judge_repo::upsert`. -/
def upsertJudge (t : Tables weight) (problemId : Nat) (source language : Bytes) (now : Int)
    (fault : Option Fault) : Except Bytes Unit × Tables weight :=
  if problemId = 0 then (.error (bytes "upsert: problem_id must be > 0"), t)
  else match (do validateSource source; validateLanguage language) with
    | .error err => (.error (bytes "upsert: " ++ err), t)
    | .ok () =>
      let refused := bytes "upsert: problem_id does not exist (FK violation)"
      match fault with
      | some (.acquire what) => (.error what, t)
      | some (.execute what) => (.error (if isForeignKey what then refused
          else bytes "special_judge_repo::upsert: " ++ what), t)
      | none =>
        if HasProblem t.db problemId then
          (.ok (), { t with judges := t.judges.upsert problemId source language now })
        else (.error refused, t)

/-- `remove_by_problem_id`: whether a row was there. -/
def removeByProblemId (t : Tables weight) (problemId : Nat) (fault : Option Fault) :
    Except Bytes Bool × Tables weight :=
  if problemId = 0 then (.error (bytes "remove_by_problem_id: problem_id must be > 0"), t)
  else match fault with
    | some fault => (.error (fault.rethrow "special_judge_repo::remove_by_problem_id"), t)
    | none => (.ok (t.judges.has problemId), { t with judges := t.judges.remove problemId })

/-- Other tables of problems, with the same test cases. -/
def setDb (t : Tables weight) (db : Db weight) (hcases : db.testCases = t.db.testCases)
    (hnext : db.nextCaseId = t.db.nextCaseId) : Tables weight where
  db := db
  tags := t.tags
  judges := t.judges
  cases_sorted := hcases ▸ t.cases_sorted
  case_lt := by
    rw [hcases, hnext]
    exact t.case_lt

/-- The test cases after `replace_for_problem` have their ids in order. -/
theorem sorted_replaceForProblem (t : Tables weight) (problemId : Nat) (rows : List SampleCaseRow)
    (isSample : Bool) :
    ((replaceForProblem t.db problemId rows isSample none).2.testCases.map TestCase.id).Pairwise
      (· < ·) := by
  change ((_ ++ _ : List TestCase).map TestCase.id).Pairwise (· < ·)
  rw [List.map_append, List.pairwise_append]
  refine ⟨t.cases_sorted.sublist (List.filter_sublist.map _), ?_, ?_⟩
  · rw [List.pairwise_map]
    refine List.pairwise_iff_getElem.2 fun i j hi hj hij => ?_
    rw [List.getElem_mapIdx, List.getElem_mapIdx]
    exact Nat.add_lt_add_left hij _
  · intro a ha b hb
    obtain ⟨c, hc, rfl⟩ := List.mem_map.1 ha
    obtain ⟨d, hd, rfl⟩ := List.mem_map.1 hb
    obtain ⟨i, hi, rfl⟩ := List.mem_mapIdx.1 hd
    exact Nat.lt_add_right i (t.case_lt c (List.mem_filter.1 hc).1)

/-- The ids of the new cases are below the next one. -/
theorem lt_replaceForProblem (t : Tables weight) (problemId : Nat) (rows : List SampleCaseRow)
    (isSample : Bool) :
    ∀ c ∈ (replaceForProblem t.db problemId rows isSample none).2.testCases,
      c.id < (replaceForProblem t.db problemId rows isSample none).2.nextCaseId := by
  intro c hc
  change c.id < t.db.nextCaseId + rows.length
  rcases List.mem_append.1 hc with hc | hc
  · exact Nat.lt_add_right _ (t.case_lt c (List.mem_filter.1 hc).1)
  · obtain ⟨i, hi, rfl⟩ := List.mem_mapIdx.1 hc
    exact Nat.add_lt_add_left hi _

/-- The tables after `replace_for_problem`. -/
def replaceCases (t : Tables weight) (problemId : Nat) (rows : List SampleCaseRow)
    (isSample : Bool) : Tables weight where
  db := (replaceForProblem t.db problemId rows isSample none).2
  tags := t.tags
  judges := t.judges
  cases_sorted := t.sorted_replaceForProblem problemId rows isSample
  case_lt := t.lt_replaceForProblem problemId rows isSample

/-- Is there a tag with the id? -/
def hasTag (t : Tables weight) (id : Nat) : Bool := t.tags.rows.any fun r => r.id == id

end Tables

/-! ## What is written -/

/-- A call that writes, when no statement of it fails. -/
inductive Write
  | create (row : ProblemRow) (now : Int)
  | update (slug : Bytes) (patch : ProblemRow) (now : Int)
  | upsert (row : ProblemRow) (now : Int)
  | softDelete (slug : Bytes) (now : Int)
  | restore (slug : Bytes) (now : Int)
  /-- The `INSERT IGNORE` of `find_or_create_many`. -/
  | insertTags (names : List Bytes)
  | replaceTags (problemId : Nat) (tagIds : List Nat)
  | replaceCases (problemId : Nat) (rows : List SampleCaseRow) (isSample : Bool)
  | upsertJudge (problemId : Nat) (source language : Bytes) (now : Int)
  | removeJudge (problemId : Nat)
  /-- Submissions are judged, and the counts come out so. -/
  | judged (problemId : Nat) (accepted submissions : Int)
  deriving DecidableEq, Repr

/-- The tables after a call, `none` if it throws or is refused. -/
def Write.apply (t : Tables weight) : Write → Option (Tables weight)
  | .create row now =>
    if h : row.effective.validate = .ok () ∧ t.db.owner row.effective.slug = none then
      some (t.setDb (t.db.insert row.effective now h.2) rfl rfl)
    else none
  | .update slug patch now =>
    if h : patch.validate = .ok () ∧ (t.db.findBySlug slug false).isSome ∧
        t.db.Vacant slug patch then
      some (t.setDb (t.db.assign slug patch now h.2.2) rfl rfl)
    else none
  | .upsert row now =>
    if row.effective.validate = .ok () then
      if h : t.db.owner row.effective.slug = none then
        some (t.setDb (t.db.insert row.effective now h) rfl rfl)
      else some (t.setDb (t.db.overwrite row.effective now) rfl rfl)
    else none
  | .softDelete slug now => some (t.setDb (t.db.mark true slug now) rfl rfl)
  | .restore slug now => some (t.setDb (t.db.mark false slug now) rfl rfl)
  | .insertTags names => some { t with tags := t.tags.insertAll names }
  | .replaceTags id tagIds =>
    if HasProblem t.db id then
      some (t.setDb (ProblemRepo.replaceTags t.db id (tagIds.filter t.hasTag) none).2 rfl rfl)
    else none
  | .replaceCases id rows isSample =>
    if HasProblem t.db id then some (t.replaceCases id rows isSample) else none
  | .upsertJudge id source language now =>
    if id ≠ 0 ∧ validateSource source = .ok () ∧ validateLanguage language = .ok () ∧
        HasProblem t.db id then
      some { t with judges := t.judges.upsert id source language now }
    else none
  | .removeJudge id => if id = 0 then none else some { t with judges := t.judges.remove id }
  | .judged id accepted submissions =>
    some (t.setDb (t.db.mapProblems (Problem.judged id accepted submissions)
      (Problem.judged_id id accepted submissions) (Problem.judged_slug id accepted submissions))
      rfl rfl)

section Calls

variable (t : Tables weight) (row patch : ProblemRow) (slug : Bytes) (now : Int)

/-- `create`, when no statement fails: it makes a row, or changes nothing. -/
theorem create_eq (db : Db weight) (row : ProblemRow) (now : Int) :
    (∃ h : db.owner row.effective.slug = none, row.effective.validate = .ok () ∧
      create db row now none = (.ok db.nextId, db.insert row.effective now h)) ∨
    (create db row now none).1.toOption.getD 0 = 0 ∧
      ¬(row.effective.validate = .ok () ∧ db.owner row.effective.slug = none) := by
  cases hv : row.effective.validate with
  | error err =>
    refine .inr ?_
    simp only [create, hv]
    exact ⟨rfl, fun hboth => absurd hboth.1 (by simp)⟩
  | ok _ =>
    by_cases h : db.owner row.effective.slug = none
    · exact .inl ⟨h, rfl, by simp only [create, hv, dif_pos h]⟩
    · refine .inr ?_
      simp only [create, hv, dif_neg h]
      exact ⟨rfl, fun hboth => h hboth.2⟩

/-- `update`, when no statement fails: it changes the row, or changes nothing. -/
theorem update_eq (db : Db weight) (slug : Bytes) (patch : ProblemRow) (now : Int) :
    (∃ h : db.Vacant slug patch, patch.validate = .ok () ∧ (db.findBySlug slug false).isSome ∧
      ∃ changed, update db slug patch now none none = (.ok changed, db.assign slug patch now h)) ∨
    (update db slug patch now none none).1.toOption = none ∧
      ¬(patch.validate = .ok () ∧ (db.findBySlug slug false).isSome ∧ db.Vacant slug patch) := by
  cases hv : patch.validate with
  | error err =>
    refine .inr ⟨?_, fun hall => absurd hall.1 (by simp)⟩
    simp only [update, hv]
    rfl
  | ok _ =>
    cases hfound : db.findBySlug slug false with
    | none =>
      refine .inr ⟨?_, fun hall => absurd hall.2.1 (by simp)⟩
      simp only [update, hv, hfound]
      rfl
    | some r =>
      have hsome : ¬(some r).isNone = true := by simp
      by_cases h : db.Vacant slug patch
      · refine .inl ⟨h, rfl, rfl, decide (db.assigned slug patch now ≠ db.problems), ?_⟩
        simp only [update, hv, hfound]
        rw [if_neg hsome, dif_pos h]
      · refine .inr ⟨?_, fun hall => h hall.2.2⟩
        simp only [update, hv, hfound]
        rw [if_neg hsome, dif_neg h]
        rfl

/-- `upsert`, when no statement fails: it makes a row or overwrites it, or changes nothing. -/
theorem upsert_eq (db : Db weight) (row : ProblemRow) (now : Int) :
    row.effective.validate = .ok () ∧
      (∃ u, upsert db row now none none = (.ok u, db.insertOrOverwrite row.effective now)) ∨
    (upsert db row now none none).1.toOption = none ∧ row.effective.validate ≠ .ok () := by
  cases hv : row.effective.validate with
  | error err =>
    refine .inr ⟨?_, by simp⟩
    simp only [upsert, hv]
    rfl
  | ok _ =>
    obtain ⟨r, hr⟩ := db.owner_insertOrOverwrite row.effective now
    have hr' : (db.insertOrOverwrite row.effective now).owner row.slug = some r := hr
    refine .inl ⟨rfl, ⟨r.id, (db.owner row.slug).isNone⟩, ?_⟩
    simp only [upsert, hv, hr']

/-- `create` writes what it returns an id for. -/
theorem apply_create : ((Write.create row now).apply t).map Tables.db =
    if (create t.db row now none).1.toOption.getD 0 = 0 then none
    else some (create t.db row now none).2 := by
  obtain ⟨h, hv, heq⟩ | ⟨hid, hno⟩ := create_eq t.db row now
  · have hpos : ¬((.ok t.db.nextId : Except Bytes Nat).toOption.getD 0) = 0 :=
      t.db.nextId_pos.ne'
    rw [Write.apply, dif_pos ⟨hv, h⟩, heq, if_neg hpos]
    rfl
  · rw [Write.apply, dif_neg hno, if_pos hid]
    rfl

/-- The write is `update`, where that returns. -/
theorem apply_update : ((Write.update slug patch now).apply t).map Tables.db =
    (update t.db slug patch now none none).1.toOption.map fun _ =>
      (update t.db slug patch now none none).2 := by
  obtain ⟨h, hv, hlive, changed, heq⟩ | ⟨herr, hno⟩ := update_eq t.db slug patch now
  · rw [Write.apply, dif_pos ⟨hv, hlive, h⟩, heq]
    rfl
  · rw [Write.apply, dif_neg hno, herr]
    rfl

/-- The write is `upsert`, where that returns. -/
theorem apply_upsert : ((Write.upsert row now).apply t).map Tables.db =
    (upsert t.db row now none none).1.toOption.map fun _ =>
      (upsert t.db row now none none).2 := by
  obtain ⟨hv, u, heq⟩ | ⟨herr, hno⟩ := upsert_eq t.db row now
  · rw [Write.apply, if_pos hv, heq]
    by_cases h : t.db.owner row.effective.slug = none
    · rw [dif_pos h, Db.insertOrOverwrite, dif_pos h]
      rfl
    · rw [dif_neg h, Db.insertOrOverwrite, dif_neg h]
      rfl
  · rw [Write.apply, if_neg hno, herr]
    rfl

/-- The write is `soft_delete`, where that returns. -/
theorem apply_softDelete : ((Write.softDelete slug now).apply t).map Tables.db =
    (softDelete t.db slug now none).1.toOption.map fun _ => (softDelete t.db slug now none).2 :=
  rfl

/-- The write is `restore`, where that returns. -/
theorem apply_restore : ((Write.restore slug now).apply t).map Tables.db =
    (restore t.db slug now none).1.toOption.map fun _ => (restore t.db slug now none).2 :=
  rfl

/-- The write is `upsert` of `special_judge_repo`, where that returns. -/
theorem apply_upsertJudge (id : Nat) (source language : Bytes) :
    (Write.upsertJudge id source language now).apply t =
      (t.upsertJudge id source language now none).1.toOption.map fun _ =>
        (t.upsertJudge id source language now none).2 := by
  rw [Write.apply, Tables.upsertJudge]
  by_cases hid : id = 0
  · rw [if_neg fun h => h.1 hid, if_pos hid]
    rfl
  rw [if_neg hid]
  cases hs : validateSource source with
  | error err =>
    rw [if_neg (by simp)]
    rfl
  | ok _ =>
    cases hl : validateLanguage language with
    | error err =>
      rw [if_neg (by simp)]
      rfl
    | ok _ =>
      by_cases h : HasProblem t.db id
      · rw [if_pos ⟨hid, rfl, rfl, h⟩]
        simp only [bind, Except.bind, if_pos h]
        rfl
      · rw [if_neg fun hall => h hall.2.2.2]
        simp only [bind, Except.bind, if_neg h]
        rfl

/-- The write is `remove_by_problem_id`, where that returns. -/
theorem apply_removeJudge (id : Nat) : (Write.removeJudge id).apply t =
    (t.removeByProblemId id none).1.toOption.map fun _ => (t.removeByProblemId id none).2 := by
  rw [Write.apply, Tables.removeByProblemId]
  by_cases hid : id = 0
  · rw [if_pos hid, if_pos hid]
    rfl
  · rw [if_neg hid, if_neg hid]
    rfl

end Calls

end LiteCode.ProblemRepo
