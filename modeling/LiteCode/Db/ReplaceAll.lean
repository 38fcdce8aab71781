import LiteCode.Db.ProblemRepo
import LiteCode.Lib.ListIndex
import LiteCode.Lib.Transaction

/-!
# Replacing what belongs to a problem

`tag_repo::replace` and `test_case_repo::replace_for_problem` statement by statement: in a
transaction, the rows of the problem are deleted and the given ones inserted, and any statement may
fail. An `INSERT IGNORE` of a tag that does not exist is skipped; an `INSERT` of a case of a problem
that does not exist is refused. What fails is taken to have had no effect, the `COMMIT` included: no
reply of the database is lost.

* `replace`, `replaceCases`: the two functions;
* `writeAll_tagWrites`, `writeAll_caseWrites`: their writes make of the tables what the calls of
  `LiteCode.ProblemRepo` do in one step;
* `replace_allOrNothing`: each leaves the tables as they were, when it throws, or replaces the rows
  of the problem, and no others; it throws only if something fails.
-/

namespace LiteCode.ReplaceAll

open ProblemRepo Transaction

variable {weight : Bytes → Bytes}

/-- The problem is in its table. -/
def HasProblem (db : Db weight) (problemId : Nat) : Prop := ∃ r ∈ db.problems, r.id = problemId

instance (db : Db weight) (problemId : Nat) : Decidable (HasProblem db problemId) :=
  inferInstanceAs (Decidable (∃ _ ∈ _, _))

/-! ## The statements -/

/-- `DELETE FROM problem_tags WHERE problem_id = ?`. -/
def deleteTags (problemId : Nat) (db : Db weight) : Except Bytes (Db weight) :=
  .ok { db with problemTags := db.problemTags.filter fun t => t.1 != problemId }

/-- `INSERT IGNORE INTO problem_tags (problem_id, tag_id) VALUES (?, ?)`: a row that is there, or
    whose tag or problem is not, is skipped. -/
def insertIgnoreTag (tagExists : Nat → Bool) (problemId tagId : Nat) (db : Db weight) :
    Except Bytes (Db weight) :=
  .ok (if (problemId, tagId) ∉ db.problemTags ∧ tagExists tagId ∧ HasProblem db problemId then
      { db with problemTags := db.problemTags ++ [(problemId, tagId)] }
    else db)

/-- `DELETE FROM test_cases WHERE problem_id = ? AND is_sample = ...`. -/
def deleteCases (problemId : Nat) (isSample : Bool) (db : Db weight) :
    Except Bytes (Db weight) :=
  .ok { db with
    testCases :=
      db.testCases.filter fun c => !(c.problemId == problemId && c.isSample == isSample) }

/-- `INSERT INTO test_cases ...`: refused when there is no such problem. -/
def insertCase (problemId : Nat) (isSample : Bool) (row : SampleCaseRow) (db : Db weight) :
    Except Bytes (Db weight) :=
  if HasProblem db problemId then
    .ok { db with
      testCases := db.testCases ++ [row.toTestCase db.nextCaseId problemId isSample]
      nextCaseId := db.nextCaseId + 1 }
  else .error (bytes "Cannot add or update a child row: a foreign key constraint fails")

/-! ## The functions -/

/-- What a call meets: no connection, or what becomes of the statements that it sends. -/
structure Env where
  acquire : Option Bytes
  outcome : Nat → Outcome

/-- Nothing fails. -/
def Env.Quiet (env : Env) : Prop := env.acquire = none ∧ ∀ n, env.outcome n = .done

/-- A call named `name`: a connection, a transaction, and the connection given back. -/
def inTransaction (env : Env) (name : String) (writes : List (Db weight → Except Bytes (Db weight)))
    (db : Db weight) : Except Bytes Unit × Db weight :=
  match env.acquire with
  | some what => (.error what, db)
  | none =>
    let x := transact env.outcome writes (.start db)
    (x.1.mapError fun what => bytes name ++ bytes ": " ++ what, x.2.release)

/-- The writes of `tag_repo::replace`, each id once. -/
def tagWrites (tagExists : Nat → Bool) (problemId : Nat) (tagIds : List Nat) :
    List (Db weight → Except Bytes (Db weight)) :=
  deleteTags problemId :: tagIds.eraseDups.map (insertIgnoreTag tagExists problemId)

/-- The writes of `test_case_repo::replace_for_problem`. -/
def caseWrites (problemId : Nat) (rows : List SampleCaseRow) (isSample : Bool) :
    List (Db weight → Except Bytes (Db weight)) :=
  deleteCases problemId isSample :: rows.map (insertCase problemId isSample)

/-- `tag_repo::replace`. -/
def replace (env : Env) (tagExists : Nat → Bool) (db : Db weight) (problemId : Nat)
    (tagIds : List Nat) : Except Bytes Unit × Db weight :=
  inTransaction env "tag_repo::replace" (tagWrites tagExists problemId tagIds) db

/-- `test_case_repo::replace_for_problem`. -/
def replaceCases (env : Env) (db : Db weight) (problemId : Nat) (rows : List SampleCaseRow)
    (isSample : Bool) : Except Bytes Unit × Db weight :=
  inTransaction env "test_case_repo::replace_for_problem" (caseWrites problemId rows isSample) db

/-! ## What the writes make of the tables -/

variable {env : Env} {name : String} {writes : List (Db weight → Except Bytes (Db weight))}
  {tagExists : Nat → Bool} {db db' : Db weight} {problemId : Nat} {what : Bytes}

/-- A call that throws leaves the tables as they were. -/
theorem inTransaction_of_error (h : (inTransaction env name writes db).1 = .error what) :
    (inTransaction env name writes db).2 = db := by
  rw [inTransaction] at h ⊢
  cases hacquire : env.acquire with
  | some what' => rfl
  | none =>
    simp only [hacquire] at h ⊢
    cases hx : (transact env.outcome writes (.start db)).1 with
    | ok => simp [hx, Except.mapError] at h
    | error what' => exact transact_error rfl hx

/-- A call that returns has made all its writes. -/
theorem inTransaction_of_ok (h : (inTransaction env name writes db).1 = .ok ()) :
    writeAll writes db = .ok (inTransaction env name writes db).2 := by
  rw [inTransaction] at h ⊢
  cases hacquire : env.acquire with
  | some what' => simp [hacquire] at h
  | none =>
    simp only [hacquire] at h ⊢
    cases hx : (transact env.outcome writes (.start db)).1 with
    | ok => exact transact_ok rfl hx
    | error what' => simp [hx, Except.mapError] at h

/-- A call whose writes are not refused returns, if nothing fails. -/
theorem inTransaction_of_quiet (hquiet : env.Quiet) (h : writeAll writes db = .ok db') :
    (inTransaction env name writes db).1 = .ok () := by
  have hdone : (transact env.outcome writes (.start db)).1 = .ok () :=
    transact_done hquiet.2 rfl h
  simp only [inTransaction, hquiet.1, hdone]
  rfl

/-- Tags that are not there yet are added if they exist. -/
theorem writeAll_insertIgnoreTag (db : Db weight) (hproblem : HasProblem db problemId)
    {tagIds : List Nat} (hnodup : tagIds.Nodup)
    (hnew : ∀ id ∈ tagIds, (problemId, id) ∉ db.problemTags) :
    writeAll (tagIds.map (insertIgnoreTag tagExists problemId)) db = .ok { db with
      problemTags :=
        db.problemTags ++ (tagIds.filter tagExists).map fun id => (problemId, id) } := by
  induction tagIds generalizing db with
  | nil => simp [writeAll, pure, Except.pure]
  | cons id tagIds ih =>
    rw [List.nodup_cons] at hnodup
    rw [List.forall_mem_cons] at hnew
    rw [List.map_cons, writeAll, List.foldlM_cons, insertIgnoreTag]
    by_cases hid : tagExists id
    · have hother : ∀ x ∈ tagIds, (problemId, x) ∉ db.problemTags ++ [(problemId, id)] := by
        intro x hx hmem
        rcases List.mem_append.1 hmem with hmem | hmem
        · exact hnew.2 x hx hmem
        · obtain rfl := (Prod.mk.inj (List.mem_singleton.1 hmem)).2
          exact hnodup.1 hx
      rw [if_pos ⟨hnew.1, hid, hproblem⟩, List.filter_cons_of_pos hid, List.map_cons]
      refine (ih { db with problemTags := db.problemTags ++ [(problemId, id)] } hproblem hnodup.2
        hother).trans ?_
      simp only [List.append_assoc, List.singleton_append]
    · rw [if_neg fun h => hid h.2.1, List.filter_cons_of_neg hid]
      exact ih db hproblem hnodup.2 hnew.2

/-- The writes of `replace` do what `replaceTags` does with the tags that exist. -/
theorem writeAll_tagWrites (hproblem : HasProblem db problemId) (tagIds : List Nat) :
    writeAll (tagWrites tagExists problemId tagIds) db =
      .ok (replaceTags db problemId (tagIds.filter tagExists) none).2 := by
  have hnew : ∀ id ∈ tagIds.eraseDups,
      (problemId, id) ∉ db.problemTags.filter fun t => t.1 != problemId := by
    intro id _ hmem
    simpa using (List.mem_filter.1 hmem).2
  refine (writeAll_insertIgnoreTag
    { db with problemTags := db.problemTags.filter fun t => t.1 != problemId } hproblem
    (nodup_eraseDups tagIds) hnew).trans ?_
  rw [replaceTags, filter_eraseDups]

/-- Cases are added one after the other; without a problem the first one is refused. -/
theorem writeAll_insertCase (rows : List SampleCaseRow) (isSample : Bool)
    (h : writeAll (rows.map (insertCase problemId isSample)) db = .ok db') :
    db' = { db with
      testCases := db.testCases ++
        rows.mapIdx fun i row => row.toTestCase (db.nextCaseId + i) problemId isSample
      nextCaseId := db.nextCaseId + rows.length } := by
  induction rows generalizing db with
  | nil =>
    cases h
    simp
  | cons row rows ih =>
    rw [List.map_cons, writeAll, List.foldlM_cons, insertCase] at h
    by_cases hproblem : HasProblem db problemId
    · rw [if_pos hproblem] at h
      rw [ih h]
      simp only [List.mapIdx_cons, List.append_assoc, List.singleton_append, List.length_cons,
        Nat.add_assoc, Nat.add_comm 1, Nat.add_zero]
    · rw [if_neg hproblem] at h
      cases h

/-- The cases of a problem that exists are not refused. -/
theorem exists_writeAll_insertCase (hproblem : HasProblem db problemId)
    (rows : List SampleCaseRow) (isSample : Bool) :
    ∃ db', writeAll (rows.map (insertCase problemId isSample)) db = .ok db' := by
  induction rows generalizing db with
  | nil => exact ⟨db, rfl⟩
  | cons row rows ih =>
    rw [List.map_cons, writeAll, List.foldlM_cons, insertCase, if_pos hproblem]
    exact ih hproblem

/-- The writes of `replace_for_problem` do what `replaceForProblem` does. -/
theorem writeAll_caseWrites (rows : List SampleCaseRow) (isSample : Bool)
    (h : writeAll (caseWrites problemId rows isSample) db = .ok db') :
    db' = (replaceForProblem db problemId rows isSample none).2 :=
  writeAll_insertCase rows isSample h

/-! ## All or nothing -/

/-- The case belongs to the class of the problem. -/
def Owned (problemId : Nat) (isSample : Bool) (c : TestCase) : Prop :=
  c.problemId = problemId ∧ c.isSample = isSample

instance (problemId : Nat) (isSample : Bool) : DecidablePred (Owned problemId isSample) :=
  fun _ => inferInstanceAs (Decidable (_ ∧ _))

/-- The columns that a caller gives, and the tolerance. -/
def columns (c : TestCase) : SampleCaseRow × Option Bytes :=
  (⟨c.input, c.expectedOutput, c.judgeType, c.orderNum⟩, c.floatEpsilon)

/-- The columns of a row that is given. -/
def givenColumns (row : SampleCaseRow) : SampleCaseRow × Option Bytes :=
  (row, if row.judgeType = bytes "float_eps" then some (bytes "0.00000001") else none)

/-- The tags of the problem are as they were, if the call has thrown, and the ids that exist
    otherwise; nothing else has changed. -/
structure TagsReplaced (tagExists : Nat → Bool) (db : Db weight) (problemId : Nat)
    (tagIds : List Nat) (x : Except Bytes Unit × Db weight) : Prop where
  failed : ∀ what, x.1 = .error what → x.2.tagsOf problemId = db.tagsOf problemId
  done : x.1 = .ok () →
    ∀ id, (problemId, id) ∈ x.2.problemTags ↔ id ∈ tagIds ∧ tagExists id
  others : ∀ p ≠ problemId, x.2.tagsOf p = db.tagsOf p
  cases : x.2.testCases = db.testCases
  problems : x.2.problems = db.problems

/-- The cases of the class are as they were, if the call has thrown, and the given rows in their
    order otherwise; nothing else has changed. -/
structure CasesReplaced (db : Db weight) (problemId : Nat) (rows : List SampleCaseRow)
    (isSample : Bool) (x : Except Bytes Unit × Db weight) : Prop where
  failed : ∀ what, x.1 = .error what →
    x.2.testCases.filter (Owned problemId isSample) = db.testCases.filter (Owned problemId isSample)
  done : x.1 = .ok () →
    (x.2.testCases.filter (Owned problemId isSample)).map columns =
      rows.map givenColumns
  others : x.2.testCases.filter (fun c => ¬Owned problemId isSample c) =
    db.testCases.filter fun c => ¬Owned problemId isSample c
  tags : x.2.problemTags = db.problemTags
  problems : x.2.problems = db.problems

/-- The tags after the call of one step. -/
theorem mem_replaceTags (db : Db weight) (problemId : Nat) (tagIds : List Nat) (id : Nat) :
    (problemId, id) ∈ (replaceTags db problemId tagIds none).2.problemTags ↔ id ∈ tagIds := by
  simp [replaceTags]

/-- The rows that stay are those that do not belong to the class. -/
theorem kept_eq (isSample : Bool) (cases : List TestCase) :
    (cases.filter fun c => !(c.problemId == problemId && c.isSample == isSample)) =
      cases.filter fun c => ¬Owned problemId isSample c := by
  refine List.filter_congr fun c _ => ?_
  rw [Bool.eq_iff_iff]
  simp [Owned]

section Inserted

variable (problemId) (rows : List SampleCaseRow) (isSample : Bool) (firstId : Nat)

/-- The rows that are inserted, with consecutive ids. -/
def inserted : List TestCase :=
  rows.mapIdx fun i row => row.toTestCase (firstId + i) problemId isSample

/-- The new cases are of the problem and of the kind. -/
theorem owned_inserted : ∀ c ∈ inserted problemId rows isSample firstId,
    Owned problemId isSample c := by
  intro c hc
  obtain ⟨i, -, rfl⟩ := List.mem_mapIdx.1 hc
  exact ⟨rfl, rfl⟩

/-- They have the given columns. -/
theorem columns_inserted :
    (inserted problemId rows isSample firstId).map columns = rows.map givenColumns := by
  refine List.ext_getElem? fun i => ?_
  simp only [inserted, List.getElem?_map, List.getElem?_mapIdx, Option.map_map]
  rfl

end Inserted

theorem testCases_replaceForProblem (db : Db weight) (problemId : Nat) (rows : List SampleCaseRow)
    (isSample : Bool) : (replaceForProblem db problemId rows isSample none).2.testCases =
      (db.testCases.filter fun c => ¬Owned problemId isSample c) ++
        inserted problemId rows isSample db.nextCaseId :=
  congrArg (· ++ _) (kept_eq isSample db.testCases)

/-- The cases after the call of one step: those of the class. -/
theorem owned_replaceForProblem (db : Db weight) (problemId : Nat) (rows : List SampleCaseRow)
    (isSample : Bool) :
    ((replaceForProblem db problemId rows isSample none).2.testCases.filter
      (Owned problemId isSample)).map columns = rows.map givenColumns := by
  have hkept : (db.testCases.filter fun c => ¬Owned problemId isSample c).filter
      (Owned problemId isSample) = [] := by
    simp
  have hnew := List.filter_eq_self.2 fun c hc =>
    decide_eq_true (owned_inserted problemId rows isSample db.nextCaseId c hc)
  rw [testCases_replaceForProblem, List.filter_append, hkept, List.nil_append, hnew,
    columns_inserted]

/-- The cases after the call of one step: the others. -/
theorem others_replaceForProblem (db : Db weight) (problemId : Nat) (rows : List SampleCaseRow)
    (isSample : Bool) :
    (replaceForProblem db problemId rows isSample none).2.testCases.filter
        (fun c => ¬Owned problemId isSample c) =
      db.testCases.filter fun c => ¬Owned problemId isSample c := by
  have hnew : (inserted problemId rows isSample db.nextCaseId).filter
      (fun c => ¬Owned problemId isSample c) = [] := by
    rw [List.filter_eq_nil_iff]
    intro c hc
    simpa using owned_inserted problemId rows isSample db.nextCaseId c hc
  rw [testCases_replaceForProblem, List.filter_append, hnew, List.append_nil, List.filter_filter]
  simp only [Bool.and_self]

/-- `tag_repo::replace`, wherever a statement fails. -/
theorem replace_tagsReplaced (env : Env) (tagExists : Nat → Bool)
    (hproblem : HasProblem db problemId) (tagIds : List Nat) :
    TagsReplaced tagExists db problemId tagIds (replace env tagExists db problemId tagIds) := by
  cases hx : (replace env tagExists db problemId tagIds).1 with
  | error what =>
    have hsame : (replace env tagExists db problemId tagIds).2 = db := inTransaction_of_error hx
    refine ⟨fun _ _ => ?_, fun h => absurd (hx.symm.trans h) nofun, fun _ _ => ?_, ?_, ?_⟩ <;>
      rw [hsame]
  | ok =>
    have hdone : (replace env tagExists db problemId tagIds).2 =
        (replaceTags db problemId (tagIds.filter tagExists) none).2 :=
      Except.ok.inj ((inTransaction_of_ok hx).symm.trans (writeAll_tagWrites hproblem tagIds))
    refine ⟨fun what h => absurd (hx.symm.trans h) nofun, fun _ id => ?_, fun p hp => ?_, ?_, ?_⟩
    · rw [hdone, mem_replaceTags, List.mem_filter]
    · rw [hdone, tagsOf_replaceTags _ hp]
    · rw [hdone, replaceTags]
    · rw [hdone, replaceTags]

/-- `test_case_repo::replace_for_problem`, wherever a statement fails. -/
theorem replaceCases_casesReplaced (env : Env) (db : Db weight) (problemId : Nat)
    (rows : List SampleCaseRow) (isSample : Bool) :
    CasesReplaced db problemId rows isSample (replaceCases env db problemId rows isSample) := by
  cases hx : (replaceCases env db problemId rows isSample).1 with
  | error what =>
    have hsame : (replaceCases env db problemId rows isSample).2 = db := inTransaction_of_error hx
    refine ⟨fun _ _ => ?_, fun h => absurd (hx.symm.trans h) nofun, ?_, ?_, ?_⟩ <;> rw [hsame]
  | ok =>
    have hdone := writeAll_caseWrites rows isSample (inTransaction_of_ok hx)
    rw [← replaceCases] at hdone
    refine ⟨fun what h => absurd (hx.symm.trans h) nofun, fun _ => ?_, ?_, ?_, ?_⟩
    · rw [hdone, owned_replaceForProblem]
    · rw [hdone, others_replaceForProblem]
    · rw [hdone, replaceForProblem]
    · rw [hdone, replaceForProblem]

/-- `tag_repo::replace` returns, if nothing fails. -/
theorem replace_of_quiet (hquiet : env.Quiet) (hproblem : HasProblem db problemId)
    (tagIds : List Nat) : (replace env tagExists db problemId tagIds).1 = .ok () :=
  inTransaction_of_quiet hquiet (writeAll_tagWrites hproblem tagIds)

/-- So does `test_case_repo::replace_for_problem`. -/
theorem replaceCases_of_quiet (hquiet : env.Quiet) (hproblem : HasProblem db problemId)
    (rows : List SampleCaseRow) (isSample : Bool) :
    (replaceCases env db problemId rows isSample).1 = .ok () := by
  -- the problem is still there after the `DELETE`
  have hdeleted : HasProblem { db with
      testCases :=
        db.testCases.filter fun c => !(c.problemId == problemId && c.isSample == isSample) }
      problemId := hproblem
  obtain ⟨db', h⟩ := exists_writeAll_insertCase hdeleted rows isSample
  exact inTransaction_of_quiet hquiet h

/-- Each of the two functions replaces the rows of the problem, or leaves them as they were, at
    whatever statement it fails; the rows of others stay. It returns, if nothing fails. -/
theorem replace_allOrNothing (env env' : Env) (tagExists : Nat → Bool)
    (hproblem : HasProblem db problemId) (tagIds : List Nat) (rows : List SampleCaseRow)
    (isSample : Bool) :
    TagsReplaced tagExists db problemId tagIds (replace env tagExists db problemId tagIds) ∧
      CasesReplaced db problemId rows isSample
        (replaceCases env' db problemId rows isSample) ∧
      (env.Quiet → (replace env tagExists db problemId tagIds).1 = .ok ()) ∧
      (env'.Quiet → (replaceCases env' db problemId rows isSample).1 = .ok ()) :=
  ⟨replace_tagsReplaced env tagExists hproblem tagIds,
    replaceCases_casesReplaced env' db problemId rows isSample,
    fun hquiet => replace_of_quiet hquiet hproblem tagIds,
    fun hquiet => replaceCases_of_quiet hquiet hproblem rows isSample⟩

/-- A problem. -/
def twoSum : Problem where
  id := 1
  slug := bytes "two-sum"
  title := bytes "Two Sum"
  difficulty := bytes "easy"
  description := bytes "add"
  template := none
  timeLimit := 1000
  memoryLimit := 256
  acceptedCount := 0
  submissionCount := 0
  isDeleted := false
  createdAt := 0
  updatedAt := 0

/-- The tables with this problem, and one tag of it. -/
def twoSumDb : Db id where
  problems := [twoSum]
  nextId := 2
  problemTags := [(1, 5)]
  testCases := []
  nextCaseId := 1
  nodup_ids := List.nodup_singleton _
  id_lt := fun _ hr => List.mem_singleton.1 hr ▸ Nat.lt_succ_self 1
  nodup_slugs := List.nodup_singleton _
  nextId_pos := Nat.two_pos

/-- The fourth statement fails, and the `ROLLBACK` after it. -/
def lateFailure : Env := ⟨none, fun n => if 3 ≤ n then .failed (bytes "gone") else .done⟩

/-- Nothing fails. -/
def noFailure : Env := ⟨none, fun _ => .done⟩

/-- A row to insert. -/
def sampleRow : SampleCaseRow := ⟨bytes "1 2", bytes "3", bytes "exact", 0⟩

/-- The tags survive a failure in the middle of the loop; the samples are replaced. -/
theorem replace_allOrNothing_twoSum :
    (replace lateFailure (fun _ => true) twoSumDb 1 [7, 8]).1 =
        .error (bytes "tag_repo::replace: gone") ∧
      (replaceCases noFailure twoSumDb 1 [sampleRow] true).1 = .ok () ∧
      TagsReplaced (fun _ => true) twoSumDb 1 [7, 8]
        (replace lateFailure (fun _ => true) twoSumDb 1 [7, 8]) ∧
      CasesReplaced twoSumDb 1 [sampleRow] true
        (replaceCases noFailure twoSumDb 1 [sampleRow] true) := by
  have hproblem : HasProblem twoSumDb 1 := by decide
  obtain ⟨htags, hcases, -, hdone⟩ := replace_allOrNothing lateFailure noFailure (fun _ => true)
    hproblem [7, 8] [sampleRow] true
  exact ⟨by decide +kernel, hdone ⟨rfl, fun _ => rfl⟩, htags, hcases⟩

end LiteCode.ReplaceAll
