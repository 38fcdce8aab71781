import LiteCode.Db.ProblemRepo
import LiteCode.Lib.ListIndex

/-!
# The update of a problem

`update`, `find_by_slug` and `find_by_id` of `src/db/problem_repo.h`. An update is found by the slug
that a live problem has, and may give it another one; the key on the slugs counts soft-deleted
problems as well. A call that throws is taken to have had no effect: no reply of the database is
lost.

* `update_cases`: a patch that passes the checks is refused, for want of a live problem or for the
  key, or it is written, and its slug is found afterwards.
-/

namespace LiteCode.ProblemRepo

variable {weight : Bytes → Bytes}

/-- What `update` throws. -/
inductive UpdateError
  /-- `ProblemNotFoundError`. -/
  | notFound (what : Bytes)
  /-- `ProblemAlreadyExistsError`. -/
  | alreadyExists (what : Bytes)
  | repo (what : Bytes)
  deriving DecidableEq, Repr

/-- The assignments of `UPDATE`; the time of the update is that of a change. -/
def ProblemRow.assign (row : ProblemRow) (now : Int) (r : Problem) : Problem :=
  let r' := { r with
    slug := row.slug
    title := row.title
    difficulty := row.difficulty
    description := row.description
    template := some row.template
    timeLimit := row.timeLimit
    memoryLimit := row.memoryLimit }
  if r' = r then r else { r' with updatedAt := now }

/-- An update leaves the id as it is. -/
theorem ProblemRow.assign_id (row : ProblemRow) (now : Int) (r : Problem) :
    (row.assign now r).id = r.id := by
  rw [assign]
  split_ifs <;> rfl

theorem ProblemRow.assign_slug (row : ProblemRow) (now : Int) (r : Problem) :
    (row.assign now r).slug = row.slug := by
  rw [assign]
  split_ifs with h
  · exact (congrArg Problem.slug h).symm
  · rfl

namespace Db

variable {db : Db weight} {currentSlug : Bytes} {row : ProblemRow} {now : Int}

/-- `find_by_slug`. -/
def findBySlug (db : Db weight) (slug : Bytes) (includeDeleted : Bool) : Option Problem :=
  (db.owner slug).filter fun r => includeDeleted || !r.isDeleted

/-- `find_by_id`. -/
def findById (db : Db weight) (id : Nat) (includeDeleted : Bool) : Option Problem :=
  (db.problems.find? fun r => r.id == id).filter fun r => includeDeleted || !r.isDeleted

/-- The row that `UPDATE ... WHERE slug = ? AND is_deleted = FALSE` is about. -/
def Targets (weight : Bytes → Bytes) (currentSlug : Bytes) (r : Problem) : Prop :=
  weight r.slug = weight currentSlug ∧ r.isDeleted = false

instance (currentSlug : Bytes) (r : Problem) : Decidable (Targets weight currentSlug r) :=
  inferInstanceAs (Decidable (_ ∧ _))

/-- The rows after the assignments. -/
def assigned (db : Db weight) (currentSlug : Bytes) (row : ProblemRow) (now : Int) :
    List Problem :=
  db.problems.map fun r => if Targets weight currentSlug r then row.assign now r else r

/-- No other row has the new slug. -/
def Vacant (db : Db weight) (currentSlug : Bytes) (row : ProblemRow) : Prop :=
  ∀ r ∈ db.problems, ¬Targets weight currentSlug r → weight r.slug ≠ weight row.slug

instance (db : Db weight) (currentSlug : Bytes) (row : ProblemRow) :
    Decidable (db.Vacant currentSlug row) :=
  inferInstanceAs (Decidable (∀ _ ∈ _, _))

/-- The table keeps its ids. -/
theorem map_id_assigned (db : Db weight) (currentSlug : Bytes) (row : ProblemRow) (now : Int) :
    (db.assigned currentSlug row now).map Problem.id = db.problems.map Problem.id := by
  rw [assigned, List.map_map]
  refine List.map_congr_left fun r _ => ?_
  rw [Function.comp_apply]
  split_ifs
  · exact row.assign_id now r
  · rfl

theorem id_lt_assigned (db : Db weight) (currentSlug : Bytes) (row : ProblemRow) (now : Int) :
    ∀ r ∈ db.assigned currentSlug row now, r.id < db.nextId := by
  intro r hr
  have hid : r.id ∈ (db.assigned currentSlug row now).map Problem.id := List.mem_map_of_mem hr
  rw [map_id_assigned] at hid
  obtain ⟨r', hr', hid'⟩ := List.mem_map.1 hid
  exact hid' ▸ db.id_lt r' hr'

/-- The slugs stay distinct, if the new one is vacant. -/
theorem nodup_slugs_assigned (now : Int) (h : db.Vacant currentSlug row) :
    ((db.assigned currentSlug row now).map fun r => weight r.slug).Nodup := by
  rw [assigned, List.map_map]
  have hslugs := List.pairwise_map.1 db.nodup_slugs
  refine List.pairwise_map.2 (hslugs.imp_of_mem ?_)
  intro a b ha hb hslug
  simp only [Function.comp_apply]
  split_ifs with hat hbt hbt
  · exact absurd (hat.1.trans hbt.1.symm) hslug
  · rw [ProblemRow.assign_slug]
    exact (h b hb hbt).symm
  · rw [ProblemRow.assign_slug]
    exact h a ha hat
  · exact hslug

/-- The `UPDATE`, where the key admits the new slug. -/
def assign (db : Db weight) (currentSlug : Bytes) (row : ProblemRow) (now : Int)
    (h : db.Vacant currentSlug row) : Db weight where
  problems := db.assigned currentSlug row now
  nextId := db.nextId
  problemTags := db.problemTags
  testCases := db.testCases
  nextCaseId := db.nextCaseId
  nodup_ids := by
    rw [map_id_assigned]
    exact db.nodup_ids
  id_lt := db.id_lt_assigned currentSlug row now
  nodup_slugs := nodup_slugs_assigned now h
  nextId_pos := db.nextId_pos

end Db

/-- `update`: whether a row was changed; `readFault` is met by the first `SELECT`, and `fault` by
    the `UPDATE`. -/
def update (db : Db weight) (currentSlug : Bytes) (patch : ProblemRow) (now : Int)
    (readFault fault : Option Bytes) : Except UpdateError Bool × Db weight :=
  match patch.validate with
  | .error err => (.error (.repo (bytes "update: " ++ err)), db)
  | .ok () =>
    match readFault with
    | some what => (.error (.repo what), db)
    | none =>
      if (db.findBySlug currentSlug false).isNone then
        (.error (.notFound (bytes "problem_repo::update: slug '" ++ currentSlug ++
          bytes "' not found")), db)
      else
        let refused : UpdateError := .alreadyExists
          (bytes "problem_repo::update: slug '" ++ patch.slug ++ bytes "' already exists")
        match fault with
        | some what =>
          (.error (if isDuplicate what then refused
            else .repo (bytes "problem_repo::update: " ++ what)), db)
        | none =>
          if h : db.Vacant currentSlug patch then
            (.ok (db.assigned currentSlug patch now ≠ db.problems),
              db.assign currentSlug patch now h)
          else (.error refused, db)

variable {db : Db weight} {currentSlug slug : Bytes} {patch : ProblemRow} {r : Problem} {now : Int}

/-- A row is found by the weight of its slug. -/
theorem Db.findBySlug_eq_some_iff {includeDeleted : Bool} :
    db.findBySlug slug includeDeleted = some r ↔
      r ∈ db.problems ∧ weight r.slug = weight slug ∧ (includeDeleted || !r.isDeleted) = true := by
  rw [findBySlug, Option.filter_eq_some_iff, owner_eq_some_iff, and_assoc]

/-- A problem is found by its id, whether it is soft-deleted or not. -/
theorem Db.findById_of_mem (hr : r ∈ db.problems) : db.findById r.id true = some r := by
  rw [findById, (find?_key_eq_some_iff db.nodup_ids).2 ⟨hr, rfl⟩, Option.filter_eq_some_iff]
  exact ⟨rfl, rfl⟩

/-- `update` of a patch that passes the checks, when no statement fails: no live problem has the
    slug, or the key refuses the new one, or the patch is written and found by its slug. -/
theorem update_cases (db : Db weight) (currentSlug : Bytes) (now : Int)
    (hv : patch.validate = .ok ()) :
    (∃ what, update db currentSlug patch now none none = (.error (.notFound what), db)) ∨
    (∃ what, update db currentSlug patch now none none = (.error (.alreadyExists what), db)) ∨
    ∃ changed db' r, update db currentSlug patch now none none = (.ok changed, db') ∧
      db'.findBySlug patch.slug true = some r := by
  simp only [update, hv]
  cases hfound : db.findBySlug currentSlug false with
  | none => exact .inl ⟨_, if_pos rfl⟩
  | some r =>
    rw [if_neg (by simp)]
    by_cases h : db.Vacant currentSlug patch
    · rw [dif_pos h]
      obtain ⟨hr, hslug, hlive⟩ := Db.findBySlug_eq_some_iff.1 hfound
      have htarget : Db.Targets weight currentSlug r := ⟨hslug, by simpa using hlive⟩
      have hmem : patch.assign now r ∈ (db.assign currentSlug patch now h).problems :=
        List.mem_map.2 ⟨r, hr, if_pos htarget⟩
      refine .inr (.inr ⟨_, _, patch.assign now r, rfl, ?_⟩)
      exact Db.findBySlug_eq_some_iff.2 ⟨hmem, by rw [ProblemRow.assign_slug], rfl⟩
    · rw [dif_neg h]
      exact .inr (.inl ⟨_, rfl⟩)

end LiteCode.ProblemRepo
