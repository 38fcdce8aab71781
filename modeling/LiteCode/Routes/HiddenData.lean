import LiteCode.Lib.Hiding
import LiteCode.Routes.PublicProblems

/-!
# What nobody can read

What the handlers of `LiteCode.ProblemRoutes` keep to themselves: the test cases that are no
samples, the text of a special judge, and all there is of a problem that is soft-deleted and not
restored. The tables without these (`hideTables`), and the writes without these (`hideWrite`), give
every call the same answer, in whatever order statements and writes come.

* `Alike`: two states of the tables that differ only in what is hidden;
* `Alike.next_eq`: a statement reads the same in both; `Alike.apply`: both stay alike when one is
  written to and the other with what is hidden left out;
* `calls_of_hide`: the run without what is hidden is possible, and has the same calls with the same
  answers.
-/

namespace LiteCode.ProblemRoutes

open ProblemRepo
open ReplaceAll (HasProblem)
open ProblemNavigation (ProblemListFilter selected)

variable {weight : Bytes → Bytes} {gone : List Nat}

/-! ## What is hidden -/

/-- The text of a special judge, covered up. -/
def cover (source : Bytes) : Bytes := source.map fun _ => 0

/-- A test case that anyone may read. -/
def shown (gone : List Nat) (c : TestCase) : Bool := c.isSample && c.problemId ∉ gone

/-- The tables without the problems `gone`, hidden test cases and texts of special judges. -/
def hideTables (gone : List Nat) (t : Tables weight) : Tables weight where
  db := {
    problems := t.db.problems.filter fun r => r.id ∉ gone
    nextId := t.db.nextId
    problemTags := t.db.problemTags.filter fun x => x.1 ∉ gone
    testCases := t.db.testCases.filter (shown gone)
    nextCaseId := t.db.nextCaseId
    nodup_ids := t.db.nodup_ids.sublist (List.filter_sublist.map _)
    id_lt := fun r hr => t.db.id_lt r (List.mem_filter.1 hr).1
    nodup_slugs := t.db.nodup_slugs.sublist (List.filter_sublist.map _)
    nextId_pos := t.db.nextId_pos }
  tags := t.tags
  judges := {
    rows := (t.judges.rows.filter fun r => r.problemId ∉ gone).map fun r =>
      { r with source := cover r.source }
    nodup := by
      rw [List.map_map]
      exact t.judges.nodup.sublist (List.filter_sublist.map _) }
  cases_sorted := t.cases_sorted.sublist (List.filter_sublist.map _)
  case_lt := fun c hc => t.case_lt c (List.mem_filter.1 hc).1

/-- What is left of a write. -/
def hideWrite (gone : List Nat) : Write → Option Write
  | .replaceTags id tagIds => if id ∈ gone then none else some (.replaceTags id tagIds)
  | .replaceCases id rows isSample =>
    if id ∈ gone ∨ isSample = false then none else some (.replaceCases id rows isSample)
  | .upsertJudge id source language now =>
    if id ∈ gone then none else some (.upsertJudge id (cover source) language now)
  | .removeJudge id => if id ∈ gone then none else some (.removeJudge id)
  | .judged id accepted submissions =>
    if id ∈ gone then none else some (.judged id accepted submissions)
  | w => some w

/-- What is left of an action. -/
def hide (gone : List Nat) : Action → Option Action
  | .write w => (hideWrite gone w).map .write
  | a => some a

/-- Ids that are given out, and whose rows are soft-deleted. -/
def Gone (gone : List Nat) (db : Db weight) : Prop :=
  ∀ id ∈ gone, id < db.nextId ∧ ∀ r ∈ db.problems, r.id = id → r.isDeleted = true

instance (db : Db weight) : Decidable (Gone gone db) :=
  inferInstanceAs (Decidable (∀ _ ∈ _, _ ∧ ∀ _ ∈ _, _ → _))

/-- No problem of `gone` has the slug. -/
def Free (gone : List Nat) (db : Db weight) (slug : Bytes) : Prop :=
  ∀ r ∈ db.problems, r.id ∈ gone → weight r.slug ≠ weight slug

instance (db : Db weight) (slug : Bytes) : Decidable (Free gone db slug) :=
  inferInstanceAs (Decidable (∀ _ ∈ _, _))

/-- The write brings no problem of `gone` to life again. -/
def Spares (gone : List Nat) (t : Tables weight) : Write → Prop
  | .restore slug _ => Free gone t.db slug
  | .upsert row _ => Free gone t.db row.slug
  | _ => True

instance (t : Tables weight) (w : Write) : Decidable (Spares gone t w) :=
  match w with
  | .restore slug _ => inferInstanceAs (Decidable (Free gone t.db slug))
  | .upsert row _ => inferInstanceAs (Decidable (Free gone t.db row.slug))
  | .create .. | .update .. | .softDelete .. | .insertTags .. | .replaceTags .. | .replaceCases ..
  | .upsertJudge .. | .removeJudge .. | .judged .. => isTrue trivial

/-- No problem of `gone` comes to life again. -/
def Unrevived (gone : List Nat) (s : State weight) : Action → Prop
  | .write w => Spares gone s.tables w
  | _ => True

instance (s : State weight) (a : Action) : Decidable (Unrevived gone s a) :=
  match a with
  | .write w => inferInstanceAs (Decidable (Spares gone s.tables w))
  | .request _ | .advance .. => isTrue trivial

/-! ## Tables that are alike -/

/-- Two samples that look the same. -/
structure SameSample (c c' : TestCase) : Prop where
  problemId : c'.problemId = c.problemId
  isSample : c'.isSample = c.isSample
  orderNum : c'.orderNum = c.orderNum
  sample : sample c' = sample c

/-- `t` has what is not hidden of `s`. -/
structure Alike (gone : List Nat) (s t : Tables weight) : Prop where
  deleted : Gone gone s.db
  problems : t.db.problems = s.db.problems.filter fun r => r.id ∉ gone
  nextId : t.db.nextId = s.db.nextId
  problemTags : t.db.problemTags = s.db.problemTags.filter fun x => x.1 ∉ gone
  samples : List.Forall₂ SameSample (s.db.testCases.filter (shown gone))
    (t.db.testCases.filter (shown gone))
  tags : t.tags = s.tags
  judges : t.judges.rows.map SpecialJudgeRow.problemId =
    (s.judges.rows.map SpecialJudgeRow.problemId).filter fun id => id ∉ gone

variable {s s' t : Tables weight} {id : Nat} {slug : Bytes} {row : ProblemRow} {now : Int}

/-- The tables without the hidden problems are alike. -/
theorem alike_hideTables (h : Gone gone s.db) : Alike gone s (hideTables gone s) where
  deleted := h
  problems := rfl
  nextId := rfl
  problemTags := rfl
  samples := by
    rw [hideTables, List.filter_filter]
    simp only [Bool.and_self]
    exact List.forall₂_same.2 fun c _ => ⟨rfl, rfl, rfl, rfl⟩
  tags := rfl
  judges := by
    rw [hideTables, List.map_map, List.filter_map]
    rfl

namespace Alike

/-- They have the problems that are not hidden. -/
theorem mem_problems (h : Alike gone s t) {r : Problem} :
    r ∈ t.db.problems ↔ r ∈ s.db.problems ∧ r.id ∉ gone := by
  rw [h.problems, List.mem_filter, decide_eq_true_eq]

/-- A live problem is not hidden. -/
theorem not_gone (h : Alike gone s t) {r : Problem} (hr : r ∈ s.db.problems)
    (hlive : r.isDeleted = false) : r.id ∉ gone := by
  intro hgone
  rw [(h.deleted r.id hgone).2 r hr rfl] at hlive
  cases hlive

/-! ### What is read -/

/-- A problem is found in both, or in neither. -/
theorem findBySlug_eq (h : Alike gone s t) (slug : Bytes) :
    t.db.findBySlug slug false = s.db.findBySlug slug false := by
  ext r
  rw [Db.findBySlug_eq_some_iff, Db.findBySlug_eq_some_iff, h.mem_problems]
  constructor
  · rintro ⟨⟨hr, -⟩, hslug, hlive⟩
    exact ⟨hr, hslug, hlive⟩
  · rintro ⟨hr, hslug, hlive⟩
    exact ⟨⟨hr, h.not_gone hr (by simpa using hlive)⟩, hslug, hlive⟩

/-- One that is found is not hidden. -/
theorem not_gone_of_findBySlug (h : Alike gone s t) {r : Problem}
    (hr : s.db.findBySlug slug false = some r) : r.id ∉ gone := by
  obtain ⟨hmem, -, hlive⟩ := Db.findBySlug_eq_some_iff.1 hr
  exact h.not_gone hmem (by simpa using hlive)

/-- The tags of the others are in both. -/
theorem mem_problemTags (h : Alike gone s t) {x : Nat × Nat} (hx : x.1 ∉ gone) :
    x ∈ t.db.problemTags ↔ x ∈ s.db.problemTags := by
  rw [h.problemTags, List.mem_filter, decide_eq_true_eq, and_iff_left hx]

/-- A filter of the public list selects the same rows. -/
theorem filter_selects (h : Alike gone s t) {f : ProblemListFilter}
    (hf : f.includeDeleted = false) :
    t.db.problems.filter (f.selects t.db) = s.db.problems.filter (f.selects s.db) := by
  rw [h.problems, List.filter_filter]
  refine List.filter_congr fun r hr => ?_
  by_cases hgone : r.id ∈ gone
  · -- a soft-deleted row is not selected
    simp [ProblemListFilter.selects, hf, (h.deleted r.id hgone).2 r hr rfl]
  · have htags (tag : Nat) :
        t.db.problemTags.contains (r.id, tag) = s.db.problemTags.contains (r.id, tag) := by
      rw [Bool.eq_iff_iff, List.contains_iff_mem, List.contains_iff_mem, h.mem_problemTags hgone]
    simp only [ProblemListFilter.selects, htags, hgone, not_false_eq_true, decide_true,
      Bool.and_true]

/-- The pages of the list are the same. -/
theorem pageOf_eq (h : Alike gone s t) {f : ProblemListFilter} (hf : f.includeDeleted = false) :
    pageOf t f = pageOf s f := by
  rw [pageOf, pageOf, selected, selected, h.filter_selects hf]

/-- The tags of a problem that is not hidden are the same. -/
theorem tagsForProblem_eq (h : Alike gone s t) (hid : id ∉ gone) :
    tagsForProblem t id = tagsForProblem s id := by
  have htags (tag : Nat) :
      t.db.problemTags.contains (id, tag) = s.db.problemTags.contains (id, tag) := by
    rw [Bool.eq_iff_iff, List.contains_iff_mem, List.contains_iff_mem, h.mem_problemTags hid]
  simp only [tagsForProblem, htags, h.tags]

/-- It has a special judge in both, or in neither. -/
theorem has_eq (h : Alike gone s t) (hid : id ∉ gone) : t.judges.has id = s.judges.has id := by
  rw [Bool.eq_iff_iff, Judges.has_iff, Judges.has_iff, h.judges, List.mem_filter,
    decide_eq_true_eq, and_iff_left hid]

/-- A link of a tag to a live problem is not hidden. -/
theorem tagsWithCount_eq (h : Alike gone s t) : tagsWithCount t = tagsWithCount s := by
  have hcount (tagId : Nat) : liveCount t tagId = liveCount s tagId := by
    rw [liveCount, liveCount, h.problemTags, List.countP_filter]
    refine List.countP_congr fun x _ => ?_
    simp only [h.problems, List.any_filter, Bool.and_eq_true, List.any_eq_true, beq_iff_eq,
      decide_eq_true_eq, Bool.not_eq_true']
    constructor
    · rintro ⟨⟨htag, r, hr, -, hid, hlive⟩, -⟩
      exact ⟨htag, r, hr, hid, hlive⟩
    · rintro ⟨htag, r, hr, hid, hlive⟩
      have hgone := h.not_gone hr hlive
      exact ⟨⟨htag, r, hr, hgone, hid, hlive⟩, hid ▸ hgone⟩
  simp only [tagsWithCount, hcount, h.tags]

/-- Samples that look the same, at one place of both lists. -/
def SameAt (l l' : List TestCase) (c c' : TestCase) : Prop :=
  SameSample c c' ∧ ∃ i : Nat, l[i]? = some c ∧ l'[i]? = some c'

/-- Ids in order compare as the places do. -/
theorem sampleLe_eq {l l' : List TestCase} (hl : (l.map TestCase.id).Pairwise (· < ·))
    (hl' : (l'.map TestCase.id).Pairwise (· < ·)) {c d c' d' : TestCase} (hc : SameAt l l' c c')
    (hd : SameAt l l' d d') : AdminProblem.sampleLe c d = AdminProblem.sampleLe c' d' := by
  obtain ⟨hsame, i, hi, hi'⟩ := hc
  obtain ⟨hsame', j, hj, hj'⟩ := hd
  have hasymm (a b : TestCase) : a.id < b.id → ¬b.id < a.id := Nat.lt_asymm
  have hlt : d.id < c.id ↔ d'.id < c'.id := by
    rw [lt_getElem?_iff hasymm (List.pairwise_map.1 hl) hj hi,
      lt_getElem?_iff hasymm (List.pairwise_map.1 hl') hj' hi']
  have hle : decide (c.id ≤ d.id) = decide (c'.id ≤ d'.id) := by
    rw [decide_eq_decide]
    omega
  rw [AdminProblem.sampleLe, AdminProblem.sampleLe, hsame.orderNum, hsame'.orderNum, hle]

/-- They are among the samples that are shown. -/
theorem samplesOf_eq_filter (s : Tables weight) (hid : id ∉ gone) : samplesOf s id =
    (s.db.testCases.filter (shown gone)).filter fun c => c.problemId == id := by
  rw [samplesOf, List.filter_filter]
  refine List.filter_congr fun c _ => ?_
  by_cases hc : c.problemId = id
  · subst hc
    simp [shown, hid]
  · have hne : (c.problemId == id) = false := beq_eq_false_iff_ne.2 hc
    rw [hne, Bool.false_and, Bool.false_and]

/-- The samples of a problem that is not hidden look the same in both, place by place. -/
theorem samplesOf_sameAt (h : Alike gone s t) (hid : id ∉ gone) :
    List.Forall₂ (SameAt (samplesOf s id) (samplesOf t id)) (samplesOf s id) (samplesOf t id) := by
  have hrows : List.Forall₂ SameSample (samplesOf s id) (samplesOf t id) := by
    rw [samplesOf_eq_filter s hid, samplesOf_eq_filter t hid]
    refine List.rel_filter (R := SameSample) (p := fun c => c.problemId == id)
      (q := fun c => c.problemId == id) (fun c c' hc => ?_) h.samples
    change (c.problemId == id) = true ↔ (c'.problemId == id) = true
    rw [hc.problemId]
  obtain ⟨hlength, hplaces⟩ := List.forall₂_iff_get.1 hrows
  refine List.forall₂_iff_get.2 ⟨hlength, fun i hi hi' => ⟨hplaces i hi hi', i, ?_, ?_⟩⟩
  · exact List.getElem?_eq_getElem hi
  · exact List.getElem?_eq_getElem hi'

/-- They are shown alike. -/
theorem samplesForProblem_eq (h : Alike gone s t) (hid : id ∉ gone) :
    (samplesForProblem t id).map sample = (samplesForProblem s id).map sample := by
  have hsorted (u : Tables weight) :
      ((samplesOf u id).map TestCase.id).Pairwise (· < ·) :=
    u.cases_sorted.sublist (List.filter_sublist.map _)
  have hmerge := forall₂_mergeSort (h.samplesOf_sameAt hid) fun hc hd =>
    sampleLe_eq (hsorted s) (hsorted t) hc hd
  have hview : List.Forall₂ (fun c c' => sample c = sample c') (samplesForProblem s id)
      (samplesForProblem t id) := hmerge.imp fun _ _ hc => hc.1.sample.symm
  have hmap : List.Forall₂ Eq ((samplesForProblem s id).map sample)
      ((samplesForProblem t id).map sample) :=
    List.forall₂_map_left_iff.2 (List.forall₂_map_right_iff.2 hview)
  rw [List.forall₂_eq_eq_eq] at hmap
  exact hmap.symm

end Alike

/-- The row that a call has in hand. -/
def Pc.row? : Pc → Option Problem
  | .findTags row => some row
  | .findSamples row _ => some row
  | .findJudge row _ _ => some row
  | _ => none

/-- The filter that a call has in hand. -/
def Pc.filter? : Pc → Option ProblemListFilter
  | .count f => some f
  | .page f _ => some f
  | _ => none

/-- What a call carries on is not hidden. -/
structure Pc.Shown (gone : List Nat) (pc : Pc) : Prop where
  row : ∀ r ∈ pc.row?, r.id ∉ gone
  filter : ∀ f ∈ pc.filter?, f.includeDeleted = false

theorem shown_answered (a : Answer) : (Pc.answered a).Shown gone where
  row _ h := by cases h
  filter _ h := by cases h

/-- A call that goes on without a row and without a filter. -/
theorem Pc.Shown.of_none {pc : Pc} (hrow : pc.row? = none) (hfilter : pc.filter? = none) :
    pc.Shown gone where
  row r h := by
    rw [hrow] at h
    cases h
  filter f h := by
    rw [hfilter] at h
    cases h

/-- A request with a row that is not hidden. -/
theorem Pc.Shown.of_row {pc : Pc} {r : Problem} (hrow : pc.row? = some r) (hr : r.id ∉ gone)
    (hfilter : pc.filter? = none) : pc.Shown gone where
  row q h := by
    rw [hrow] at h
    cases h
    exact hr
  filter f h := by
    rw [hfilter] at h
    cases h

/-- A request for a page without deleted problems. -/
theorem Pc.Shown.of_filter {pc : Pc} {f : ProblemListFilter} (hfilter : pc.filter? = some f)
    (hf : f.includeDeleted = false) (hrow : pc.row? = none) : pc.Shown gone where
  row r h := by
    rw [hrow] at h
    cases h
  filter g h := by
    rw [hfilter] at h
    cases h
    exact hf

/-- A request that goes on, or fails. -/
theorem shown_after {α : Type} {fault : Option Bytes} {a : α} {f : α → Pc}
    (h : (f a).Shown gone) : (after fault a f).Shown gone := by
  cases fault with
  | none => exact h
  | some what => exact shown_answered _

/-- A new request knows nothing yet. -/
theorem shown_start (r : Request) : (start r).Shown gone := by
  cases r with
  | list q =>
    rw [start]
    cases h : parseListQuery q with
    | error e => exact shown_answered _
    | ok f => exact .of_filter rfl (includeDeleted_of_parseListQuery h) rfl
  | detail path =>
    rw [start]
    cases Validators.extractSlugFromPath path with
    | none => exact shown_answered _
    | some slug => exact .of_none rfl rfl
  | navigation path =>
    rw [start]
    split_ifs
    · exact shown_answered _
    · exact shown_answered _
    · exact .of_none rfl rfl
  | tags => exact .of_none rfl rfl

namespace Alike

/-- A statement reads the same. -/
theorem next_eq (h : Alike gone s t) {pc : Pc} (hpc : pc.Shown gone) (fault : Option Fault) :
    next t fault pc = next s fault pc := by
  cases pc with
  | count f => rw [next, next, h.filter_selects (hpc.filter f rfl)]
  | page f total => rw [next, next, h.pageOf_eq (hpc.filter f rfl)]
  | find slug => rw [next, next, h.findBySlug_eq]
  | findTags row => rw [next, next, h.tagsForProblem_eq (hpc.row row rfl)]
  | findSamples row tags => rw [next, next, h.samplesForProblem_eq (hpc.row row rfl)]
  | findJudge row tags samples => rw [next, next, h.has_eq (hpc.row row rfl)]
  | findCurrent slug => rw [next, next, h.findBySlug_eq]
  | countAll current => rw [next, next, h.filter_selects rfl]
  | pageAll current => rw [next, next, h.pageOf_eq rfl]
  | tagList => rw [next, next, h.tagsWithCount_eq]
  | answered a => rfl

/-- What a statement finds is not hidden. -/
theorem shown_next (h : Alike gone s t) {pc pc' : Pc} (hpc : pc.Shown gone) {fault : Option Fault}
    (hnext : next s fault pc = some pc') : pc'.Shown gone := by
  cases pc with
  | count f =>
    cases hnext
    exact shown_after (.of_filter rfl (hpc.filter f rfl) rfl)
  | page f total =>
    cases hnext
    exact shown_after (shown_answered _)
  | find slug =>
    cases hnext
    refine shown_after ?_
    cases hfound : s.db.findBySlug slug false with
    | none => exact shown_answered _
    | some row => exact .of_row rfl (h.not_gone_of_findBySlug hfound) rfl
  | findTags row =>
    cases hnext
    exact shown_after (.of_row rfl (hpc.row row rfl) rfl)
  | findSamples row tags =>
    cases hnext
    exact shown_after (.of_row rfl (hpc.row row rfl) rfl)
  | findJudge row tags samples =>
    cases hnext
    exact shown_after (shown_answered _)
  | findCurrent slug =>
    cases hnext
    refine shown_after ?_
    cases s.db.findBySlug slug false with
    | none => exact shown_answered _
    | some row => exact .of_none rfl rfl
  | countAll current =>
    cases hnext
    exact shown_after (.of_none rfl rfl)
  | pageAll current =>
    cases hnext
    exact shown_after (shown_answered _)
  | tagList =>
    cases hnext
    exact shown_after (shown_answered _)
  | answered a => cases hnext

end Alike

/-! ## What is written -/

/-- Other tables than the rows of the problems are the same. -/
structure SameRest (s s' : Tables weight) : Prop where
  nextId : s'.db.nextId = s.db.nextId
  problemTags : s'.db.problemTags = s.db.problemTags
  testCases : s'.db.testCases = s.db.testCases
  tags : s'.tags = s.tags
  judges : s'.judges = s.judges

/-- The hidden problems stay deleted under an `UPDATE` that leaves them so. -/
theorem Gone.map {db db' : Db weight} (h : Gone gone db) {f : Problem → Problem}
    (hproblems : db'.problems = db.problems.map f) (hnext : db'.nextId = db.nextId)
    (hid : ∀ r, (f r).id = r.id)
    (hdeleted : ∀ r ∈ db.problems, r.id ∈ gone → (f r).isDeleted = true) : Gone gone db' := by
  intro id hgone
  refine ⟨hnext ▸ (h id hgone).1, fun r hr hrid => ?_⟩
  rw [hproblems] at hr
  obtain ⟨q, hq, rfl⟩ := List.mem_map.1 hr
  rw [hid] at hrid
  exact hdeleted q hq (hrid ▸ hgone)

/-- Columns are assigned to rows of both. -/
theorem Alike.map (h : Alike gone s t) {s' t' : Tables weight} {f : Problem → Problem}
    (hid : ∀ r, (f r).id = r.id)
    (hdeleted : ∀ r ∈ s.db.problems, r.id ∈ gone → (f r).isDeleted = true)
    (hs : s'.db.problems = s.db.problems.map f) (ht : t'.db.problems = t.db.problems.map f)
    (hsrest : SameRest s s') (htrest : SameRest t t') : Alike gone s' t' where
  deleted := h.deleted.map hs hsrest.nextId hid hdeleted
  problems := by
    have hcomp : (fun r : Problem => decide (r.id ∉ gone)) ∘ f = fun r => decide (r.id ∉ gone) := by
      funext r
      rw [Function.comp_apply, hid]
    rw [hs, ht, h.problems, List.filter_map, hcomp]
  nextId := by rw [hsrest.nextId, htrest.nextId, h.nextId]
  problemTags := by rw [hsrest.problemTags, htrest.problemTags, h.problemTags]
  samples := by
    rw [hsrest.testCases, htrest.testCases]
    exact h.samples
  tags := by rw [hsrest.tags, htrest.tags, h.tags]
  judges := by rw [hsrest.judges, htrest.judges, h.judges]

namespace Alike

/-- A slug that is vacant stays so without the hidden problems. -/
theorem owner_eq_none (h : Alike gone s t) (ho : s.db.owner slug = none) :
    t.db.owner slug = none := by
  rw [Db.owner_eq_none_iff] at ho ⊢
  exact fun r hr => ho r (h.mem_problems.1 hr).1

/-- A problem that is not hidden is in both tables. -/
theorem hasProblem_iff (h : Alike gone s t) (hid : id ∉ gone) :
    HasProblem t.db id ↔ HasProblem s.db id := by
  constructor
  · rintro ⟨r, hr, hrid⟩
    exact ⟨r, (h.mem_problems.1 hr).1, hrid⟩
  · rintro ⟨r, hr, rfl⟩
    exact ⟨r, h.mem_problems.2 ⟨hr, hid⟩, rfl⟩

/-- A new problem is added to both. -/
theorem insert (h : Alike gone s t) (row : ProblemRow) (now : Int)
    (hs : s.db.owner row.slug = none) (ht : t.db.owner row.slug = none) :
    Alike gone (s.setDb (s.db.insert row now hs) rfl rfl)
      (t.setDb (t.db.insert row now ht) rfl rfl) where
  deleted := by
    intro id hid
    obtain ⟨hlt, hrows⟩ := h.deleted id hid
    refine ⟨Nat.lt_succ_of_lt hlt, forall_mem_concat hrows fun hnew => ?_⟩
    exact absurd hlt (hnew ▸ Nat.lt_irrefl _)
  problems := by
    have hnew : (row.toProblem s.db.nextId now).id ∉ gone := fun hid =>
      Nat.lt_irrefl _ (h.deleted _ hid).1
    change t.db.problems ++ [row.toProblem t.db.nextId now] =
      (s.db.problems ++ [row.toProblem s.db.nextId now]).filter fun r => r.id ∉ gone
    rw [List.filter_append, List.filter_cons_of_pos (by simpa using hnew), List.filter_nil,
      ← h.problems, h.nextId]
  nextId := congrArg (· + 1) h.nextId
  problemTags := h.problemTags
  samples := h.samples
  tags := h.tags
  judges := h.judges

/-- An update of a problem is made in both. -/
theorem assign (h : Alike gone s t) (patch : ProblemRow) (now : Int)
    (hs : s.db.Vacant slug patch) (ht : t.db.Vacant slug patch) :
    Alike gone (s.setDb (s.db.assign slug patch now hs) rfl rfl)
      (t.setDb (t.db.assign slug patch now ht) rfl rfl) := by
  refine h.map (f := fun r => if Db.Targets weight slug r then patch.assign now r else r)
    (fun r => ?_) (fun r hr hgone => ?_) rfl rfl ⟨rfl, rfl, rfl, rfl, rfl⟩
    ⟨rfl, rfl, rfl, rfl, rfl⟩
  · split_ifs
    · exact patch.assign_id now r
    · rfl
  · -- a row that is soft-deleted is not found
    have hdel := (h.deleted r.id hgone).2 r hr rfl
    rw [if_neg fun htarget => by simp [htarget.2] at hdel]
    exact hdel

/-- A slug that is not that of a hidden problem has its owner in both. -/
theorem owner_ne_none (h : Alike gone s t) (hfree : Free gone s.db slug)
    (ho : s.db.owner slug ≠ none) : t.db.owner slug ≠ none := by
  obtain ⟨r, hr⟩ := Option.ne_none_iff_exists'.1 ho
  obtain ⟨hmem, hslug⟩ := Db.owner_eq_some_iff.1 hr
  have hgone : r.id ∉ gone := fun hgone => hfree r hmem hgone hslug
  rw [Db.owner_eq_some_iff.2 ⟨h.mem_problems.2 ⟨hmem, hgone⟩, hslug⟩]
  exact Option.some_ne_none r

/-- An overwritten problem is overwritten in both. -/
theorem overwrite (h : Alike gone s t) (row : ProblemRow) (now : Int)
    (hfree : Free gone s.db row.slug) :
    Alike gone (s.setDb (s.db.overwrite row now) rfl rfl)
      (t.setDb (t.db.overwrite row now) rfl rfl) := by
  refine h.map (f := fun r => if weight r.slug = weight row.slug then row.overwrite now r else r)
    (fun r => ?_) (fun r hr hgone => ?_) rfl rfl ⟨rfl, rfl, rfl, rfl, rfl⟩
    ⟨rfl, rfl, rfl, rfl, rfl⟩
  · split_ifs <;> rfl
  · rw [if_neg (hfree r hr hgone)]
    exact (h.deleted r.id hgone).2 r hr rfl

/-- A problem is marked, and one of `gone` only as soft-deleted. -/
theorem mark (h : Alike gone s t) {deleted : Bool} (now : Int)
    (hfree : deleted = true ∨ Free gone s.db slug) :
    Alike gone (s.setDb (s.db.mark deleted slug now) rfl rfl)
      (t.setDb (t.db.mark deleted slug now) rfl rfl) := by
  refine h.map (Problem.mark_id deleted slug now) (fun r hr hgone => ?_) rfl rfl
    ⟨rfl, rfl, rfl, rfl, rfl⟩ ⟨rfl, rfl, rfl, rfl, rfl⟩
  have hdel := (h.deleted r.id hgone).2 r hr rfl
  rw [Problem.mark]
  split_ifs with hmark
  · rcases hfree with rfl | hfree
    · rfl
    · exact absurd hmark.1 (hfree r hr hgone)
  · exact hdel

/-- Counts are no sign of life. -/
theorem isDeleted_judged (h : Gone gone s.db) (accepted submissions : Int) {r : Problem}
    (hr : r ∈ s.db.problems) (hgone : r.id ∈ gone) :
    (r.judged id accepted submissions).isDeleted = true := by
  have hdel := (h r.id hgone).2 r hr rfl
  rw [Problem.judged]
  split_ifs <;> exact hdel

/-- A special judge is written in both, its source apart. -/
theorem upsertJudge (h : Alike gone s t) (hid : id ∉ gone) (source source' language : Bytes)
    (now : Int) : Alike gone { s with judges := s.judges.upsert id source language now }
      { t with judges := t.judges.upsert id source' language now } where
  deleted := h.deleted
  problems := h.problems
  nextId := h.nextId
  problemTags := h.problemTags
  samples := h.samples
  tags := h.tags
  judges := by
    rw [Judges.map_problemId_upsert, Judges.map_problemId_upsert, List.filter_append, h.judges,
      h.has_eq hid]
    split_ifs
    · rfl
    · rw [List.filter_cons_of_pos (by simpa using hid), List.filter_nil]

/-- It is removed from both. -/
theorem removeJudge (h : Alike gone s t) (id : Nat) :
    Alike gone { s with judges := s.judges.remove id } { t with judges := t.judges.remove id } where
  deleted := h.deleted
  problems := h.problems
  nextId := h.nextId
  problemTags := h.problemTags
  samples := h.samples
  tags := h.tags
  judges := by
    rw [Judges.map_problemId_remove, Judges.map_problemId_remove, h.judges, List.filter_filter,
      List.filter_filter]
    simp only [Bool.and_comm]

/-- The tags of a problem are hidden with it. -/
theorem filter_links (gone : List Nat) (id : Nat) (tagIds : List Nat) :
    (tagIds.map fun tag => (id, tag)).filter (fun x => x.1 ∉ gone) =
      if id ∈ gone then [] else tagIds.map fun tag => (id, tag) := by
  split_ifs with hid
  · refine List.filter_eq_nil_iff.2 fun x hx => ?_
    obtain ⟨tag, -, rfl⟩ := List.mem_map.1 hx
    simpa using hid
  · refine List.filter_eq_self.2 fun x hx => ?_
    obtain ⟨tag, -, rfl⟩ := List.mem_map.1 hx
    simpa using hid

/-- The tags of a problem are replaced in both. -/
theorem replaceTags (h : Alike gone s t) (hid : id ∉ gone) (tagIds : List Nat) :
    Alike gone (s.setDb (ProblemRepo.replaceTags s.db id (tagIds.filter s.hasTag) none).2 rfl rfl)
      (t.setDb (ProblemRepo.replaceTags t.db id (tagIds.filter t.hasTag) none).2 rfl rfl) where
  deleted := h.deleted
  problems := h.problems
  nextId := h.nextId
  problemTags := by
    have htags : t.hasTag = s.hasTag := by
      funext tag
      rw [Tables.hasTag, Tables.hasTag, h.tags]
    change t.db.problemTags.filter (fun x => x.1 != id) ++
        (tagIds.filter t.hasTag).eraseDups.map (fun tag => (id, tag)) =
      (s.db.problemTags.filter (fun x => x.1 != id) ++
        (tagIds.filter s.hasTag).eraseDups.map fun tag => (id, tag)).filter fun x => x.1 ∉ gone
    rw [List.filter_append, filter_links, if_neg hid, htags, h.problemTags, List.filter_filter,
      List.filter_filter]
    simp only [Bool.and_comm]
  samples := h.samples
  tags := h.tags
  judges := h.judges

/-- Test cases are hidden with their problem, or if they are no samples. -/
theorem filter_toTestCase (gone : List Nat) (id : Nat) (isSample : Bool)
    (rows : List SampleCaseRow) (n : Nat) :
    (rows.mapIdx fun i row => row.toTestCase (n + i) id isSample).filter (shown gone) =
      if id ∈ gone ∨ isSample = false then []
      else rows.mapIdx fun i row => row.toTestCase (n + i) id isSample := by
  split_ifs with hid
  · refine List.filter_eq_nil_iff.2 fun c hc => ?_
    obtain ⟨i, hi, rfl⟩ := List.mem_mapIdx.1 hc
    rcases hid with hid | rfl
    · simp [shown, SampleCaseRow.toTestCase, hid]
    · simp [shown, SampleCaseRow.toTestCase]
  · refine List.filter_eq_self.2 fun c hc => ?_
    obtain ⟨i, hi, rfl⟩ := List.mem_mapIdx.1 hc
    obtain ⟨hgone, hsample⟩ := not_or.1 hid
    simp [shown, SampleCaseRow.toTestCase, hgone, hsample]

/-- New samples look the same, whatever ids they get. -/
theorem forall₂_mapIdx (hid : id ∉ gone) (rows : List SampleCaseRow) (n m : Nat) :
    List.Forall₂ SameSample
      ((rows.mapIdx fun i row => row.toTestCase (n + i) id true).filter (shown gone))
      ((rows.mapIdx fun i row => row.toTestCase (m + i) id true).filter (shown gone)) := by
  have hshown : ¬(id ∈ gone ∨ true = false) := by simpa using hid
  rw [filter_toTestCase, filter_toTestCase, if_neg hshown, if_neg hshown]
  refine List.forall₂_iff_get.2 ⟨by rw [List.length_mapIdx, List.length_mapIdx], ?_⟩
  intro i hi hi'
  simp only [List.get_eq_getElem, List.getElem_mapIdx]
  exact ⟨rfl, rfl, rfl, rfl⟩

/-- So are its samples. -/
theorem replaceCases (h : Alike gone s t) (hid : id ∉ gone) (rows : List SampleCaseRow) :
    Alike gone (s.replaceCases id rows true) (t.replaceCases id rows true) where
  deleted := h.deleted
  problems := h.problems
  nextId := h.nextId
  problemTags := h.problemTags
  samples := by
    have hkept (u : Tables weight) :
        (u.db.testCases.filter fun c => !(c.problemId == id && c.isSample == true)).filter
          (shown gone) = (u.db.testCases.filter (shown gone)).filter
            fun c => !(c.problemId == id && c.isSample == true) := by
      rw [List.filter_filter, List.filter_filter]
      simp only [Bool.and_comm]
    change List.Forall₂ SameSample ((_ ++ _ : List TestCase).filter (shown gone))
      ((_ ++ _ : List TestCase).filter (shown gone))
    rw [List.filter_append, List.filter_append, hkept, hkept]
    refine List.rel_append (R := SameSample) ?_ (forall₂_mapIdx hid rows _ _)
    refine List.rel_filter (R := SameSample) (fun c c' hc => ?_) h.samples
    change (!(c.problemId == id && c.isSample == true)) = true ↔
      (!(c'.problemId == id && c'.isSample == true)) = true
    rw [hc.problemId, hc.isSample]
  tags := h.tags
  judges := h.judges

/-- A covered source is accepted exactly if the source is. -/
theorem validateSource_cover (source : Bytes) :
    validateSource (cover source) = validateSource source := by
  rw [validateSource, validateSource, cover, List.length_map]

/-- A write, and what is left of it, keep the tables alike. -/
theorem apply (h : Alike gone s t) {w w' : Write} (hspares : Spares gone s w)
    (hw : hideWrite gone w = some w') (hs : w.apply s = some s') :
    ∃ t', w'.apply t = some t' ∧ Alike gone s' t' := by
  cases w with
  | create row now =>
    cases hw
    rw [Write.apply] at hs
    split_ifs at hs with hc
    cases hs
    have ht := h.owner_eq_none hc.2
    exact ⟨_, dif_pos ⟨hc.1, ht⟩, h.insert row.effective now hc.2 ht⟩
  | update slug patch now =>
    cases hw
    rw [Write.apply] at hs
    split_ifs at hs with hc
    cases hs
    have hfound : (t.db.findBySlug slug false).isSome := by
      rw [h.findBySlug_eq]
      exact hc.2.1
    have hvacant : t.db.Vacant slug patch := fun r hr => hc.2.2 r (h.mem_problems.1 hr).1
    exact ⟨_, dif_pos ⟨hc.1, hfound, hvacant⟩, h.assign patch now hc.2.2 hvacant⟩
  | upsert row now =>
    cases hw
    rw [Write.apply] at hs
    split_ifs at hs with hv ho
    · cases hs
      have ht := h.owner_eq_none ho
      exact ⟨_, (if_pos hv).trans (dif_pos ht), h.insert row.effective now ho ht⟩
    · cases hs
      have ht : t.db.owner row.effective.slug ≠ none := h.owner_ne_none hspares ho
      exact ⟨_, (if_pos hv).trans (dif_neg ht), h.overwrite row.effective now hspares⟩
  | softDelete slug now =>
    cases hw
    cases hs
    exact ⟨_, rfl, h.mark now (.inl rfl)⟩
  | restore slug now =>
    cases hw
    cases hs
    exact ⟨_, rfl, h.mark now (.inr hspares)⟩
  | insertTags names =>
    cases hw
    cases hs
    exact ⟨_, rfl, h.deleted, h.problems, h.nextId, h.problemTags, h.samples,
      congrArg (TagRepo.Tags.insertAll · names) h.tags, h.judges⟩
  | replaceTags id tagIds =>
    rw [hideWrite] at hw
    split_ifs at hw with hid
    cases hw
    rw [Write.apply] at hs
    split_ifs at hs with hp
    cases hs
    exact ⟨_, if_pos ((h.hasProblem_iff hid).2 hp), h.replaceTags hid tagIds⟩
  | replaceCases id rows isSample =>
    rw [hideWrite] at hw
    split_ifs at hw with hid
    cases hw
    obtain ⟨hgone, hsample⟩ := not_or.1 hid
    rw [Bool.not_eq_false] at hsample
    subst hsample
    rw [Write.apply] at hs
    split_ifs at hs with hp
    cases hs
    exact ⟨_, if_pos ((h.hasProblem_iff hgone).2 hp), h.replaceCases hgone rows⟩
  | upsertJudge id source language now =>
    rw [hideWrite] at hw
    split_ifs at hw with hid
    cases hw
    rw [Write.apply] at hs
    split_ifs at hs with hc
    cases hs
    obtain ⟨hne, hsource, hlanguage, hp⟩ := hc
    exact ⟨_, if_pos ⟨hne, (validateSource_cover source).trans hsource, hlanguage,
      (h.hasProblem_iff hid).2 hp⟩, h.upsertJudge hid source (cover source) language now⟩
  | removeJudge id =>
    rw [hideWrite] at hw
    split_ifs at hw with hid
    cases hw
    rw [Write.apply] at hs
    split_ifs at hs with hzero
    cases hs
    exact ⟨_, if_neg hzero, h.removeJudge id⟩
  | judged id accepted submissions =>
    rw [hideWrite] at hw
    split_ifs at hw with hid
    cases hw
    cases hs
    exact ⟨_, rfl, h.map (Problem.judged_id id accepted submissions)
      (fun r hr hgone => isDeleted_judged h.deleted accepted submissions hr hgone) rfl rfl
      ⟨rfl, rfl, rfl, rfl, rfl⟩ ⟨rfl, rfl, rfl, rfl, rfl⟩⟩

/-! ### What is left out -/

/-- The tags of a hidden problem are replaced in the first tables only. -/
theorem drop_replaceTags (h : Alike gone s t) (hid : id ∈ gone) (tagIds : List Nat) :
    Alike gone (s.setDb (ProblemRepo.replaceTags s.db id (tagIds.filter s.hasTag) none).2 rfl rfl)
      t where
  deleted := h.deleted
  problems := h.problems
  nextId := h.nextId
  problemTags := by
    have hold : (s.db.problemTags.filter fun x => x.1 != id).filter (fun x => x.1 ∉ gone) =
        s.db.problemTags.filter fun x => x.1 ∉ gone := by
      rw [List.filter_filter]
      refine List.filter_congr fun x _ => ?_
      by_cases hx : x.1 = id
      · simp [hx, hid]
      · simp [hx]
    change t.db.problemTags = (s.db.problemTags.filter (fun x => x.1 != id) ++
      (tagIds.filter s.hasTag).eraseDups.map fun tag => (id, tag)).filter fun x => x.1 ∉ gone
    rw [List.filter_append, hold, filter_links, if_pos hid, List.append_nil, h.problemTags]
  samples := h.samples
  tags := h.tags
  judges := h.judges

/-- So are its test cases. -/
theorem drop_replaceCases (h : Alike gone s t) {isSample : Bool}
    (hid : id ∈ gone ∨ isSample = false) (rows : List SampleCaseRow) :
    Alike gone (s.replaceCases id rows isSample) t where
  deleted := h.deleted
  problems := h.problems
  nextId := h.nextId
  problemTags := h.problemTags
  samples := by
    have hold : (s.db.testCases.filter fun c =>
        !(c.problemId == id && c.isSample == isSample)).filter (shown gone) =
          s.db.testCases.filter (shown gone) := by
      rw [List.filter_filter]
      refine List.filter_congr fun c _ => ?_
      rcases hid with hid | rfl
      · by_cases hc : c.problemId = id
        · simp [shown, hc, hid]
        · simp [hc]
      · cases hc : c.isSample <;> simp [shown, hc]
    change List.Forall₂ SameSample ((_ ++ _ : List TestCase).filter (shown gone)) _
    rw [List.filter_append, hold, filter_toTestCase, if_pos hid, List.append_nil]
    exact h.samples
  tags := h.tags
  judges := h.judges

/-- So is its special judge. -/
theorem drop_upsertJudge (h : Alike gone s t) (hid : id ∈ gone) (source language : Bytes)
    (now : Int) : Alike gone { s with judges := s.judges.upsert id source language now } t where
  deleted := h.deleted
  problems := h.problems
  nextId := h.nextId
  problemTags := h.problemTags
  samples := h.samples
  tags := h.tags
  judges := by
    rw [Judges.map_problemId_upsert, List.filter_append, h.judges]
    split_ifs
    · rw [List.filter_nil, List.append_nil]
    · rw [List.filter_cons_of_neg (by simpa using hid), List.filter_nil, List.append_nil]

theorem drop_removeJudge (h : Alike gone s t) (hid : id ∈ gone) :
    Alike gone { s with judges := s.judges.remove id } t where
  deleted := h.deleted
  problems := h.problems
  nextId := h.nextId
  problemTags := h.problemTags
  samples := h.samples
  tags := h.tags
  judges := by
    rw [Judges.map_problemId_remove, h.judges, List.filter_filter]
    refine List.filter_congr fun x _ => ?_
    by_cases hx : x = id
    · simp [hx, hid]
    · simp [hx]

/-- So are its counts. -/
theorem drop_judged (h : Alike gone s t) (hid : id ∈ gone) (accepted submissions : Int) :
    Alike gone (s.setDb (s.db.mapProblems (Problem.judged id accepted submissions)
      (Problem.judged_id id accepted submissions) (Problem.judged_slug id accepted submissions))
      rfl rfl) t where
  deleted := by
    refine h.deleted.map (f := Problem.judged id accepted submissions) rfl rfl
      (Problem.judged_id id accepted submissions) fun r hr hgone => ?_
    exact isDeleted_judged h.deleted accepted submissions hr hgone
  problems := by
    have hrow (r : Problem) (hr : r.id ∉ gone) : r.judged id accepted submissions = r :=
      if_neg fun hrid : r.id = id => hr (hrid.symm ▸ hid)
    have hcomp : (fun r : Problem => decide (r.id ∉ gone)) ∘
        Problem.judged id accepted submissions = fun r => decide (r.id ∉ gone) := by
      funext r
      rw [Function.comp_apply, Problem.judged_id]
    have hkept : (s.db.problems.filter fun r => r.id ∉ gone).map
        (Problem.judged id accepted submissions) =
          (s.db.problems.filter fun r => r.id ∉ gone).map fun r => r := by
      refine List.map_congr_left fun r hr => hrow r ?_
      simpa using (List.mem_filter.1 hr).2
    change t.db.problems = (s.db.problems.map (Problem.judged id accepted submissions)).filter _
    rw [List.filter_map, hcomp, hkept, List.map_id', h.problems]
  nextId := h.nextId
  problemTags := h.problemTags
  samples := h.samples
  tags := h.tags
  judges := h.judges

/-- A write that nothing is left of keeps the tables alike. -/
theorem dropped (h : Alike gone s t) {w : Write} (hw : hideWrite gone w = none)
    (hs : w.apply s = some s') : Alike gone s' t := by
  cases w with
  | create row now => cases hw
  | update slug patch now => cases hw
  | upsert row now => cases hw
  | softDelete slug now => cases hw
  | restore slug now => cases hw
  | insertTags names => cases hw
  | replaceTags id tagIds =>
    rw [hideWrite] at hw
    split_ifs at hw with hid
    rw [Write.apply] at hs
    split_ifs at hs
    cases hs
    exact h.drop_replaceTags hid tagIds
  | replaceCases id rows isSample =>
    rw [hideWrite] at hw
    split_ifs at hw with hid
    rw [Write.apply] at hs
    split_ifs at hs
    cases hs
    exact h.drop_replaceCases hid rows
  | upsertJudge id source language now =>
    rw [hideWrite] at hw
    split_ifs at hw with hid
    rw [Write.apply] at hs
    split_ifs at hs
    cases hs
    exact h.drop_upsertJudge hid source language now
  | removeJudge id =>
    rw [hideWrite] at hw
    split_ifs at hw with hid
    rw [Write.apply] at hs
    split_ifs at hs
    cases hs
    exact h.drop_removeJudge hid
  | judged id accepted submissions =>
    rw [hideWrite] at hw
    split_ifs at hw with hid
    cases hs
    exact h.drop_judged hid accepted submissions

end Alike

/-! ## Runs -/

/-- Two states with the same calls, over tables that are alike. -/
structure Related (gone : List Nat) (s t : State weight) : Prop where
  tables : Alike gone s.tables t.tables
  calls : t.calls = s.calls
  shown : ∀ pc ∈ s.calls, pc.Shown gone

/-- Every step is one of both runs, or of the first one only, in which nothing is seen. -/
theorem hides_related : (system weight).Hides (Unrevived gone) (hide gone) (Related gone) where
  dropped := by
    intro s s' t a h hg ha hs
    cases a with
    | request r => cases ha
    | advance i fault => cases ha
    | write w =>
      obtain ⟨tables, htables, rfl⟩ := Option.map_eq_some_iff.1 hs
      exact ⟨h.tables.dropped (Option.map_eq_none_iff.1 ha) htables, h.calls, h.shown⟩
  kept := by
    intro s s' t a b h hg ha hs
    cases a with
    | request r =>
      cases ha
      cases hs
      exact ⟨_, rfl, h.tables, congrArg (· ++ [start r]) h.calls,
        forall_mem_concat h.shown (shown_start r)⟩
    | advance i fault =>
      cases ha
      obtain ⟨pc, hpc, hs⟩ := Option.bind_eq_some_iff.1 hs
      obtain ⟨pc', hnext, rfl⟩ := Option.map_eq_some_iff.1 hs
      have hshown := h.shown pc (List.mem_of_getElem? hpc)
      refine ⟨{ t with calls := t.calls.set i pc' }, ?_, h.tables,
        congrArg (fun l => l.set i pc') h.calls, fun q hq => ?_⟩
      · have hpc' : t.calls[i]? = some pc := by rw [h.calls, hpc]
        change (t.calls[i]?.bind fun pc => (next t.tables fault pc).map _) = _
        rw [hpc', Option.bind_some, h.tables.next_eq hshown, hnext]
        rfl
      · rcases List.mem_or_eq_of_mem_set hq with hq | rfl
        · exact h.shown q hq
        · exact h.tables.shown_next hshown hnext
    | write w =>
      obtain ⟨w', hw, rfl⟩ := Option.map_eq_some_iff.1 ha
      obtain ⟨tables, htables, rfl⟩ := Option.map_eq_some_iff.1 hs
      obtain ⟨tables', happly, halike⟩ := h.tables.apply hg hw htables
      refine ⟨{ t with tables := tables' }, ?_, halike, h.calls, h.shown⟩
      change (w'.apply t.tables).map _ = _
      rw [happly]
      rfl

/-- The calls of a run have the answers that they would have if what is hidden had never been
    there. -/
theorem calls_of_hide {s s' : State weight} {l : List Action} (hgone : Gone gone s.tables.db)
    (hinit : (system weight).init s) (h : (system weight).Exec (Unrevived gone) s l s') :
    ∃ t', (system weight).Exec System.Always { s with tables := hideTables gone s.tables }
      (l.filterMap (hide gone)) t' ∧ t'.calls = s'.calls := by
  have hrelated : Related gone s { s with tables := hideTables gone s.tables } := by
    refine ⟨alike_hideTables hgone, rfl, fun pc hpc => ?_⟩
    rw [hinit] at hpc
    cases hpc
  obtain ⟨t', hl, ht⟩ := h.hide hides_related hrelated
  exact ⟨t', hl, ht.calls⟩

/-- A sample of the first problem. -/
def firstSample : SampleCaseRow := ⟨bytes "4 5", bytes "9", bytes "exact", 0⟩

/-- The detail of a problem is read while test cases are replaced, and the other problem loses its
    tag. -/
def readInBetween : List Action :=
  [.write (.replaceCases 1 [firstSample] true),
    .request (.detail (bytes "/api/v1/problems/two-sum")), .advance 0 none,
    .write (.replaceCases 1 [firstSample, firstSample] false), .advance 0 none,
    .write (.replaceTags 2 []), .write (.upsertJudge 1 (bytes "int main() {}") (bytes "cpp") 6),
    .advance 0 none, .advance 0 none]

/-- What is read is the sample and the tag, and that there is a special judge. -/
def twoSumDetail : Detail where
  card := ⟨1, bytes "two-sum", bytes "Two Sum", bytes "easy", 1000, 256, 0, 0, 5, 5⟩
  description := bytes "Add."
  template := none
  tags := [⟨1, bytes "array"⟩]
  samples := [⟨bytes "4 5", bytes "9", bytes "exact"⟩]
  hasSpecialJudge := true

theorem calls_of_hide_twoProblems : ∃ t', (system TagRepo.lowercase).Exec System.Always
      { twoProblems with tables := hideTables [2] twoProblems.tables }
      (readInBetween.filterMap (hide [2])) t' ∧
    t'.calls = [.answered (.detail twoSumDetail)] := by
  obtain ⟨s', hl, hs⟩ := System.exists_exec_of_runGuarded (S := system TagRepo.lowercase)
    (G := Unrevived [2]) (s := twoProblems) (l := readInBetween)
    (p := fun s => decide (s.calls = [.answered (.detail twoSumDetail)])) (by decide +kernel)
  have hinit : (system TagRepo.lowercase).init twoProblems := rfl
  obtain ⟨t', hl', hcalls⟩ := calls_of_hide (by decide) hinit hl
  exact ⟨t', hl', hcalls.trans (of_decide_eq_true hs)⟩

end LiteCode.ProblemRoutes
