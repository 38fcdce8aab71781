import LiteCode.Routes.PublicProblems

/-!
# What the endpoints say about a tag

A tag is shown in three places: the list of tags has a count of problems, the list of problems can
be filtered by a tag, and the detail of a problem has its tags. The count comes from a join of
`tags`, `problem_tags` and `problems`, the filter is a subquery, and the tags are a join without
`problems`. That they agree rests on the primary key of `problem_tags`, which the writes keep.

* `nodup_problemTags_apply`, `nodup_problemTags`: no problem has a tag twice, after a write and
  after a run;
* `length_selected_eq_liveCount`: as many problems pass the filter of a tag as are counted for it;
* `tags_agree`: for every tag there is one list of problems. Its length is the count, its pages are
  the answers with the filter, and the problems on it are those whose detail has the tag.
-/

namespace LiteCode.ProblemRoutes

open AdminAuditLogRoutes (Params)
open ProblemRepo
open ProblemNavigation (Before ProblemListFilter selected)
open TagRepo (TagRow)

variable {weight : Bytes → Bytes} {t t' : Tables weight}

/-! ## The key of `problem_tags` -/

theorem nodup_replaceTags {db : Db weight} (h : db.problemTags.Nodup) (id : Nat)
    (tagIds : List Nat) : (replaceTags db id tagIds none).2.problemTags.Nodup := by
  rw [replaceTags, List.nodup_append']
  refine ⟨h.filter _, (nodup_eraseDups tagIds).map fun a b hab => (Prod.ext_iff.1 hab).2, ?_⟩
  intro x hx hx'
  obtain ⟨tagId, -, rfl⟩ := List.mem_map.1 hx'
  simpa using (List.mem_filter.1 hx).2

theorem nodup_problemTags_apply {w : Write} (h : t.db.problemTags.Nodup)
    (hw : w.apply t = some t') : t'.db.problemTags.Nodup := by
  cases w with
  | create row now =>
    rw [Write.apply] at hw
    split_ifs at hw
    cases hw
    exact h
  | update slug patch now =>
    rw [Write.apply] at hw
    split_ifs at hw
    cases hw
    exact h
  | upsert row now =>
    rw [Write.apply] at hw
    split_ifs at hw <;> cases hw <;> exact h
  | softDelete slug now =>
    cases hw
    exact h
  | restore slug now =>
    cases hw
    exact h
  | insertTags names =>
    cases hw
    exact h
  | replaceTags id tagIds =>
    rw [Write.apply] at hw
    split_ifs at hw
    cases hw
    exact nodup_replaceTags h id _
  | replaceCases id rows isSample =>
    rw [Write.apply] at hw
    split_ifs at hw
    cases hw
    exact h
  | upsertJudge id source language now =>
    rw [Write.apply] at hw
    split_ifs at hw
    cases hw
    exact h
  | removeJudge id =>
    rw [Write.apply] at hw
    split_ifs at hw
    cases hw
    exact h
  | judged id accepted submissions =>
    cases hw
    exact h

theorem nodup_problemTags {s s' : State weight} {l : List Action}
    (h : (system weight).Exec System.Always s l s') (hkey : s.tables.db.problemTags.Nodup) :
    s'.tables.db.problemTags.Nodup := by
  refine h.invariant (P := fun s => s.tables.db.problemTags.Nodup) hkey ?_
  intro s a s' hs _ hstep
  cases a with
  | request r =>
    cases hstep
    exact hs
  | advance i fault =>
    obtain ⟨pc, -, hstep⟩ := Option.bind_eq_some_iff.1 hstep
    obtain ⟨pc', -, rfl⟩ := Option.map_eq_some_iff.1 hstep
    exact hs
  | write w =>
    obtain ⟨tables, hw, rfl⟩ := Option.map_eq_some_iff.1 hstep
    exact nodup_problemTags_apply hs hw

/-! ## The count of a tag -/

/-- The filter of a tag. -/
def tagFilter (tagId : Nat) : ProblemListFilter := { tagId := some tagId }

theorem selects_tagFilter {db : Db weight} {tagId : Nat} {r : Problem} :
    (tagFilter tagId).selects db r = true ↔
      (r.id, tagId) ∈ db.problemTags ∧ r.isDeleted = false := by
  simp [tagFilter, ProblemListFilter.selects]

theorem mem_selected {db : Db weight} {tagId : Nat} {r : Problem} :
    r ∈ selected db (tagFilter tagId) ↔
      r ∈ db.problems ∧ (r.id, tagId) ∈ db.problemTags ∧ r.isDeleted = false := by
  rw [selected, List.mem_insertionSort, List.mem_filter, selects_tagFilter]

/-- The pairs that are counted have the ids of the problems that the filter selects. -/
theorem length_selected_eq_liveCount (h : t.db.problemTags.Nodup) (tagId : Nat) :
    (selected t.db (tagFilter tagId)).length = liveCount t tagId := by
  rw [liveCount, List.countP_eq_length_filter]
  set counted := t.db.problemTags.filter fun x =>
    x.2 == tagId && t.db.problems.any fun r => r.id == x.1 && !r.isDeleted with hcounted
  have hmem (x : Nat × Nat) : x ∈ counted ↔ x ∈ t.db.problemTags ∧ x.2 = tagId ∧
      ∃ r ∈ t.db.problems, r.id = x.1 ∧ r.isDeleted = false := by
    simp [hcounted]
  have hfst : (counted.map Prod.fst).Nodup := by
    refine (h.filter _).map_on fun x hx y hy hxy => Prod.ext hxy ?_
    rw [((hmem x).1 hx).2.1, ((hmem y).1 hy).2.1]
  have hids : ((selected t.db (tagFilter tagId)).map Problem.id).Nodup := by
    have hperm := (List.perm_insertionSort Before
      (t.db.problems.filter ((tagFilter tagId).selects t.db))).map Problem.id
    exact hperm.nodup_iff.2 (t.db.nodup_ids.sublist (List.filter_sublist.map _))
  have hperm : ((selected t.db (tagFilter tagId)).map Problem.id).Perm (counted.map Prod.fst) := by
    refine (List.perm_ext_iff_of_nodup hids hfst).2 fun id => ?_
    rw [List.mem_map, List.mem_map]
    constructor
    · rintro ⟨r, hr, rfl⟩
      obtain ⟨hr, htag, hlive⟩ := mem_selected.1 hr
      exact ⟨(r.id, tagId), (hmem _).2 ⟨htag, rfl, r, hr, rfl, hlive⟩, rfl⟩
    · rintro ⟨⟨id, tagId'⟩, hx, rfl⟩
      obtain ⟨htag, rfl, r, hr, rfl, hlive⟩ := (hmem _).1 hx
      exact ⟨r, mem_selected.2 ⟨hr, htag, hlive⟩, rfl⟩
  simpa using hperm.length_eq

/-! ## The three endpoints -/

/-- The rows do not depend on the page. -/
theorem selected_eq {db : Db weight} {f : ProblemListFilter} {tagId : Nat}
    (hlive : f.includeDeleted = false) (hdifficulty : f.difficulty = none)
    (htag : f.tagId = some tagId) : selected db f = selected db (tagFilter tagId) := by
  have hselects : f.selects db = (tagFilter tagId).selects db := by
    funext r
    rw [ProblemListFilter.selects, ProblemListFilter.selects, hlive, hdifficulty, htag]
    rfl
  rw [selected, selected, hselects]

theorem complete_list {q : Params} {f : ProblemListFilter} (h : parseListQuery q = .ok f) :
    complete t 2 (start (.list q)) = .answered (.list ((pageOf t f).map card)
      (selected t.db f).length f.limit f.offset) := by
  have hlength : (selected t.db f).length = (t.db.problems.filter (f.selects t.db)).length := by
    rw [selected, List.length_insertionSort]
  rw [hlength, start, h]
  rfl

/-- A detail that is answered is that of a live problem, with the tags that it has. -/
theorem of_complete_detail {path : Bytes} {d : Detail}
    (h : complete t 4 (start (.detail path)) = .answered (.detail d)) :
    ∃ row ∈ t.db.problems, row.isDeleted = false ∧ d.card = card row ∧
      d.tags = tagsForProblem t row.id := by
  rw [start] at h
  cases hslug : Validators.extractSlugFromPath path with
  | none =>
    rw [hslug] at h
    cases h
  | some slug =>
    rw [hslug] at h
    cases hfound : t.db.findBySlug slug false with
    | none =>
      simp only [complete, next, Option.map_none, after, Option.getD_some, hfound] at h
      cases h
    | some row =>
      simp only [complete, next, Option.map_none, after, Option.getD_some, hfound] at h
      cases h
      obtain ⟨hmem, -, hlive⟩ := Db.findBySlug_eq_some_iff.1 hfound
      exact ⟨row, hmem, by simpa using hlive, rfl, rfl⟩

/-- A problem has the tags of its pairs. -/
theorem mem_tagsForProblem {tag : TagRow} {problemId : Nat} : tag ∈ tagsForProblem t problemId ↔
    tag ∈ t.tags.rows ∧ (problemId, tag.id) ∈ t.db.problemTags := by
  rw [tagsForProblem, List.mem_mergeSort, List.mem_filter, List.contains_iff_mem]

/-- The card of a problem is the card of no other one. -/
theorem card_mem_selected {row : Problem} {tagId : Nat} (hrow : row ∈ t.db.problems) :
    card row ∈ (selected t.db (tagFilter tagId)).map card ↔
      (row.id, tagId) ∈ t.db.problemTags ∧ row.isDeleted = false := by
  rw [List.mem_map]
  constructor
  · rintro ⟨r, hr, hcard⟩
    obtain ⟨hr, hall⟩ := mem_selected.1 hr
    have hid : r.id = row.id := congrArg Card.id hcard
    rwa [← List.inj_on_of_nodup_map t.db.nodup_ids hr hrow hid]
  · exact fun h => ⟨row, mem_selected.2 ⟨hrow, h⟩, rfl⟩

/-- After a run, there is a list of problems for every tag of the list of tags. The count is its
    length, a request with the tag as its filter is answered with a page of it, and a problem whose
    detail is answered is on it exactly if the detail has the tag. -/
theorem tags_agree {s s' : State weight} {l : List Action}
    (hkey : s.tables.db.problemTags.Nodup) (h : (system weight).Exec System.Always s l s') :
    ∃ items, complete s'.tables 1 (start .tags) = .answered (.tags items) ∧
      ∀ x ∈ items, ∃ whole : List Card, whole.length = x.problemCount ∧
        (∀ q f, parseListQuery q = .ok f → f.tagId = some x.tag.id → f.difficulty = none →
          complete s'.tables 2 (start (.list q)) = .answered (.list
            ((whole.drop f.offset.toNat).take f.limit.toNat) whole.length f.limit f.offset)) ∧
        ∀ path d, complete s'.tables 4 (start (.detail path)) = .answered (.detail d) →
          (x.tag ∈ d.tags ↔ d.card ∈ whole) := by
  refine ⟨tagsWithCount s'.tables, rfl, fun x hx => ?_⟩
  obtain ⟨tag, htag, rfl⟩ := List.mem_map.1 hx
  refine ⟨(selected s'.tables.db (tagFilter tag.id)).map card, ?_, fun q f hq hf hdifficulty => ?_,
    fun path d hd => ?_⟩
  · rw [List.length_map, length_selected_eq_liveCount (nodup_problemTags h hkey)]
  · have hselected : selected s'.tables.db f = selected s'.tables.db (tagFilter tag.id) :=
      selected_eq (includeDeleted_of_parseListQuery hq) hdifficulty hf
    rw [complete_list hq, pageOf, hselected, List.length_map, List.map_take, List.map_drop]
  · obtain ⟨row, hrow, hlive, hcard, htags⟩ := of_complete_detail hd
    rw [hcard, htags, mem_tagsForProblem, card_mem_selected hrow]
    exact ⟨fun h => ⟨h.2, hlive⟩, fun h => ⟨List.mem_mergeSort.1 htag, h.1⟩⟩

/-- The soft-deleted problem is restored, and counts again. -/
theorem tags_agree_twoProblems : ∃ (s' : State TagRepo.lowercase) (whole : List Card),
    (system TagRepo.lowercase).Exec System.Always twoProblems
      [.write (.restore (bytes "old") 6)] s' ∧
    complete s'.tables 1 (start .tags) = .answered (.tags [⟨⟨1, bytes "array"⟩, 2⟩]) ∧
    whole.length = 2 ∧
    complete s'.tables 2 (start (.list [(bytes "tag_id", bytes "1"), (bytes "limit", bytes "1")])) =
      .answered (.list (whole.take 1) 2 1 0) ∧
    ∀ path d, complete s'.tables 4 (start (.detail path)) = .answered (.detail d) →
      (⟨1, bytes "array"⟩ ∈ d.tags ↔ d.card ∈ whole) := by
  obtain ⟨s', hl, hs⟩ := System.exists_exec_of_run (S := system TagRepo.lowercase)
    (s := twoProblems) (l := [.write (.restore (bytes "old") 6)])
    (p := fun s => decide (complete s.tables 1 (start .tags) =
      .answered (.tags [⟨⟨1, bytes "array"⟩, 2⟩]))) (by decide +kernel)
  have hs := of_decide_eq_true hs
  obtain ⟨items, hitems, hagree⟩ := tags_agree (by decide) hl
  have heq : items = [⟨⟨1, bytes "array"⟩, 2⟩] := by
    have h := hitems.symm.trans hs
    injection h with h
    injection h
  subst heq
  obtain ⟨whole, hlength, hlist, hdetail⟩ := hagree _ (List.mem_singleton_self _)
  have hlist := hlist [(bytes "tag_id", bytes "1"), (bytes "limit", bytes "1")]
    { tagId := some 1, limit := 1 } rfl rfl rfl
  rw [hlength] at hlist
  exact ⟨s', whole, hl, hs, hlength, hlist, hdetail⟩

end LiteCode.ProblemRoutes
