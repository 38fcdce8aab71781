import LiteCode.Scheduler.RunOneTask

/-!
# What a run leaves behind

`run_one_task` of `src/judge/judge_scheduler.h` gives back by hand what it took: it removes every
container, deletes the task directory, and calls `release` for the container that `acquire` gave
it. Each exit repeats the calls that it needs (`cleanup_and_release`, `try_remove`,
`try_kill_and_remove`).

Two exits miss one of them: a task file that cannot be written leaves the directory there, and a
pool container that cannot be removed is not released, so that the refill thread is not woken.

* `judgeClaimed_effects`: the calls of a run that has claimed its row;
* `cleansUp_iff`: the run gives everything back exactly if it comes to none of the two exits.
-/

namespace LiteCode.JudgeScheduler

open SubmissionRepo

/-- Every call `e` is followed by a call `x`. -/
def Followed (e x : Effect) : List Effect → Prop
  | [] => True
  | y :: es => (y = e → x ∈ es) ∧ Followed e x es

instance decidableFollowed (e x : Effect) : (es : List Effect) → Decidable (Followed e x es)
  | [] => .isTrue trivial
  | y :: es =>
    have := decidableFollowed e x es
    inferInstanceAs (Decidable ((y = e → x ∈ es) ∧ Followed e x es))

/-- The container that a call releases. -/
def Effect.released : Effect → Option Bytes
  | .release id => some id
  | _ => none

/-- The container that the run has from the pool. -/
def acquired (env : TaskEnv) (es : List Effect) : Option Bytes :=
  match env.acquire with
  | some (.ok (some id)) => if .acquire ∈ es then some id else none
  | _ => none

/-- The calls `es` give back what they took. A container from `create` has an id that is not
    empty: an empty one is reported as an error of `create`. -/
structure CleansUp (env : TaskEnv) (es : List Effect) : Prop where
  pool : ∀ id, env.acquire = some (.ok (some id)) → Followed .acquire (.remove id) es
  created : ∀ cid, env.create = .ok cid → cid ≠ [] → Followed .create (.remove cid) es
  taskDir : Followed .makeTaskDir .removeTaskDir es
  released : es.filterMap Effect.released = (acquired env es).toList

variable {env : TaskEnv} {t : Table} {now id : Nat} {task : JudgeTask}

/-! ## The calls of a run -/

/-- The calls that neither take nor give back: those after which nothing has to follow, and that
    release nothing. -/
def Effect.plain : Effect → Bool
  | .makeTaskDir | .acquire | .create | .release _ => false
  | _ => true

theorem finishSe_plain (err : Bytes) : ∀ e ∈ (finishSe env t now id err).2, e.plain := by
  intro e he
  simp only [finishSe, recordTaskMetrics] at he
  split at he
  · obtain rfl := List.mem_singleton.1 he
    rfl
  · cases he

theorem persist_plain (result : Judge.JudgeResult) :
    ∀ e ∈ (persist env t now id result).2, e.plain := by
  have hmetrics : ∀ e ∈ recordTaskMetrics env result.status, e.plain := by
    simp only [recordTaskMetrics]
    split <;> simp [Effect.plain]
  intro e he
  rw [persist_effects] at he
  split at he
  · simp only [List.mem_append] at he
    rcases he with (he | he) | he
    · exact hmetrics e he
    · split at he
      · obtain rfl := List.mem_singleton.1 he
        rfl
      · cases he
    · split at he
      · obtain rfl := List.mem_singleton.1 he
        rfl
      · cases he
  · cases he

/-- A created container is removed, whatever the other calls give, and the rest of the run is
    `cleanup_and_release`. -/
theorem runContainer_effects (cfg : Config) (env : TaskEnv) (t : Table) (now id : Nat)
    {cid : Bytes} (hcid : cid ≠ []) :
    ∃ mid, (runContainer cfg env t now id cid).2 = mid ++ cleanupAndRelease env ∧
      (∀ e ∈ mid, e.plain) ∧ .remove cid ∈ mid := by
  -- the exits differ in the calls `pre` on the container and in what is stored after them
  have hexit : ∀ pre post : List Effect, (∀ e ∈ pre, e.plain) → .remove cid ∈ pre →
      (∀ e ∈ post, e.plain) → (∀ e ∈ pre ++ post, e.plain) ∧ .remove cid ∈ pre ++ post := by
    intro pre post hpre hmem hpost
    refine ⟨fun e he => ?_, List.mem_append_left _ hmem⟩
    exact (List.mem_append.1 he).elim (hpre e) (hpost e)
  simp only [runContainer]
  cases env.start with
  | error e =>
    refine ⟨_, rfl, hexit _ _ ?_ ?_ (finishSe_plain _)⟩ <;> simp [tryRemove, hcid, Effect.plain]
  | ok u =>
    cases env.wait with
    | timeout =>
      refine ⟨_, rfl, hexit _ _ ?_ ?_ (finishSe_plain _)⟩ <;>
        simp [tryKillAndRemove, tryRemove, hcid, Effect.plain]
    | failed e =>
      refine ⟨_, rfl, hexit _ _ ?_ ?_ (finishSe_plain _)⟩ <;>
        simp [tryKillAndRemove, tryRemove, hcid, Effect.plain]
    | exit code =>
      refine ⟨_, by rw [List.append_assoc], hexit _ _ ?_ ?_ (persist_plain _)⟩ <;>
        simp [tryRemove, hcid, Effect.plain]

/-- The calls from the pool container on: it is discarded, a container is created and removed, and
    the rest is cleaned up. -/
theorem createContainer_effects (cfg : Config) (env : TaskEnv) (t : Table) (now id : Nat) :
    ∃ mid, (createContainer cfg env t now id).2 =
        prewarm env ++ .create :: (mid ++ cleanupAndRelease env) ∧
      (∀ e ∈ mid, e.plain) ∧ ∀ cid, env.create = .ok cid → cid ≠ [] → .remove cid ∈ mid := by
  simp only [createContainer]
  cases env.create with
  | error e =>
    simp only [List.append_assoc, List.cons_append]
    refine ⟨_, rfl, finishSe_plain _, ?_⟩
    rintro _ ⟨⟩
  | ok cid =>
    by_cases hcid : cid = []
    · simp only [hcid, List.isEmpty_nil, if_true, List.append_assoc, List.cons_append]
      refine ⟨_, rfl, finishSe_plain _, ?_⟩
      rintro _ ⟨⟩ hne
      exact absurd rfl hne
    · obtain ⟨mid, he, hplain, hmem⟩ := runContainer_effects cfg env t now id hcid
      simp only [List.isEmpty_iff, hcid, if_false, he]
      refine ⟨mid, rfl, hplain, ?_⟩
      rintro _ ⟨⟩ -
      exact hmem

/-- The calls of a run that has claimed its row: there is no directory; the directory stays; or
    the run comes to step 3, and ends with `cleanup_and_release`. -/
theorem judgeClaimed_effects (cfg : Config) (env : TaskEnv) (t : Table) (now : Nat)
    (task : JudgeTask) :
    ((∃ e, env.makeTaskDir = .error e) ∧ ∀ e ∈ (judgeClaimed cfg env t now task).2, e.plain) ∨
    (env.makeTaskDir = .ok () ∧ (∃ e, writeTaskJson env task = .error e) ∧
      ∃ post, (judgeClaimed cfg env t now task).2 = .makeTaskDir :: post ∧
        (∀ e ∈ post, e.plain) ∧ .removeTaskDir ∉ post) ∨
    (env.makeTaskDir = .ok () ∧ writeTaskJson env task = .ok () ∧
      ∃ mid, (judgeClaimed cfg env t now task).2 =
          .makeTaskDir :: (prewarm env ++ .create :: (mid ++ cleanupAndRelease env)) ∧
        (∀ e ∈ mid, e.plain) ∧ ∀ cid, env.create = .ok cid → cid ≠ [] → .remove cid ∈ mid) := by
  simp only [judgeClaimed]
  cases hdir : env.makeTaskDir with
  | error e => exact .inl ⟨⟨e, rfl⟩, finishSe_plain _⟩
  | ok u =>
    cases hw : writeTaskJson env task with
    | error e =>
      refine .inr (.inl ⟨rfl, ⟨e, rfl⟩, _, rfl, finishSe_plain _, ?_⟩)
      simp only [finishSe, recordTaskMetrics]
      split <;> simp
    | ok u =>
      obtain ⟨mid, he, hplain, hmem⟩ := createContainer_effects cfg env t now task.submissionId
      exact .inr (.inr ⟨rfl, rfl, mid, by rw [he], hplain, hmem⟩)

/-! ## Giving back -/

theorem followed_of_not_mem {e x : Effect} {es : List Effect} (h : e ∉ es) : Followed e x es := by
  induction es with
  | nil => trivial
  | cons y es ih =>
    rw [List.mem_cons, not_or] at h
    exact ⟨fun he => absurd he.symm h.1, ih h.2⟩

/-- What comes before the first `e` does not matter. -/
theorem followed_append {e x : Effect} {pre es : List Effect} (hpre : e ∉ pre) :
    Followed e x (pre ++ es) ↔ Followed e x es := by
  induction pre with
  | nil => rfl
  | cons y pre ih =>
    rw [List.mem_cons, not_or] at hpre
    rw [List.cons_append, Followed, ih hpre.2]
    exact and_iff_right fun he => absurd he.symm hpre.1

/-- A call that occurs once is followed by `x` iff `x` comes after it. -/
theorem followed_cons {e x : Effect} {es : List Effect} (h : e ∉ es) :
    Followed e x (e :: es) ↔ x ∈ es := by
  rw [Followed, and_iff_left (followed_of_not_mem h), imp_iff_right rfl]

theorem not_mem_of_plain {e : Effect} {es : List Effect} (h : ∀ x ∈ es, x.plain)
    (he : e.plain = false) : e ∉ es := by
  intro hm
  simpa [he] using h e hm

theorem released_of_plain {es : List Effect} (h : ∀ x ∈ es, x.plain) :
    es.filterMap Effect.released = [] := by
  rw [List.filterMap_eq_nil_iff]
  intro e he
  have := h e he
  cases e <;> simp_all [Effect.plain, Effect.released]

theorem writeTaskJson_ok_iff : writeTaskJson env task = .ok () ↔
    (∀ s ∈ task.strings, Utf8.WellFormed s) ∧ env.writeFile = .ok () := by
  rw [writeTaskJson]
  split_ifs with h
  · exact (and_iff_right h).symm
  · exact iff_of_false (by rintro ⟨⟩) fun hw => h hw.1

theorem mem_prewarm {e : Effect} (h : e ∈ prewarm env) : e = .acquire ∨ ∃ id, e = .remove id := by
  rw [prewarm] at h
  split at h
  · cases h
  · next id _ =>
    rw [List.mem_cons, List.mem_singleton] at h
    exact h.imp_right fun hr => ⟨id, hr⟩
  · exact .inl (List.mem_singleton.1 h)

theorem mem_cleanupAndRelease {e : Effect} (h : e ∈ cleanupAndRelease env) :
    e = .removeTaskDir ∨ ∃ id, e = .release id := by
  rw [cleanupAndRelease, List.mem_cons] at h
  refine h.imp_right fun h => ?_
  split at h
  · cases h
  · next id _ =>
    split_ifs at h
    · cases h
    · exact ⟨id, List.mem_singleton.1 h⟩

/-- The container that was acquired is released exactly if it could be discarded. -/
theorem released_cleanupAndRelease {id : Bytes} (h : env.acquire = some (.ok (some id))) :
    (cleanupAndRelease env).filterMap Effect.released = [id] ↔ env.discard = .ok () ∧ id ≠ [] := by
  simp only [cleanupAndRelease, poolContainer, h]
  cases env.discard with
  | error e => simp [List.filterMap_cons, Effect.released]
  | ok u => by_cases hid : id = [] <;> simp [List.filterMap_cons, Effect.released, hid]

theorem released_of_not_acquired (h : ∀ id, env.acquire ≠ some (.ok (some id))) :
    (cleanupAndRelease env).filterMap Effect.released = [] := by
  have hp : poolContainer env = none := by
    rw [poolContainer]
    split
    · next hacq _ => exact absurd hacq (h _)
    · rfl
  simp [cleanupAndRelease, hp, List.filterMap_cons, Effect.released]

/-- A run that comes to step 3 gives everything back iff its pool container, if it has one, could
    be discarded. -/
theorem cleansUp_of_written {mid es : List Effect}
    (hes : es = .makeTaskDir :: (prewarm env ++ .create :: (mid ++ cleanupAndRelease env)))
    (hplain : ∀ e ∈ mid, e.plain)
    (hmid : ∀ cid, env.create = .ok cid → cid ≠ [] → .remove cid ∈ mid) :
    CleansUp env es ↔
      ∀ id, env.acquire = some (.ok (some id)) → env.discard = .ok () ∧ id ≠ [] := by
  -- What is made in one part is not made again in a later one, so one undoing after it will do.
  have hcl : ∀ e, e ≠ .removeTaskDir → (∀ id, e ≠ .release id) → e ∉ cleanupAndRelease env := by
    intro e hd hr he
    exact (mem_cleanupAndRelease he).elim hd fun ⟨id, h⟩ => hr id h
  have hpw : ∀ e, e ≠ .acquire → (∀ id, e ≠ .remove id) → e ∉ prewarm env := by
    intro e ha hr he
    exact (mem_prewarm he).elim ha fun ⟨id, h⟩ => hr id h
  have hend : ∀ e, e.plain = false → (∀ id, e ≠ .release id) →
      e ∉ mid ++ cleanupAndRelease env := by
    intro e he hr hm
    refine (List.mem_append.1 hm).elim (not_mem_of_plain hplain he) (hcl e ?_ hr)
    rintro rfl
    cases he
  have hreleased : es.filterMap Effect.released =
      (cleanupAndRelease env).filterMap Effect.released := by
    have hp : (prewarm env).filterMap Effect.released = [] := by
      rw [List.filterMap_eq_nil_iff]
      intro e he
      rcases mem_prewarm he with rfl | ⟨id, rfl⟩ <;> rfl
    simp [hes, List.filterMap_cons, hp, released_of_plain hplain, Effect.released]
  constructor
  · intro h id hid
    have hacq : acquired env es = some id := by simp [acquired, hid, hes, prewarm]
    rw [← released_cleanupAndRelease hid, ← hreleased, h.released, hacq, Option.toList_some]
  · intro h
    refine ⟨fun id hid => ?_, fun cid hc hne => ?_, ?_, ?_⟩
    · have hpool : es = [.makeTaskDir] ++
          .acquire :: .remove id :: .create :: (mid ++ cleanupAndRelease env) := by
        simp [hes, prewarm, hid]
      rw [hpool, followed_append (by simp), followed_cons]
      · exact List.mem_cons_self
      · simpa using hend .acquire rfl (by simp)
    · rw [hes, ← List.cons_append, followed_append (by simpa using hpw .create (by simp) (by simp)),
        followed_cons (hend .create rfl (by simp))]
      exact List.mem_append_left _ (hmid cid hc hne)
    · rw [hes, followed_cons]
      · simp [cleanupAndRelease]
      · simpa using ⟨hpw .makeTaskDir (by simp) (by simp), not_mem_of_plain hplain rfl,
          hcl .makeTaskDir (by simp) (by simp)⟩
    · rw [hreleased]
      by_cases hacq : ∃ id, env.acquire = some (.ok (some id))
      · obtain ⟨id, hid⟩ := hacq
        rw [(released_cleanupAndRelease hid).2 (h id hid)]
        simp [acquired, hid, hes, prewarm]
      · rw [not_exists] at hacq
        rw [released_of_not_acquired hacq, acquired]
        split
        · next id hid => exact absurd hid (hacq id)
        · rfl

/-- A run without a directory takes nothing. -/
theorem cleansUp_of_plain {es : List Effect} (h : ∀ e ∈ es, e.plain) : CleansUp env es := by
  have hnot : ∀ e, e.plain = false → e ∉ es := fun e he => not_mem_of_plain h he
  refine ⟨fun _ _ => followed_of_not_mem (hnot _ rfl),
    fun _ _ _ => followed_of_not_mem (hnot _ rfl), followed_of_not_mem (hnot _ rfl), ?_⟩
  rw [released_of_plain h, acquired]
  split
  · rw [if_neg (hnot .acquire rfl), Option.toList_none]
  · rfl

/-- A run that has claimed its row gives back what it took exactly if, once it has a directory,
    the task file can be written (all its strings are UTF-8, and the write succeeds), and a
    container that the pool gives can be removed and has an id. -/
theorem cleansUp_iff (cfg : Config) (env : TaskEnv) (t : Table) (now : Nat) (task : JudgeTask)
    (hclaimed : claimed env t task) :
    CleansUp env (runOneTask cfg env t now task).2 ↔
      (env.makeTaskDir = .ok () →
        ((∀ s ∈ task.strings, Utf8.WellFormed s) ∧ env.writeFile = .ok ()) ∧
        ∀ id, env.acquire = some (.ok (some id)) → env.discard = .ok () ∧ id ≠ []) := by
  have hrun : (runOneTask cfg env t now task).2 =
      (judgeClaimed cfg env (markRunning t env.markRunning task.submissionId).2 now task).2 := by
    simp only [runOneTask, hclaimed.1, hclaimed.2, Bool.not_true, Bool.false_eq_true, if_false]
  rw [hrun, ← writeTaskJson_ok_iff]
  rcases judgeClaimed_effects cfg env (markRunning t env.markRunning task.submissionId).2 now task
    with ⟨⟨e, hdir⟩, hplain⟩ | ⟨hdir, ⟨e, hw⟩, post, hes, hplain, hrm⟩ |
      ⟨hdir, hw, mid, hes, hplain, hmid⟩
  · refine iff_of_true (cleansUp_of_plain hplain) fun h => ?_
    rw [hdir] at h
    cases h
  · refine iff_of_false (fun h => ?_) fun h => ?_
    · have := h.taskDir
      rw [hes, followed_cons (not_mem_of_plain hplain rfl)] at this
      exact hrm this
    · have := (h hdir).1
      rw [hw] at this
      cases this
  · rw [cleansUp_of_written hes hplain hmid]
    exact ⟨fun h _ => ⟨hw, h⟩, fun h => (h hdir).2⟩

/-- The pool gives a container, which is discarded with the outcome `discard`. -/
def pooledEnv (discard : Except Bytes Unit) : TaskEnv :=
  { plainEnv [] with acquire := some (.ok (some (bytes "p1"))), discard := discard }

/-- The task file cannot be written. -/
def fullDisk : TaskEnv := { plainEnv [] with writeFile := .error (bytes "task.json write failed") }

/-- Every call succeeds. -/
theorem cleansUp_pooled : CleansUp (pooledEnv (.ok ()))
    (runOneTask ⟨30, 16777216⟩ (pooledEnv (.ok ())) oneRow 100 oneTask).2 := by
  refine (cleansUp_iff _ (pooledEnv (.ok ())) _ _ _ (claimed_oneRow [])).2 fun _ => ?_
  refine ⟨⟨by decide +kernel, rfl⟩, ?_⟩
  rintro _ ⟨⟩
  exact ⟨rfl, by decide⟩

/-- When the task file cannot be written, the directory stays. When the pool container cannot be
    removed, it is not released. -/
theorem not_cleansUp :
    (claimed fullDisk oneRow oneTask ∧
      ¬ CleansUp fullDisk (runOneTask ⟨30, 16777216⟩ fullDisk oneRow 100 oneTask).2) ∧
    (claimed (pooledEnv (.error (bytes "conflict"))) oneRow oneTask ∧
      ¬ CleansUp (pooledEnv (.error (bytes "conflict")))
        (runOneTask ⟨30, 16777216⟩ (pooledEnv (.error (bytes "conflict"))) oneRow 100
          oneTask).2) := by
  refine ⟨⟨claimed_oneRow [], fun h => ?_⟩, claimed_oneRow [], fun h => ?_⟩
  · have hdir : ¬ Followed .makeTaskDir .removeTaskDir
        (runOneTask ⟨30, 16777216⟩ fullDisk oneRow 100 oneTask).2 := by decide +kernel
    exact hdir h.taskDir
  · have hrel := h.released
    revert hrel
    decide +kernel

end LiteCode.JudgeScheduler
