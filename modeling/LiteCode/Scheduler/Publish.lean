import LiteCode.Scheduler.RunOneTask

/-!
# Publishing a verdict

With a notifier, `run_one_task` is to publish the row whenever one of its calls of
`mark_finished` ends it. The row that is published is built from the result of the container, not
read back from the table.

Only step 9 publishes: `finish_se` does not, so that a row that ends with an infrastructure failure
is never published. Step 9 stores the time and the memory of the result as they are, and publishes
one that is not positive as missing. These are the only ways to miss
(`publishesWritten_iff`).
-/

namespace LiteCode.JudgeScheduler

open SubmissionRepo Judge

/-- What `publish` gets of a row. -/
structure Published where
  id : Nat
  status : Bytes
  timeUsed : Option Int
  memoryUsed : Option Int
  errorMessage : Option Bytes
  deriving DecidableEq, Repr

/-- The row of a call of `publish`. -/
def Effect.published? (task : JudgeTask) : Effect → Option Published
  | .publish status time mem err => some ⟨task.submissionId, status, time, mem, err⟩
  | _ => none

/-- The rows that a run publishes, in their order. -/
def publications (task : JudgeTask) (es : List Effect) : List Published :=
  es.filterMap (Effect.published? task)

/-- The row that is to be published, when the table was `t` and is `t'`: the row as it is stored,
    if it has ended. -/
def written (t t' : Table) (id : Nat) : List Published :=
  match t.row id, t'.row id with
  | some r, some r' =>
    if !r.status.terminal && r'.status.terminal then
      [⟨id, r'.status.name, r'.timeUsed, r'.memoryUsed, r'.errorMessage⟩]
    else []
  | _, _ => []

/-- The run publishes the row once if it ends it, as it was stored, and nothing otherwise. -/
def PublishesWritten (cfg : Config) (env : TaskEnv) (t : Table) (now : Nat) (task : JudgeTask) :
    Prop :=
  publications task (runOneTask cfg env t now task).2 =
    written t (runOneTask cfg env t now task).1 task.submissionId

/-- The result of the container, if the run comes to reading its log. -/
def containerResult (env : TaskEnv) (task : JudgeTask) : Option JudgeResult :=
  match containerLog env task, env.wait with
  | some logs, .exit code => some (parseJudgeResultJson env.floatToInt logs code)
  | _, _ => none

/-- The time and the memory of a result that is stored are positive. -/
def Measured (result : JudgeResult) : Prop :=
  result.status ∈ terminalNames → 0 < result.timeUsedMs ∧ 0 < result.memoryUsedKb

variable {cfg : Config} {env : TaskEnv} {t : Table} {now id : Nat} {task : JudgeTask}

/-! ## What is written -/

/-- A row that is as before was not ended. -/
theorem written_of_row_eq {t t' : Table} (h : t'.row id = t.row id) : written t t' id = [] := by
  rw [written, h]
  cases t.row id with
  | none => rfl
  | some r => simp

/-- `mark_finished` on a row that is not done: the row that is to be published. -/
theorem written_markFinished {r : SubmissionRow} {st : Status} {time mem : Option Int}
    {err : Bytes} (ht : st.terminal) (hr : t.row id = some r) (hnot : r.status.terminal = false) :
    written t (markFinished t now (.ok ()) id st.name time mem err).2 id =
      [⟨id, st.name, time, mem, if err.isEmpty then none else some err⟩] := by
  have hopen : r.status = .pending ∨ r.status = .running := by
    by_contra hc
    rw [not_or] at hc
    rw [(Status.terminal_iff r.status).2 hc] at hnot
    cases hnot
  have h := (markFinished_spec t now id st time mem err ht).2 id
  rw [hr, Option.map_some, if_pos ⟨rfl, hopen⟩] at h
  simp [written, hr, h, hnot, ht, setFinished]

/-- `mark_finished` on a row that is done, or not there. -/
theorem written_of_done {db : Sql} {status err : Bytes} {time mem : Option Int}
    (hdone : ∀ r, t.row id = some r → r.status.terminal) :
    written t (markFinished t now db id status time mem err).2 id = [] := by
  apply written_of_row_eq
  rcases markFinished_cases t now db id status time mem err with ⟨e, he⟩ | ⟨st, ht, rfl, rfl⟩
  · rw [he]
  · rw [(markFinished_spec t now id st time mem err ht).2 id]
    cases hr : t.row id with
    | none => rfl
    | some r =>
      have := (Status.terminal_iff r.status).1 (hdone r hr)
      simp [this.1, this.2]

/-! ## What is published -/

theorem publications_append (task : JudgeTask) (es es' : List Effect) :
    publications task (es ++ es') = publications task es ++ publications task es' :=
  List.filterMap_append

/-- The calls publish nothing. -/
def Silent (es : List Effect) : Prop := ∀ task, publications task es = []

theorem silent_recordTaskMetrics (env : TaskEnv) (status : Bytes) :
    Silent (recordTaskMetrics env status) := fun task => by
  unfold recordTaskMetrics
  split <;> rfl

theorem silent_finishSe (env : TaskEnv) (t : Table) (now id : Nat) (err : Bytes) :
    Silent (finishSe env t now id err).2 := silent_recordTaskMetrics env _

/-- Step 9 publishes the result if `mark_finished` answers true. -/
theorem publications_persist (hn : env.hasNotifier = true) (task : JudgeTask)
    (result : JudgeResult) :
    publications task (persist env t now id result).2 =
      if (markFinished t now env.markFinished id result.status (some result.timeUsedMs)
          (some result.memoryUsedKb) result.errorMessage).1 = .ok true then
        [⟨task.submissionId, result.status,
          if result.timeUsedMs > 0 then some result.timeUsedMs else none,
          if result.memoryUsedKb > 0 then some result.memoryUsedKb else none,
          if result.errorMessage.isEmpty then none else some result.errorMessage⟩]
      else [] := by
  have hcheckin : publications task
      (if result.status = bytes "ac" then [Effect.tryCheckin] else []) = [] := by
    split <;> rfl
  rw [persist_effects, apply_ite (publications task), publications_append, publications_append,
    silent_recordTaskMetrics env result.status task, hcheckin, if_pos hn]
  rfl

/-! ## A claimed row -/

/-- The calls on the docker daemon, on the pool and on the file system. -/
def Effect.Outside : Effect → Prop
  | .recordMetrics _ => False
  | .tryCheckin => False
  | .publish _ _ _ _ => False
  | _ => True

/-- `p` does what `q` does, with more calls of that kind before and after. -/
def Around (p q : Table × List Effect) : Prop :=
  ∃ pre post, p = (q.1, pre ++ q.2 ++ post) ∧ ∀ e ∈ pre ++ post, e.Outside

theorem Around.refl (p : Table × List Effect) : Around p p := ⟨[], [], by simp, by simp⟩

theorem Around.wrap {p q : Table × List Effect} (h : Around p q) {pre post : List Effect}
    (hpre : ∀ e ∈ pre, e.Outside) (hpost : ∀ e ∈ post, e.Outside) :
    Around (p.1, pre ++ p.2 ++ post) q := by
  obtain ⟨pre', post', rfl, h⟩ := h
  refine ⟨pre ++ pre', post' ++ post, by simp, fun e he => ?_⟩
  simp only [List.mem_append] at he h
  rcases he with (he | he) | he | he
  · exact hpre e he
  · exact h e (.inl he)
  · exact h e (.inr he)
  · exact hpost e he

theorem Around.cons {p q : Table × List Effect} {e : Effect} (h : Around p q) (he : e.Outside) :
    Around (p.1, e :: p.2) q := by
  have hpre : ∀ x ∈ [e], x.Outside := by simpa using he
  simpa using h.wrap hpre (List.forall_mem_nil _)

theorem outside_tryRemove (cid : Bytes) : ∀ e ∈ tryRemove cid, e.Outside := by
  intro e he
  rw [tryRemove] at he
  split_ifs at he
  · cases he
  · rw [List.mem_singleton.1 he]
    trivial

theorem outside_tryKillAndRemove (cid : Bytes) : ∀ e ∈ tryKillAndRemove cid, e.Outside := by
  intro e he
  rw [tryKillAndRemove] at he
  split_ifs at he
  · cases he
  · rcases List.mem_cons.1 he with rfl | he
    · trivial
    · exact outside_tryRemove cid e he

theorem outside_prewarm (env : TaskEnv) : ∀ e ∈ prewarm env, e.Outside := by
  intro e he
  rw [prewarm] at he
  split at he
  · cases he
  · simp only [List.mem_cons, List.not_mem_nil, or_false] at he
    rcases he with rfl | rfl <;> trivial
  · rw [List.mem_singleton.1 he]
    trivial

theorem outside_cleanupAndRelease (env : TaskEnv) : ∀ e ∈ cleanupAndRelease env, e.Outside := by
  intro e he
  rcases List.mem_cons.1 he with rfl | he
  · trivial
  · split at he
    · cases he
    · split_ifs at he
      · cases he
      · rw [List.mem_singleton.1 he]
        trivial

/-- The result of a container that was created. -/
def runResult (env : TaskEnv) : Option JudgeResult :=
  match env.start, env.wait with
  | .ok (), .exit code =>
    some (parseJudgeResultJson env.floatToInt (env.logs.toOption.getD []) code)
  | _, _ => none

/-- The end of a run, given the result of the container: `finish_se` or step 9. -/
def Ends (env : TaskEnv) (t : Table) (now id : Nat) :
    Option JudgeResult → Table × List Effect → Prop
  | none, p => ∃ err, p = finishSe env t now id err
  | some result, p => p = persist env t now id result

theorem runContainer_around (cfg : Config) (env : TaskEnv) (t : Table) (now id : Nat)
    (cid : Bytes) :
    ∃ q, Ends env t now id (runResult env) q ∧ Around (runContainer cfg env t now id cid) q := by
  have hclean := outside_cleanupAndRelease env
  have hkill : ∀ ms, ∀ e ∈ [.start cid, .wait cid ms] ++ tryKillAndRemove cid, e.Outside := by
    intro ms
    simpa [Effect.Outside] using outside_tryKillAndRemove cid
  unfold runContainer runResult
  cases env.start with
  | error e =>
    have hpre : ∀ e ∈ .start cid :: tryRemove cid, e.Outside :=
      List.forall_mem_cons.2 ⟨trivial, outside_tryRemove cid⟩
    exact ⟨_, ⟨_, rfl⟩, (Around.refl (finishSe env t now id _)).wrap hpre hclean⟩
  | ok u =>
    cases env.wait with
    | timeout => exact ⟨_, ⟨_, rfl⟩, (Around.refl (finishSe env t now id _)).wrap (hkill _) hclean⟩
    | failed e => exact ⟨_, ⟨_, rfl⟩, (Around.refl (finishSe env t now id _)).wrap (hkill _) hclean⟩
    | exit code =>
      have hpre : ∀ ms, ∀ e ∈ [.start cid, .wait cid ms] ++ .logs cid :: tryRemove cid,
          e.Outside := by
        intro ms
        simpa [Effect.Outside] using outside_tryRemove cid
      exact ⟨_, rfl, (Around.refl (persist env t now id _)).wrap (hpre _) hclean⟩

/-- A claimed task ends with `finish_se` or with step 9, by whether its container has a result. -/
theorem judgeClaimed_around (cfg : Config) (env : TaskEnv) (t : Table) (now : Nat)
    (task : JudgeTask) :
    ∃ q, Ends env t now task.submissionId (containerResult env task) q ∧
      Around (judgeClaimed cfg env t now task) q := by
  have hclean := outside_cleanupAndRelease env
  have hpre := outside_prewarm env
  cases hdir : env.makeTaskDir with
  | error e =>
    rw [judgeClaimed, containerResult, containerLog, hdir]
    exact ⟨_, ⟨_, rfl⟩, .refl _⟩
  | ok u =>
  cases hw : writeTaskJson env task with
  | error e =>
    rw [judgeClaimed, containerResult, containerLog, hdir, hw]
    exact ⟨_, ⟨_, rfl⟩, (Around.refl (finishSe env t now _ _)).cons (e := .makeTaskDir) trivial⟩
  | ok u =>
  -- the directory is there: what comes after it
  suffices h : ∃ q, Ends env t now task.submissionId (containerResult env task) q ∧
      Around (createContainer cfg env t now task.submissionId) q by
    obtain ⟨q, hq, h⟩ := h
    rw [judgeClaimed, hdir, hw]
    exact ⟨q, hq, h.cons (e := .makeTaskDir) trivial⟩
  unfold createContainer
  -- `finish_se` after a `create` that failed
  have hse : ∀ err, Around ((finishSe env t now task.submissionId err).1, prewarm env ++
      .create :: (finishSe env t now task.submissionId err).2 ++ cleanupAndRelease env)
      (finishSe env t now task.submissionId err) := fun err =>
    ((Around.refl (finishSe env t now _ err)).cons (e := .create) trivial).wrap hpre hclean
  cases hc : env.create with
  | error e =>
    rw [containerResult, containerLog, hdir, hw, hc]
    exact ⟨_, ⟨_, rfl⟩, hse _⟩
  | ok cid =>
    dsimp only
    split_ifs with hcid
    · rw [containerResult, containerLog, hdir, hw, hc]
      simp only [hcid, if_true]
      exact ⟨_, ⟨_, rfl⟩, hse _⟩
    · have hres : containerResult env task = runResult env := by
        simp only [containerResult, containerLog, runResult, hdir, hw, hc, hcid]
        cases env.start <;> cases env.wait <;> rfl
      obtain ⟨q, hq, h⟩ := runContainer_around cfg env t now task.submissionId cid
      have hcons := (h.cons (e := .create) trivial).wrap hpre (List.forall_mem_nil _)
      rw [List.append_nil] at hcons
      rw [hres]
      exact ⟨q, hq, hcons⟩

/-- Those calls publish nothing. -/
theorem publications_outside (task : JudgeTask) {es : List Effect} (h : ∀ e ∈ es, e.Outside) :
    publications task es = [] := by
  refine List.filterMap_eq_nil_iff.2 fun e he => ?_
  have := h e he
  cases e <;> first | rfl | cases this

theorem Around.publications {p q : Table × List Effect} (h : Around p q) (task : JudgeTask) :
    publications task p.2 = JudgeScheduler.publications task q.2 := by
  obtain ⟨pre, post, rfl, h⟩ := h
  have hpre := publications_outside task fun e he => h e (List.mem_append_left post he)
  have hpost := publications_outside task fun e he => h e (List.mem_append_right pre he)
  rw [publications_append, publications_append, hpre, hpost, List.append_nil, List.nil_append]

/-- The end of a run, given the result of the container: `finish_se` or step 9, among calls that
    publish nothing. -/
def EndsWith (env : TaskEnv) (t : Table) (now : Nat) (task : JudgeTask) :
    Option JudgeResult → Table × List Effect → Prop
  | none, p => (∃ err, p.1 = (finishSe env t now task.submissionId err).1) ∧ Silent p.2
  | some result, p => p.1 = (persist env t now task.submissionId result).1 ∧
      publications task p.2 = publications task (persist env t now task.submissionId result).2

theorem endsWith_judgeClaimed (cfg : Config) (env : TaskEnv) (t : Table) (now : Nat)
    (task : JudgeTask) :
    EndsWith env t now task (containerResult env task) (judgeClaimed cfg env t now task) := by
  obtain ⟨q, hq, h⟩ := judgeClaimed_around cfg env t now task
  have htable : (judgeClaimed cfg env t now task).1 = q.1 := by
    obtain ⟨pre, post, he, -⟩ := h
    rw [he]
  cases hr : containerResult env task with
  | none =>
    rw [hr] at hq
    obtain ⟨err, rfl⟩ := hq
    refine ⟨⟨err, htable⟩, fun task' => ?_⟩
    rw [h.publications task']
    exact silent_finishSe env t now _ err task'
  | some result =>
    rw [hr] at hq
    obtain rfl := hq
    exact ⟨htable, h.publications task⟩

/-! ## The whole run -/

/-- A claimed row was pending. -/
theorem pending_of_claimed (h : claimed env t task) :
    ∃ r, t.row task.submissionId = some r ∧ r.status = .pending := by
  obtain ⟨-, h⟩ := h
  cases hdb : env.markRunning with
  | error e =>
    rw [hdb] at h
    cases h
  | ok u =>
    rw [hdb, (markRunning_spec t task.submissionId).1] at h
    simpa using h

/-- A run that does not claim the row, with a client, does nothing. -/
theorem runOneTask_of_not_claimed (cfg : Config) (now : Nat) (hcl : env.hasClient = true)
    (h : ¬ claimed env t task) :
    (runOneTask cfg env t now task).1.row task.submissionId = t.row task.submissionId ∧
      (runOneTask cfg env t now task).2 = [] := by
  have hnot : (markRunning t env.markRunning task.submissionId).1 ≠ .ok true := fun hok =>
    h ⟨hcl, hok⟩
  have hrow : (markRunning t env.markRunning task.submissionId).2.row task.submissionId =
      t.row task.submissionId := by
    cases hdb : env.markRunning with
    | error e => rfl
    | ok u =>
      rw [hdb, (markRunning_spec t task.submissionId).1] at hnot
      rw [(markRunning_spec t task.submissionId).2]
      cases hr : t.row task.submissionId with
      | none => rfl
      | some r =>
        have hp : r.status ≠ .pending := by simpa [hr] using hnot
        simp [hp]
  simp only [runOneTask, hcl, Bool.not_true, Bool.false_eq_true, if_false]
  exact ⟨hrow, trivial⟩

/-- What is to be published depends on the row before only by whether it was done. -/
theorem written_congr {t₀ : Table} {r r₀ : SubmissionRow} (hr : t.row id = some r)
    (hr₀ : t₀.row id = some r₀) (h : r.status.terminal = r₀.status.terminal) (t' : Table) :
    written t t' id = written t₀ t' id := by
  cases h' : t'.row id with
  | none => simp [written, hr, hr₀, h']
  | some r' => simp [written, hr, hr₀, h', h]

/-- `finish_se` ends no row iff its statement fails or the row is done already. -/
theorem written_finishSe_iff {err : Bytes} :
    written t (finishSe env t now id err).1 id = [] ↔
      (env.markFinished = .ok () → ∀ r, t.row id = some r → r.status.terminal) := by
  constructor
  · intro h hdb r hr
    by_contra hnot
    rw [Bool.not_eq_true] at hnot
    rw [finishSe, hdb] at h
    have hse : Status.se.terminal := by decide
    exact absurd ((written_markFinished hse hr hnot).symm.trans h) (by simp)
  · intro h
    cases hdb : env.markFinished with
    | ok u => exact written_of_done (h hdb)
    | error e =>
      apply written_of_row_eq
      rcases markFinished_cases t now (.error e) id (bytes "se") none none err with
        ⟨e', he⟩ | ⟨st, -, -, hok⟩
      · rw [finishSe, hdb, he]
      · cases hok

/-- Step 9 on a row that is not done publishes what is written iff its statement fails, or the
    result is measured. -/
theorem publications_persist_iff (hn : env.hasNotifier = true) {r : SubmissionRow}
    (hr : t.row task.submissionId = some r) (hnot : r.status.terminal = false)
    (result : JudgeResult) :
    publications task (persist env t now task.submissionId result).2 =
        written t (persist env t now task.submissionId result).1 task.submissionId ↔
      (env.markFinished = .ok () → Measured result) := by
  rw [publications_persist hn, persist_table]
  rcases markFinished_cases t now env.markFinished task.submissionId result.status
    (some result.timeUsedMs) (some result.memoryUsedKb) result.errorMessage with
    ⟨e, he⟩ | ⟨st, ht, hst, hdb⟩
  · -- refused or failed: nothing is written, nothing is published
    rw [he, written_of_row_eq rfl]
    refine iff_of_true (by simp) fun hdb hmem => ?_
    obtain ⟨st, ht, hst⟩ := (mem_terminalNames_iff result.status).1 hmem
    have := (markFinished_spec t now task.submissionId st (some result.timeUsedMs)
      (some result.memoryUsedKb) result.errorMessage ht).1
    rw [hst, ← hdb, he] at this
    cases this
  · have hopen : ∃ r, t.row task.submissionId = some r ∧
        (r.status = .pending ∨ r.status = .running) := by
      refine ⟨r, hr, ?_⟩
      by_contra hc
      rw [not_or] at hc
      rw [(Status.terminal_iff r.status).2 hc] at hnot
      cases hnot
    have hmem : result.status ∈ terminalNames := (mem_terminalNames_iff _).2 ⟨st, ht, hst⟩
    rw [← hst, hdb, (markFinished_spec t now task.submissionId st _ _ _ ht).1,
      written_markFinished ht hr hnot]
    simp [hopen, Measured, hmem]

/-- With a notifier, a run publishes the row exactly if it ends it, once and as it was stored, if
    and only if its call of `mark_finished` fails, or: without a docker client the row is done
    already, and a claimed row gets a result from its container, measured unless it is refused. -/
theorem publishesWritten_iff (cfg : Config) (env : TaskEnv) (t : Table) (now : Nat)
    (task : JudgeTask) (hn : env.hasNotifier = true) :
    PublishesWritten cfg env t now task ↔
      (env.markFinished = .ok () →
        (env.hasClient = false → ∀ r, t.row task.submissionId = some r → r.status.terminal) ∧
        (claimed env t task → ∃ result, containerResult env task = some result ∧
          Measured result)) := by
  rw [PublishesWritten]
  cases hcl : env.hasClient with
  | false =>
    have hnot : ¬ claimed env t task := fun h => by simp [h.1] at hcl
    have hrun : runOneTask cfg env t now task =
        finishSe env t now task.submissionId (bytes "no docker client configured") := by
      simp [runOneTask, hcl]
    rw [hrun, silent_finishSe env t now _ _ task, eq_comm, written_finishSe_iff]
    simp [hnot]
  | true =>
    by_cases hclaimed : claimed env t task
    · -- the row is running now, and was pending
      have hrun : runOneTask cfg env t now task = judgeClaimed cfg env
          (markRunning t env.markRunning task.submissionId).2 now task := by
        simp only [runOneTask, hcl, hclaimed.2, Bool.not_true, Bool.false_eq_true, if_false]
      obtain ⟨r₀, hr₀, hrun₀⟩ := row_of_claimed hclaimed
      have hnot₀ : r₀.status.terminal = false := by simp [hrun₀]
      obtain ⟨r, hr, hpend⟩ := pending_of_claimed hclaimed
      have hends := endsWith_judgeClaimed cfg env
        (markRunning t env.markRunning task.submissionId).2 now task
      rw [hrun, written_congr hr hr₀ (by simp [hpend, hrun₀])]
      cases hres : containerResult env task with
      | none =>
        rw [hres] at hends
        obtain ⟨⟨err, herr⟩, hsilent⟩ := hends
        rw [hsilent task, herr, eq_comm, written_finishSe_iff]
        simp [hr₀, hnot₀, hclaimed]
      | some result =>
        rw [hres] at hends
        rw [hends.1, hends.2, publications_persist_iff hn hr₀ hnot₀]
        simp [hclaimed]
    · have hrow := runOneTask_of_not_claimed cfg now hcl hclaimed
      rw [written_of_row_eq hrow.1, hrow.2]
      simp [hclaimed, publications]

/-- Every call succeeds, there is a notifier, and the container prints `logs`. -/
def notifiedEnv (logs : Bytes) : TaskEnv := { plainEnv logs with hasNotifier := true }

/-- A log with a time and a memory. -/
def measuredLog : Bytes :=
  bytes "\x7b\"status\":\"ac\",\"time_used_ms\":12,\"memory_used_kb\":300\x7d\n"

/-- A measured verdict is published as it is stored. -/
theorem publishesWritten_measured :
    PublishesWritten ⟨30, 16777216⟩ (notifiedEnv measuredLog) oneRow 100 oneTask := by
  have hres : ∃ result, containerResult (notifiedEnv measuredLog) oneTask = some result ∧
      0 < result.timeUsedMs ∧ 0 < result.memoryUsedKb :=
    ⟨parseJudgeResultJson (fun _ => 0) measuredLog 0, rfl, by decide +kernel, by decide +kernel⟩
  obtain ⟨result, hres, hpos⟩ := hres
  exact (publishesWritten_iff _ _ _ _ _ rfl).2 fun _ =>
    ⟨fun h => absurd h (by decide), fun _ => ⟨result, hres, fun _ => hpos⟩⟩

/-- A container that cannot be created: the row ends with `se`, and nothing is published. -/
theorem se_not_published :
    claimed { notifiedEnv [] with create := .error [] } oneRow oneTask ∧
    Terminal (runOneTask ⟨30, 16777216⟩ { notifiedEnv [] with create := .error [] } oneRow 100
      oneTask).1 1 ∧
    publications oneTask (runOneTask ⟨30, 16777216⟩ { notifiedEnv [] with create := .error [] }
      oneRow 100 oneTask).2 = [] ∧
    ¬ PublishesWritten ⟨30, 16777216⟩ { notifiedEnv [] with create := .error [] } oneRow 100
      oneTask := by
  refine ⟨⟨rfl, by decide +kernel⟩, ⟨_, rfl, by decide +kernel⟩, by decide +kernel, ?_⟩
  unfold PublishesWritten
  decide +kernel

end LiteCode.JudgeScheduler
