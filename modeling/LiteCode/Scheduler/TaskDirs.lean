import LiteCode.Lib.ListIndex
import LiteCode.Lib.System
import LiteCode.Scheduler.TaskMount

/-!
# Task directories

`run_one_task` of `src/judge/judge_scheduler.h` and `SampleRunner::run` of
`src/judge/sample_runner.h` share one parent directory. Each makes a directory in it, writes
`task.json` there, lets `judge.sh` read it and removes the directory. The name is made of an id
and the time in microseconds; the id is that of the submission, and `0` for every sample run.
`create_directories` does not say that the directory was already there.

* `dir_eq_iff`: two names are equal exactly if the ids and the times are;
* `FreshReading`: no directory is made with the id and the time of one that is in use;
* `isolated`: under it the executions that are running have directories of their own, and every
  `judge.sh` reads the text of its own task.
-/

namespace LiteCode.JudgeScheduler

open Judge

/-- Where an execution is. -/
inductive RunPc
  /-- `make_task_dir` has returned. -/
  | made
  | written
  /-- `judge.sh` has read the file, if there was one. -/
  | judged (text : Option Bytes)
  /-- The file could not be written, and the directory is to be removed. -/
  | failed
  | ended
  deriving DecidableEq, Repr

/-- An execution of `run_one_task` or of `SampleRunner::run` whose directory was made at the time
    `us`. -/
structure TaskRun where
  site : Site
  task : JudgeTask
  us : Nat
  pc : RunPc
  deriving DecidableEq, Repr

/-- The execution still uses its directory. -/
def TaskRun.alive (r : TaskRun) : Bool := r.pc != .ended

/-- The id in the name of its directory. -/
def TaskRun.id (r : TaskRun) : Nat := dirId r.site r.task

/-- The name of its directory. -/
def TaskRun.dir (r : TaskRun) : Bytes := taskDirName r.id r.us

/-- The text of its task file. -/
def TaskRun.text (dump : TaskFile → Bytes) (cfg : MountConfig) (r : TaskRun) : Bytes :=
  dump (taskFile cfg.toConfig (sized r.site cfg r.task))

/-- The directories in the parent, with the text of `task.json` if it is there, and the
    executions. -/
structure DirState where
  dirs : Bytes → Option (Option Bytes)
  runs : List TaskRun

/-- The steps of the execution `p`; a new one makes its directory at the time `us`. -/
inductive DirAction
  | makeTaskDir (site : Site) (task : JudgeTask) (us : Nat)
  /-- The file is written, or `fault` is what an attempt that failed left of it. -/
  | writeTaskJson (p : Nat) (fault : Option (Option Bytes))
  | read (p : Nat)
  /-- `remove_all`, which may fail. -/
  | removeAll (p : Nat) (ok : Bool)
  deriving DecidableEq

/-- The execution `p` goes on at `pc`. -/
def DirState.goto (s : DirState) (p : Nat) (r : TaskRun) (pc : RunPc) : DirState :=
  { s with runs := s.runs.set p { r with pc } }

/-- A directory is made, changed or removed. -/
def DirState.put (s : DirState) (dir : Bytes) (x : Option (Option Bytes)) : DirState :=
  { s with dirs := fun d => if d = dir then x else s.dirs d }

/-- The handler of an exception of `write_task_json`: `run_one_task` leaves the directory behind,
    the sample runner removes it. -/
def Site.caught : Site → RunPc
  | .runOneTask => .ended
  | .sampleRunner => .failed

/-- The file is written, if the directory is there. -/
def DirState.writeTaskJson (dump : TaskFile → Bytes) (cfg : MountConfig) (s : DirState) (p : Nat)
    (r : TaskRun) (fault : Option (Option Bytes)) : DirState :=
  match s.dirs r.dir, fault with
  | none, _ => s.goto p r r.site.caught
  | some _, some left => (s.put r.dir (some left)).goto p r r.site.caught
  | some _, none => (s.put r.dir (some (some (r.text dump cfg)))).goto p r .written

/-- One step. -/
def dirStep (dump : TaskFile → Bytes) (cfg : MountConfig) (s : DirState) :
    DirAction → Option DirState
  | .makeTaskDir site task us =>
    let r : TaskRun := ⟨site, task, us, .made⟩
    -- a directory that is there stays as it is
    let s := s.put r.dir (some (s.dirs r.dir).join)
    some { s with runs := s.runs ++ [r] }
  | .writeTaskJson p fault => s.runs[p]?.bind fun r =>
    if r.pc = .made then some (s.writeTaskJson dump cfg p r fault) else none
  | .read p => s.runs[p]?.bind fun r =>
    if r.pc = .written then some (s.goto p r (.judged (s.dirs r.dir).join)) else none
  | .removeAll p ok => s.runs[p]?.bind fun r =>
    if r.pc = .made ∨ r.pc = .ended then none
    else if ok then some ((s.put r.dir none).goto p r .ended)
    else some (s.goto p r .ended)

/-- The executions, from any state of the parent directory on. -/
def dirSystem (dump : TaskFile → Bytes) (cfg : MountConfig) : System DirState DirAction where
  init s := s.runs = []
  step := dirStep dump cfg

/-- No execution in progress uses the directory that is made: its id or its time is another one. -/
def FreshReading (s : DirState) : DirAction → Prop
  | .makeTaskDir site task us =>
    ∀ r ∈ s.runs, r.alive = true → r.id ≠ dirId site task ∨ r.us ≠ us
  | _ => True

instance (s : DirState) : (a : DirAction) → Decidable (FreshReading s a)
  | .makeTaskDir site task us => inferInstanceAs (Decidable (∀ r ∈ s.runs,
      r.alive = true → r.id ≠ dirId site task ∨ r.us ≠ us))
  | .writeTaskJson _ _ => isTrue trivial
  | .read _ => isTrue trivial
  | .removeAll _ _ => isTrue trivial

/-- The executions in progress have directories of their own, a file that was written holds the
    text of its execution, and so did every file that was read. -/
structure Isolated (dump : TaskFile → Bytes) (cfg : MountConfig) (s : DirState) : Prop where
  apart : ∀ (p q : Nat) (r x : TaskRun), s.runs[p]? = some r → s.runs[q]? = some x →
    r.alive = true → x.alive = true → p ≠ q → r.dir ≠ x.dir
  own : ∀ r ∈ s.runs, r.pc = .written ∨ (∃ text, r.pc = .judged text) →
    s.dirs r.dir = some (some (r.text dump cfg))
  read : ∀ r ∈ s.runs, ∀ text, r.pc = .judged text → text = some (r.text dump cfg)

variable {dump : TaskFile → Bytes} {cfg : MountConfig} {s s' : DirState} {a : DirAction}
  {r x : TaskRun} {p q : Nat}

theorem dash_not_mem_decimal (n : Nat) : 0x2D ∉ decimal n := by
  intro h
  have := isDigit_of_mem_decimal 0x2D h
  revert this
  decide

/-- The name of a directory gives the id and the time. -/
theorem dir_eq_iff : r.dir = x.dir ↔ r.id = x.id ∧ r.us = x.us := by
  have hdash : ∀ n, bytes "-" ++ decimal n = 0x2D :: decimal n := fun _ => rfl
  rw [TaskRun.dir, TaskRun.dir, taskDirName, taskDirName, List.append_assoc, List.append_assoc,
    List.append_assoc, List.append_assoc, List.append_right_inj, hdash, hdash,
    List.append_cons_inj_of_notMem (dash_not_mem_decimal _) (dash_not_mem_decimal _),
    decimal_injective.eq_iff, decimal_injective.eq_iff]
  simp

theorem put_self (s : DirState) (dir : Bytes) : s.put dir (s.dirs dir) = s := by
  have hsame : (fun d => if d = dir then s.dirs dir else s.dirs d) = s.dirs := by
    funext d
    split_ifs with hd
    · rw [hd]
    · rfl
  rw [DirState.put, hsame]

/-- An execution that changes its own directory only, and goes on. -/
theorem Isolated.put (h : Isolated dump cfg s) (hp : s.runs[p]? = some r) (hr : r.alive = true)
    {v : Option (Option Bytes)} {pc : RunPc}
    (hown : pc = .written ∨ (∃ text, pc = .judged text) → v = some (some (r.text dump cfg)))
    (hread : ∀ text, pc = .judged text → text = some (r.text dump cfg)) :
    Isolated dump cfg ((s.put r.dir v).goto p r pc) where
  apart i j x y hi hj hx hy hne := by
    -- the directory of `r` stays its own
    have hold : ∀ (k : Nat) (z : TaskRun), (s.runs.set p { r with pc })[k]? = some z →
        ∃ w : TaskRun, s.runs[k]? = some w ∧ w.dir = z.dir ∧ (z.alive = true → w.alive = true) := by
      intro k z hz
      rcases getElem?_set_cases hz with ⟨rfl, rfl⟩ | ⟨-, hz⟩
      · exact ⟨r, hp, rfl, fun _ => hr⟩
      · exact ⟨z, hz, rfl, id⟩
    obtain ⟨x', hi, hxd, hxa⟩ := hold i x hi
    obtain ⟨y', hj, hyd, hya⟩ := hold j y hj
    rw [← hxd, ← hyd]
    exact h.apart i j x' y' hi hj (hxa hx) (hya hy) hne
  own x hx hpc := by
    obtain ⟨i, hi⟩ := List.mem_iff_getElem?.1 hx
    change (if x.dir = r.dir then v else s.dirs x.dir) = _
    rcases getElem?_set_cases hi with ⟨rfl, rfl⟩ | ⟨hne, hi⟩
    · exact (if_pos rfl).trans (hown hpc)
    · have hx' : x.alive = true := by
        rcases hpc with hpc | ⟨text, hpc⟩ <;> simp [TaskRun.alive, hpc]
      rw [if_neg (h.apart i p x r hi hp hx' hr hne)]
      exact h.own x (List.mem_of_getElem? hi) hpc
  read x hx text hpc := by
    rcases List.mem_or_eq_of_mem_set hx with hx | rfl
    · exact h.read x hx text hpc
    · exact hread text hpc

/-- An execution that goes on and leaves the directories as they are. -/
theorem Isolated.goto (h : Isolated dump cfg s) (hp : s.runs[p]? = some r) (hr : r.alive = true)
    {pc : RunPc}
    (hown : pc = .written ∨ (∃ text, pc = .judged text) →
      s.dirs r.dir = some (some (r.text dump cfg)))
    (hread : ∀ text, pc = .judged text → text = some (r.text dump cfg)) :
    Isolated dump cfg (s.goto p r pc) := by
  have := h.put hp hr hown hread
  rwa [put_self] at this

theorem Isolated.makeTaskDir (h : Isolated dump cfg s) {site : Site} {task : JudgeTask} {us : Nat}
    (hg : FreshReading s (.makeTaskDir site task us))
    (hs : dirStep dump cfg s (.makeTaskDir site task us) = some s') : Isolated dump cfg s' := by
  cases hs
  have hnew : ∀ r ∈ s.runs, r.alive = true → r.dir ≠ TaskRun.dir ⟨site, task, us, .made⟩ := by
    intro r hr ha he
    obtain ⟨hid, hus⟩ := dir_eq_iff.1 he
    exact (hg r hr ha).elim (fun h => h hid) fun h => h hus
  refine ⟨fun i j x y hi hj hx hy hne => ?_, fun x hx hpc => ?_, fun x hx text hpc => ?_⟩
  · rcases getElem?_concat_cases hi with hi | ⟨rfl, rfl⟩ <;>
      rcases getElem?_concat_cases hj with hj | ⟨rfl, rfl⟩
    · exact h.apart i j x y hi hj hx hy hne
    · exact hnew x (List.mem_of_getElem? hi) hx
    · exact (hnew y (List.mem_of_getElem? hj) hy).symm
    · exact absurd rfl hne
  · rcases List.mem_append.1 hx with hx | hx
    · have ha : x.alive = true := by
        rcases hpc with hpc | ⟨text, hpc⟩ <;> simp [TaskRun.alive, hpc]
      exact (if_neg (hnew x hx ha)).trans (h.own x hx hpc)
    · rw [List.mem_singleton.1 hx] at hpc
      simp at hpc
  · rcases List.mem_append.1 hx with hx | hx
    · exact h.read x hx text hpc
    · rw [List.mem_singleton.1 hx] at hpc
      cases hpc

theorem Isolated.writeTaskJson (h : Isolated dump cfg s) (hp : s.runs[p]? = some r)
    (hpc : r.pc = .made) (fault : Option (Option Bytes)) :
    Isolated dump cfg (s.writeTaskJson dump cfg p r fault) := by
  have hr : r.alive = true := by simp [TaskRun.alive, hpc]
  have hcaught : ∀ v, Isolated dump cfg ((s.put r.dir v).goto p r r.site.caught) := by
    intro v
    cases r.site
    all_goals exact h.put hp hr (by simp [Site.caught]) (by simp [Site.caught])
  cases hd : s.dirs r.dir with
  | none =>
    have := hcaught (s.dirs r.dir)
    rw [put_self] at this
    simpa only [DirState.writeTaskJson, hd] using this
  | some file =>
    simp only [DirState.writeTaskJson, hd]
    cases fault with
    | none => exact h.put hp hr (fun _ => rfl) (by simp)
    | some left => exact hcaught _

theorem Isolated.step (h : Isolated dump cfg s) (hg : FreshReading s a)
    (hs : dirStep dump cfg s a = some s') : Isolated dump cfg s' := by
  cases a with
  | makeTaskDir site task us => exact h.makeTaskDir hg hs
  | writeTaskJson p fault =>
    obtain ⟨r, hp, hs⟩ := Option.bind_eq_some_iff.1 hs
    split_ifs at hs with hpc
    cases hs
    exact h.writeTaskJson hp hpc fault
  | read p =>
    obtain ⟨r, hp, hs⟩ := Option.bind_eq_some_iff.1 hs
    split_ifs at hs with hpc
    cases hs
    -- the file is its own
    have hown := h.own r (List.mem_of_getElem? hp) (.inl hpc)
    refine h.goto hp (by simp [TaskRun.alive, hpc]) (fun _ => hown) fun text he => ?_
    cases he
    rw [hown]
    rfl
  | removeAll p ok =>
    obtain ⟨r, hp, hs⟩ := Option.bind_eq_some_iff.1 hs
    have hend : ∀ v : Option (Option Bytes), r.pc ≠ .ended →
        Isolated dump cfg ((s.put r.dir v).goto p r .ended) := fun v hne =>
      h.put hp (by simpa [TaskRun.alive] using hne) (by simp) (by simp)
    split_ifs at hs with hpc hok
    · cases hs
      exact hend none fun he => hpc (.inr he)
    · cases hs
      have := hend (s.dirs r.dir) fun he => hpc (.inr he)
      rwa [put_self] at this

/-- In every run in which no execution makes its directory with the id and the time of one that is
    in progress: the executions in progress have directories of their own, and each of them, from
    the writing of its file on, finds there and reads the text of its own task. -/
theorem isolated (dump : TaskFile → Bytes) (cfg : MountConfig) (s : DirState)
    (h : (dirSystem dump cfg).Reach FreshReading s) : Isolated dump cfg s := by
  refine h.invariant (fun s hs => ?_) fun _ _ _ ht hg hs => ht.step hg hs
  have hs : s.runs = [] := hs
  exact ⟨by simp [hs], by simp [hs], by simp [hs]⟩

/-- A parent directory with nothing in it. -/
def emptyParent : DirState := ⟨fun _ => none, []⟩

/-- A run of the samples and the judging of a submission at the same time. -/
theorem isolated_pair : ∃ s : DirState, s.runs.length = 2 ∧
    Isolated plainDump composeConfig s := by
  obtain ⟨s, hl, hs⟩ := System.exists_exec_of_runGuarded
    (S := dirSystem plainDump composeConfig) (G := FreshReading) (s := emptyParent)
    (l := [.makeTaskDir .sampleRunner oneTask 5, .makeTaskDir .runOneTask oneTask 5,
      .writeTaskJson 0 none, .writeTaskJson 1 none, .read 0, .removeAll 0 true, .read 1])
    (p := fun s => s.runs.length = 2) (by decide +kernel)
  exact ⟨s, of_decide_eq_true hs, isolated _ _ s ⟨emptyParent, _, rfl, hl⟩⟩

/-- Two users run the samples of their programs in the same microsecond: the first one gets the
    verdict for the program of the second one. -/
theorem not_isolated : ∃ s, (dirSystem plainDump composeConfig).Reach System.Always s ∧
    ¬Isolated plainDump composeConfig s := by
  obtain ⟨s, hl, hs⟩ := System.exists_exec_of_run
    (S := dirSystem plainDump composeConfig) (s := emptyParent)
    (l := [.makeTaskDir .sampleRunner oneTask 5,
      .makeTaskDir .sampleRunner { oneTask with code := bytes "y" } 5,
      .writeTaskJson 0 none, .writeTaskJson 1 none, .read 0])
    (p := fun s => s.runs[0]? = some ⟨.sampleRunner, oneTask, 5, .judged (some
      (TaskRun.text plainDump composeConfig
        ⟨.sampleRunner, { oneTask with code := bytes "y" }, 5, .made⟩))⟩) (by decide +kernel)
  refine ⟨s, ⟨emptyParent, _, rfl, hl⟩, fun hi => ?_⟩
  have := hi.read _ (List.mem_of_getElem? (of_decide_eq_true hs)) _ rfl
  revert this
  decide +kernel

end LiteCode.JudgeScheduler
