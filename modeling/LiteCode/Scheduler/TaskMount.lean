import Mathlib.Data.Option.Basic
import LiteCode.Lib.FileTree
import LiteCode.Lib.JsonText
import LiteCode.Scheduler.RunOneTask

/-!
# The task file and the container

`run_one_task` of `src/judge/judge_scheduler.h` and `SampleRunner::run` of
`src/judge/sample_runner.h` write the file `task.json` into a new directory, and create a container
in which `judge.sh` is to read it. The path of the file, as the web process names it, is given to
the script in `JUDGE_TASK_FILE`. With a volume the container has the volume of the web process at
`/tmp/litecode-judge`; without one it has the file at `/tmp/task.json`.

The script reads what `JUDGE_TASK_FILE` names in the container, if that is readable; else what its
argument names, which is the script itself, as the command of the container is an argument of the
entry point of the image.

* `container`: the container of a task, with its files;
* `taskText`: what the script reads there as its task;
* `readsTask_iff`: it is the text of the task exactly if there is a volume, and the path of the
  directory names the same directory of the volume on both sides.
-/

namespace LiteCode.JudgeScheduler

open Judge FileTree

/-- The functions that run a task in a container. -/
inductive Site
  | runOneTask
  | sampleRunner
  deriving DecidableEq, Repr

/-- What they read of their configuration. -/
structure MountConfig extends Config where
  taskDirParent : Bytes
  taskVolumeName : Bytes
  sampleMaxCases : Int
  deriving DecidableEq, Repr

/-- The files of the web process, and those of the image of the judge. -/
structure Host where
  web : FileTree
  cwd : Path
  /-- Where the web process has the volume. -/
  volumeAt : Path
  /-- What `temp_directory_path` returns, if it does not throw. -/
  tempDir : Option Bytes
  image : FileTree
  root_dir : web [] = some .dir
  cwd_dir : web cwd = some .dir
  tempDir_ne : ∀ p ∈ tempDir, p ≠ []

/-! ## The task file -/

/-- `task_dir_parent`. For the scheduler `start` has resolved an empty one. -/
def taskDirParent (site : Site) (cfg : MountConfig) (host : Host) : Option Bytes :=
  if cfg.taskDirParent ≠ [] then some cfg.taskDirParent
  else match site with
    | .runOneTask => some (host.tempDir.getD (bytes "/tmp"))
    | .sampleRunner => host.tempDir

/-- The id in the name of the directory. -/
def dirId : Site → JudgeTask → Nat
  | .runOneTask, task => task.submissionId
  | .sampleRunner, _ => 0

/-- The name of the directory that `make_task_dir` makes at the time `us`. -/
def taskDirName (id us : Nat) : Bytes :=
  bytes "litecode-judge-" ++ decimal id ++ bytes "-" ++ decimal us

/-- The name of the file. -/
def taskJson : Bytes := bytes "task.json"

/-- The task as it is written: the sample runner limits the number of its test cases. -/
def sized (site : Site) (cfg : MountConfig) (task : JudgeTask) : JudgeTask :=
  match site with
  | .runOneTask => task
  | .sampleRunner => { task with testCases := task.testCases.take (max 1 cfg.sampleMaxCases).toNat }

/-! ## The container -/

/-- `docker::Mount`. Both kinds are read-only here. -/
inductive Mount
  | bind (hostPath containerPath : Bytes)
  | volume (volumeName containerPath : Bytes)
  deriving DecidableEq, Repr

/-- `docker::CreateOptions`: what decides which files the script finds. -/
structure CreateOptions where
  command : List Bytes
  env : List Bytes
  /-- The paths of the empty file systems. -/
  tmpfs : List Bytes
  workingDir : Bytes
  mounts : List Mount
  deriving DecidableEq, Repr

/-- The options for a task whose file is `file`. -/
def createOptions (cfg : MountConfig) (file : Bytes) : CreateOptions where
  command := [bytes "/usr/local/bin/judge.sh"]
  env := [bytes "JUDGE_TASK_FILE=" ++ file, bytes "JUDGE_HOME=/judge", bytes "JUDGE_TMP=/tmp/judge"]
  tmpfs := [bytes "/tmp", bytes "/judge"]
  workingDir := bytes "/judge"
  mounts :=
    if cfg.taskVolumeName ≠ [] then [.volume cfg.taskVolumeName (bytes "/tmp/litecode-judge")]
    else [.bind file (bytes "/tmp/task.json")]

/-- Where a mount is in the container. -/
def Mount.target : Mount → Path
  | .bind _ p => components p
  | .volume _ p => components p

/-- The path of what is mounted, in the files of the web process. -/
def Mount.source (host : Host) (web : FileTree) : Mount → Option Path
  | .bind p _ => web.locate host.cwd p
  | .volume _ _ => some host.volumeAt

/-- The files of the container: the mounts, the empty file systems and the image. A mount point is
    there, with the directories that lead to it. -/
def containerTree (host : Host) (web : FileTree) (opts : CreateOptions) : FileTree := fun q =>
  match opts.mounts.find? fun m => m.target.isPrefixOf q with
  | some m => (m.source host web).bind fun s => web (s ++ q.drop m.target.length)
  | none =>
    if (opts.tmpfs.map components ++ opts.mounts.map Mount.target).any q.isPrefixOf then some .dir
    else if (opts.tmpfs.map components).any fun p => p.isPrefixOf q then none
    else host.image q

/-- A container that starts. -/
structure Container where
  tree : FileTree
  cwd : Path
  env : List Bytes
  /-- The arguments of the entry point, which is `judge.sh`. -/
  args : List Bytes
  stdin : Bytes

/-- The container of the options. Its standard input is not open. -/
def CreateOptions.container (opts : CreateOptions) (host : Host) (web : FileTree) : Container :=
  ⟨containerTree host web opts, components opts.workingDir, opts.env, opts.command, []⟩

namespace Container

/-- The value of a variable of the environment, empty if it is not set. -/
def getenv (c : Container) (name : Bytes) : Bytes :=
  match c.env.find? fun e => (name ++ [0x3D]).isPrefixOf e with
  | some e => e.drop (name.length + 1)
  | none => []

/-- `[ -r p ]`. -/
def readable (c : Container) (p : Bytes) : Bool := (c.tree.node c.cwd p).isSome

/-- The text of a file. -/
def read (c : Container) (p : Bytes) : Option Bytes :=
  match c.tree.node c.cwd p with
  | some (.file text) => some text
  | _ => none

/-- The text that `judge.sh` reads as its task, if it reads one. -/
def taskText (c : Container) : Option Bytes :=
  let arg := c.args.headD []
  let var := c.getenv (bytes "JUDGE_TASK_FILE")
  if arg = bytes "--help" ∨ arg = bytes "-h" ∨ arg = bytes "true" then none
  else if var ≠ [] ∧ c.readable var then c.read var
  else if arg ≠ [] ∧ c.readable arg then c.read arg
  else some c.stdin

end Container

/-- The container that is created for a task at the time `us`, if one is. The text of a task is
    what `dump` gives. -/
def container (dump : TaskFile → Bytes) (site : Site) (cfg : MountConfig) (host : Host) (us : Nat)
    (task : JudgeTask) : Option Container := do
  let parent ← taskDirParent site cfg host
  let dir := join parent (taskDirName (dirId site task) us)
  let file := join dir taskJson
  let (web, _) ← host.web.createDirectories (base host.cwd dir) (components dir)
  -- `dump` refuses a string that is not UTF-8
  guard (∀ s ∈ (sized site cfg task).strings, Utf8.WellFormed s)
  let q ← web.locate host.cwd file
  let web ← web.write q (dump (taskFile cfg.toConfig (sized site cfg task)))
  return (createOptions cfg file).container host web

/-- The script reads the text of the task, for every task with this directory. -/
def ReadsTask (dump : TaskFile → Bytes) (site : Site) (cfg : MountConfig) (host : Host)
    (us id : Nat) : Prop :=
  ∀ task c, dirId site task = id → container dump site cfg host us task = some c →
    c.taskText = some (dump (taskFile cfg.toConfig (sized site cfg task)))

/-- The path of the directory of the tasks with the id `id`. -/
def taskDir (site : Site) (cfg : MountConfig) (host : Host) (us id : Nat) : Option Bytes :=
  (taskDirParent site cfg host).map fun parent => join parent (taskDirName id us)

/-- The directory `dir` can be made, as `d`, and the file can be opened: `web` are the files of the
    web process then. -/
def Staged (host : Host) (dir : Bytes) (web : FileTree) (d : Path) : Prop :=
  host.web.createDirectories (base host.cwd dir) (components dir) = some (web, d) ∧
    web (d ++ [taskJson]) ≠ some .dir

/-- Where the volume is in the container. -/
def volumeTarget : Path := [bytes "tmp", bytes "litecode-judge"]

/-- There is a volume, and `dir` names the same directory of it in the container, from its working
    directory, as in the web process. -/
def SharedDir (cfg : MountConfig) (host : Host) (dir : Bytes) (web : FileTree) (d : Path) : Prop :=
  cfg.taskVolumeName ≠ [] ∧ ∃ r, d = host.volumeAt ++ r ∧
    (containerTree host web (createOptions cfg (join dir taskJson))).locate [bytes "judge"] dir =
      some (volumeTarget ++ r)

/-! ## Paths of the task -/

theorem taskJson_name : taskJson ≠ [] ∧ 0x2F ∉ taskJson ∧ taskJson ≠ [0x2E] ∧
    taskJson ≠ [0x2E, 0x2E] := by
  decide

theorem taskDirName_ne_nil (id us : Nat) : taskDirName id us ≠ [] := by
  simp [taskDirName, bytes]

/-- A digit is neither a slash nor a dot. -/
theorem slash_not_mem_decimal (n : Nat) : 0x2F ∉ decimal n := by
  intro h
  have := isDigit_of_mem_decimal 0x2F h
  revert this
  decide

theorem slash_not_mem_taskDirName (id us : Nat) : 0x2F ∉ taskDirName id us := by
  simp only [taskDirName, List.mem_append, not_or]
  exact ⟨⟨⟨by decide, slash_not_mem_decimal id⟩, by decide⟩, slash_not_mem_decimal us⟩

/-- The name is longer than the other names that occur. -/
theorem taskDirName_ne {id us : Nat} {name : Bytes} (h : name.length ≤ 14) :
    taskDirName id us ≠ name := by
  rintro rfl
  have hhead : (bytes "litecode-judge-").length = 15 := rfl
  have hsep : (bytes "-").length = 1 := rfl
  simp only [taskDirName, List.length_append, hhead, hsep] at h
  omega

/-- The file of a directory is found by finding the directory. -/
theorem locate_file (t : FileTree) (cwd : Path) {dir : Bytes} (hdir : dir ≠ []) :
    t.locate cwd (join dir taskJson) = (t.locate cwd dir).bind fun q =>
      if t q = some .dir then some (q ++ [taskJson]) else none := by
  obtain ⟨hne, hs, hdot, hdots⟩ := taskJson_name
  simp only [locate, base_join hdir, components_join dir hne hs, resolve_append_singleton,
    walk_name hdot hdots]

/-- A path that leads to the directory of the tasks ends in its name. -/
theorem locate_dir {t : FileTree} {cwd q : Path} {parent : Bytes} {id us : Nat}
    (h : t.locate cwd (join parent (taskDirName id us)) = some q) :
    ∃ x, q = x ++ [taskDirName id us] := by
  rw [locate, components_join parent (taskDirName_ne_nil id us) (slash_not_mem_taskDirName id us),
    resolve_append_singleton] at h
  obtain ⟨x, -, hx⟩ := Option.bind_eq_some_iff.1 h
  split_ifs at hx
  rw [walk_name (taskDirName_ne (by decide)) (taskDirName_ne (by decide))] at hx
  exact ⟨x, (Option.some.inj hx).symm⟩

/-! ## The files of the container -/

section Tree

variable {host : Host} {cfg : MountConfig} {web web' : FileTree} {opts : CreateOptions}

/-- The container finds another node only through a mount. -/
theorem containerTree_congr {q : Path}
    (h : ∀ m ∈ opts.mounts, ∀ r, q = m.target ++ r →
      (m.source host web).bind (fun s => web (s ++ r)) =
        (m.source host web').bind fun s => web' (s ++ r)) :
    containerTree host web opts q = containerTree host web' opts q := by
  unfold containerTree
  split
  · next m hm =>
    have hp : m.target.isPrefixOf q = true := by simpa using List.find?_some hm
    obtain ⟨r, rfl⟩ := List.isPrefixOf_iff_prefix.1 hp
    rw [List.drop_left]
    exact h m (List.mem_of_find?_eq_some hm) r rfl
  · rfl

theorem source_congr (h : ∀ p, web p = some .dir ↔ web' p = some .dir) (m : Mount) :
    m.source host web = m.source host web' := by
  cases m with
  | bind p _ => exact resolve_congr h _ _
  | volume => rfl

/-- The directories of the container are those of the web process, of the image and the mount
    points. -/
theorem containerTree_dir_iff (h : ∀ p, web p = some .dir ↔ web' p = some .dir) (q : Path) :
    containerTree host web opts q = some .dir ↔ containerTree host web' opts q = some .dir := by
  unfold containerTree
  split
  · next m hm =>
    rw [source_congr h m]
    simp only [Option.bind_eq_some_iff, h]
  · rfl

theorem containerTree_locate (h : ∀ p, web p = some .dir ↔ web' p = some .dir) (cwd : Path)
    (p : Bytes) :
    (containerTree host web opts).locate cwd p = (containerTree host web' opts).locate cwd p :=
  resolve_congr (containerTree_dir_iff h) _ _

/-- The volume in the container. -/
theorem containerTree_volume (h : cfg.taskVolumeName ≠ []) (file : Bytes) (r : Path) :
    containerTree host web (createOptions cfg file) (volumeTarget ++ r) =
      web (host.volumeAt ++ r) := by
  have ht : components (bytes "/tmp/litecode-judge") = volumeTarget := by decide
  have hp : volumeTarget.isPrefixOf (volumeTarget ++ r) :=
    List.isPrefixOf_iff_prefix.2 (List.prefix_append _ _)
  simp only [containerTree, createOptions, if_pos h, List.find?_cons, Mount.target, ht, hp,
    List.drop_left]
  rfl

end Tree

/-! ## What the script reads -/

section Text

variable {host : Host} {cfg : MountConfig} {web web' : FileTree} {dir parent text : Bytes}
  {d : Path} {id us : Nat}

/-- The script looks at two paths only. -/
theorem Container.taskText_congr (c : Container) {t : FileTree}
    (hvar : t.node c.cwd (c.getenv (bytes "JUDGE_TASK_FILE")) =
      c.tree.node c.cwd (c.getenv (bytes "JUDGE_TASK_FILE")))
    (harg : t.node c.cwd (c.args.headD []) = c.tree.node c.cwd (c.args.headD [])) :
    { c with tree := t }.taskText = c.taskText := by
  have hread : ∀ {p : Bytes}, t.node c.cwd p = c.tree.node c.cwd p →
      { c with tree := t }.readable p = c.readable p ∧ { c with tree := t }.read p = c.read p := by
    intro p hp
    simp only [readable, read, hp, and_self]
  have hget : { c with tree := t }.getenv (bytes "JUDGE_TASK_FILE") =
    c.getenv (bytes "JUDGE_TASK_FILE") := rfl
  simp only [taskText, hget, hread hvar, hread harg]

theorem Container.taskText_of_file {c : Container} {p : Bytes}
    (hargs : c.args = [bytes "/usr/local/bin/judge.sh"])
    (hvar : c.getenv (bytes "JUDGE_TASK_FILE") = p) (hp : p ≠ [])
    (hnode : c.tree.node c.cwd p = some (.file text)) : c.taskText = some text := by
  have hreadable : c.readable p = true := congrArg Option.isSome hnode
  have hread : c.read p = some text := by
    rw [read, hnode]
  rw [taskText, hargs, hvar, if_neg (by decide), if_pos ⟨hp, hreadable⟩, hread]

theorem getenv_container (file : Bytes) :
    ((createOptions cfg file).container host web).getenv (bytes "JUDGE_TASK_FILE") = file := by
  have hp : (bytes "JUDGE_TASK_FILE" ++ [0x3D]).isPrefixOf (bytes "JUDGE_TASK_FILE=" ++ file) :=
    List.isPrefixOf_iff_prefix.2 (List.prefix_append (bytes "JUDGE_TASK_FILE=") file)
  simp only [Container.getenv, CreateOptions.container, createOptions, List.find?_cons, hp]
  exact List.drop_left' (by decide)

/-- The directory is made, and its path leads to it. -/
theorem locate_made
    (h : host.web.createDirectories (base host.cwd dir) (components dir) = some (web, d)) :
    web.locate host.cwd dir = some d ∧ web d = some .dir := by
  have hbase : host.web (base host.cwd dir) = some .dir := by
    rw [base]
    split_ifs
    · exact host.root_dir
    · exact host.cwd_dir
  obtain ⟨hr, hd, -⟩ := createDirectories_spec hbase h
  exact ⟨hr, hd⟩

/-- The file is in the directory. -/
theorem locate_file_made (hdir : dir ≠ [])
    (h : host.web.createDirectories (base host.cwd dir) (components dir) = some (web, d)) :
    web.locate host.cwd (join dir taskJson) = some (d ++ [taskJson]) := by
  obtain ⟨hr, hd⟩ := locate_made h
  rw [locate_file web host.cwd hdir, hr, Option.bind_some, if_pos hd]

/-- The mounts of the options. -/
theorem mem_mounts {file : Bytes} {m : Mount} (h : m ∈ (createOptions cfg file).mounts) :
    (cfg.taskVolumeName ≠ [] ∧ m = .volume cfg.taskVolumeName (bytes "/tmp/litecode-judge")) ∨
      m = .bind file (bytes "/tmp/task.json") := by
  simp only [createOptions] at h
  split_ifs at h with hv
  · exact .inl ⟨hv, List.mem_singleton.1 h⟩
  · exact .inr (List.mem_singleton.1 h)

theorem head?_target {file : Bytes} {m : Mount} (h : m ∈ (createOptions cfg file).mounts) :
    m.target.head? = some (bytes "tmp") := by
  rcases mem_mounts h with ⟨-, rfl⟩ | rfl
  · change (components (bytes "/tmp/litecode-judge")).head? = _
    decide
  · change (components (bytes "/tmp/task.json")).head? = _
    decide

/-- Writing the file does not change what its path names in the container, unless the directory is
    shared. -/
theorem node_file_of_not_shared (hdir : dir = join parent (taskDirName id us))
    (hs : Staged host dir web d) (hn : ¬SharedDir cfg host dir web d)
    (hw : web.write (d ++ [taskJson]) text = some web') :
    (containerTree host web' (createOptions cfg (join dir taskJson))).node [bytes "judge"]
        (join dir taskJson) =
      (containerTree host web (createOptions cfg (join dir taskJson))).node [bytes "judge"]
        (join dir taskJson) := by
  have hne : dir ≠ [] := hdir ▸ join_ne_nil parent (taskDirName_ne_nil id us)
  rw [node, node, ← containerTree_locate (write_dir_iff hw), locate_file _ _ hne]
  cases hx : (containerTree host web (createOptions cfg (join dir taskJson))).locate
    [bytes "judge"] dir with
  | none => rfl
  | some x =>
    rw [Option.bind_some]
    split_ifs
    swap
    · rfl
    obtain ⟨y, hy⟩ := locate_dir (hdir ▸ hx)
    refine (containerTree_congr fun m hm r hq => ?_).symm
    rw [← source_congr (write_dir_iff hw) m]
    refine Option.bind_congr fun s hsource => ?_
    refine (write_of_ne hw fun he => ?_).symm
    rcases mem_mounts hm with ⟨hv, rfl⟩ | rfl
    · -- the node is in the volume, and it is the file that is written
      cases hsource
      change x ++ [taskJson] = components (bytes "/tmp/litecode-judge") ++ r at hq
      rw [show components (bytes "/tmp/litecode-judge") = volumeTarget by decide] at hq
      obtain rfl | ⟨r, z, rfl⟩ := List.eq_nil_or_concat' r
      · rw [List.append_nil] at hq
        have hlast := congrArg List.getLast? hq
        rw [List.getLast?_concat] at hlast
        revert hlast
        decide
      · rw [← List.append_assoc] at he hq
        obtain ⟨hd, -⟩ := List.append_inj' he rfl
        obtain ⟨rfl, -⟩ := List.append_inj' hq rfl
        exact hn ⟨hv, r, hd.symm, hx⟩
    · -- the file has another name in the container
      rw [Mount.source, locate_file_made hne hs.1] at hsource
      cases hsource
      rw [List.append_right_eq_self] at he
      subst he
      change x ++ [taskJson] = components (bytes "/tmp/task.json") ++ [] at hq
      rw [show components (bytes "/tmp/task.json") ++ [] = [bytes "tmp"] ++ [taskJson] by decide,
        hy] at hq
      obtain ⟨hq, -⟩ := List.append_inj' hq rfl
      have hlast := congrArg List.getLast? hq
      rw [List.getLast?_concat] at hlast
      exact taskDirName_ne (by decide) (Option.some.inj hlast)

/-- The script itself is part of the image. -/
theorem node_script (hw : web.write (d ++ [taskJson]) text = some web') (file : Bytes) :
    (containerTree host web' (createOptions cfg file)).node [bytes "judge"]
        (bytes "/usr/local/bin/judge.sh") =
      (containerTree host web (createOptions cfg file)).node [bytes "judge"]
        (bytes "/usr/local/bin/judge.sh") := by
  rw [node, node, ← containerTree_locate (write_dir_iff hw)]
  cases hx : (containerTree host web (createOptions cfg file)).locate [bytes "judge"]
    (bytes "/usr/local/bin/judge.sh") with
  | none => rfl
  | some x =>
    have hx' := resolve_of_names (by decide) hx
    refine (containerTree_congr fun m hm r hq => ?_).symm
    -- no mount is on the way to the script
    rw [hx'] at hq
    have hhead := congrArg List.head? hq.symm
    rw [List.head?_append, head?_target hm, Option.some_or] at hhead
    exact absurd hhead (by decide)

/-- The text that the script reads does not depend on the task, unless the directory is shared. -/
theorem taskText_of_not_shared (hdir : dir = join parent (taskDirName id us))
    (hs : Staged host dir web d) (hn : ¬SharedDir cfg host dir web d)
    (hw : web.write (d ++ [taskJson]) text = some web') :
    ((createOptions cfg (join dir taskJson)).container host web').taskText =
      ((createOptions cfg (join dir taskJson)).container host web).taskText := by
  refine Container.taskText_congr ((createOptions cfg (join dir taskJson)).container host web)
    ?_ (node_script hw _)
  rw [getenv_container]
  exact node_file_of_not_shared hdir hs hn hw

/-- In a shared directory the script reads what is written. -/
theorem taskText_of_shared (hdir : dir = join parent (taskDirName id us))
    (hs : Staged host dir web d) (h : SharedDir cfg host dir web d)
    (hw : web.write (d ++ [taskJson]) text = some web') :
    ((createOptions cfg (join dir taskJson)).container host web').taskText = some text := by
  have hne : dir ≠ [] := hdir ▸ join_ne_nil parent (taskDirName_ne_nil id us)
  obtain ⟨hv, r, rfl, hr⟩ := h
  have hd : web' (host.volumeAt ++ r) = some .dir := (write_dir_iff hw _).1 (locate_made hs.1).2
  have hnode : (containerTree host web' (createOptions cfg (join dir taskJson))).node
      [bytes "judge"] (join dir taskJson) = some (.file text) := by
    rw [node, locate_file _ _ hne, ← containerTree_locate (write_dir_iff hw), hr,
      Option.bind_some, containerTree_volume hv, if_pos hd, Option.bind_some, List.append_assoc,
      containerTree_volume hv, ← List.append_assoc]
    exact write_self hw
  exact Container.taskText_of_file rfl (getenv_container _) (join_ne_nil dir taskJson_name.1) hnode

end Text

section Container

variable {dump : TaskFile → Bytes} {site : Site} {cfg : MountConfig} {host : Host} {us id : Nat}
  {task : JudgeTask} {c : Container} {dir : Bytes} {web : FileTree} {d : Path}

theorem taskDir_eq_some (h : taskDir site cfg host us id = some dir) :
    ∃ parent, dir = join parent (taskDirName id us) := by
  obtain ⟨parent, -, rfl⟩ := Option.map_eq_some_iff.1 h
  exact ⟨parent, rfl⟩

/-- The container of a task has the directory of the task, with its file written. -/
theorem staged_of_container (h : container dump site cfg host us task = some c) :
    ∃ dir web d web', taskDir site cfg host us (dirId site task) = some dir ∧
      Staged host dir web d ∧
      web.write (d ++ [taskJson]) (dump (taskFile cfg.toConfig (sized site cfg task))) =
        some web' ∧
      (createOptions cfg (join dir taskJson)).container host web' = c := by
  simp only [container, Option.bind_eq_bind, Option.bind_eq_some_iff, Option.pure_def,
    Option.some_inj] at h
  obtain ⟨parent, hp, ⟨web, d⟩, hm, -, -, q, hq, web', hw, hc⟩ := h
  have hne := join_ne_nil parent (taskDirName_ne_nil (dirId site task) us)
  rw [locate_file_made hne hm] at hq
  cases hq
  refine ⟨_, web, d, web', by rw [taskDir, hp, Option.map_some], ⟨hm, fun hd => ?_⟩, hw, hc⟩
  rw [write, if_pos hd] at hw
  cases hw

/-- When the directory can be made and the file opened, a task that `dump` accepts has a
    container. -/
theorem container_of_staged (hdir : taskDir site cfg host us (dirId site task) = some dir)
    (hs : Staged host dir web d) (htask : ∀ s ∈ (sized site cfg task).strings, Utf8.WellFormed s) :
    ∃ web', web.write (d ++ [taskJson]) (dump (taskFile cfg.toConfig (sized site cfg task))) =
        some web' ∧
      container dump site cfg host us task =
        some ((createOptions cfg (join dir taskJson)).container host web') := by
  obtain ⟨parent, hp, rfl⟩ := Option.map_eq_some_iff.1 hdir
  have hne := join_ne_nil parent (taskDirName_ne_nil (dirId site task) us)
  refine ⟨_, if_neg hs.2, ?_⟩
  simp only [container, hp, Option.bind_eq_bind, Option.bind_some, hs.1, locate_file_made hne hs.1,
    guard, if_pos htask, write, if_neg hs.2, Option.pure_def]

end Container

/-- A task with the id of another one, and a time limit. -/
def limited (task : JudgeTask) (ms : Int) : JudgeTask :=
  { oneTask with submissionId := task.submissionId, timeLimitMs := ms }

theorem dirId_limited (site : Site) (task : JudgeTask) (ms : Int) :
    dirId site (limited task ms) = dirId site task := by
  cases site <;> rfl

theorem strings_limited (site : Site) (cfg : MountConfig) (task : JudgeTask) (ms : Int) :
    ∀ s ∈ (sized site cfg (limited task ms)).strings, Utf8.WellFormed s := by
  have hstrings : (sized site cfg (limited task ms)).strings = oneTask.strings := by
    cases site with
    | runOneTask => rfl
    | sampleRunner => simp [sized, limited, JudgeTask.strings, oneTask]
  rw [hstrings]
  decide

/-- For every task with this directory the script reads the text of the task exactly if, when the
    directory can be made, it is shared. -/
theorem readsTask_iff (dump : TaskFile → Bytes)
    (hdump : ∀ (t : TaskFile) (ms : Int), ms ≠ t.timeLimitMs →
      dump { t with timeLimitMs := ms } ≠ dump t)
    (site : Site) (cfg : MountConfig) (host : Host) (us : Nat) (task : JudgeTask) :
    ReadsTask dump site cfg host us (dirId site task) ↔
      ∀ dir web d, taskDir site cfg host us (dirId site task) = some dir →
        Staged host dir web d → SharedDir cfg host dir web d := by
  constructor
  · intro h dir web d hdir hs
    by_contra hn
    obtain ⟨parent, hparent⟩ := taskDir_eq_some hdir
    -- what the script reads is the same for two tasks that differ in their time limits
    have hread : ∀ ms, ((createOptions cfg (join dir taskJson)).container host web).taskText =
        some (dump (taskFile cfg.toConfig (sized site cfg (limited task ms)))) := by
      intro ms
      have hid := dirId_limited site task ms
      rw [← hid] at hdir
      obtain ⟨web', hw, hc⟩ := container_of_staged hdir hs (strings_limited site cfg task ms)
      rw [← taskText_of_not_shared hparent hs hn hw]
      exact h _ _ hid hc
    have heq := Option.some.inj ((hread 1).symm.trans (hread 2))
    have hne : (1 : Int) ≠ 2 := by decide
    cases site with
    | runOneTask => exact hdump (taskFile cfg.toConfig (limited task 2)) 1 hne heq
    | sampleRunner =>
      exact hdump (taskFile cfg.toConfig (sized .sampleRunner cfg (limited task 2))) 1 hne heq
  · intro h task' c hid hc
    obtain ⟨dir, web, d, web', hdir, hs, hw, rfl⟩ := staged_of_container hc
    rw [hid] at hdir
    obtain ⟨parent, rfl⟩ := taskDir_eq_some hdir
    exact taskText_of_shared rfl hs (h _ web d hdir hs) hw

/-! ## Absolute paths -/

/-- The directories that lead to the volume are in the container. -/
theorem containerTree_above {host : Host} {cfg : MountConfig} {web : FileTree}
    (h : cfg.taskVolumeName ≠ []) (file : Bytes) {i : Nat} (hi : i < 2) :
    containerTree host web (createOptions cfg file) (volumeTarget.take i) = some .dir := by
  have ht : components (bytes "/tmp/litecode-judge") = volumeTarget := by decide
  have hn : volumeTarget.isPrefixOf (volumeTarget.take i) = false := by
    obtain rfl | rfl : i = 0 ∨ i = 1 := by omega
    · decide
    · decide
  have hp : (volumeTarget.take i).isPrefixOf volumeTarget = true :=
    List.isPrefixOf_iff_prefix.2 (List.take_prefix i _)
  simp only [containerTree, createOptions, if_pos h, List.find?_cons, Mount.target, ht, hn,
    List.find?_nil, List.map_cons, List.map_nil, List.any_append, List.any_cons, hp, Bool.true_or,
    Bool.or_true, if_true]

/-- For an absolute path without dots, and the volume at the same place on both sides: the
    directory is shared exactly if it is below that place. -/
theorem sharedDir_iff_below {cfg : MountConfig} {host : Host} {dir : Bytes} {web : FileTree}
    {d : Path} (hv : cfg.taskVolumeName ≠ []) (hat : host.volumeAt = volumeTarget)
    (habs : dir.head? = some 0x2F) (hnames : Names (components dir))
    (hs : Staged host dir web d) :
    SharedDir cfg host dir web d ↔ volumeTarget <+: components dir := by
  obtain ⟨hlocate, -⟩ := locate_made hs.1
  rw [locate, base, if_pos habs] at hlocate
  have hd : d = components dir := resolve_of_names hnames hlocate
  constructor
  · rintro ⟨-, r, hr, -⟩
    exact ⟨r, by rw [← hd, hr, hat]⟩
  · rintro ⟨r, hr⟩
    refine ⟨hv, r, by rw [hd, ← hr, hat], ?_⟩
    have hweb := (isSome_resolve_iff hnames).1 (Option.isSome_of_eq_some hlocate)
    have htake : ∀ j, (volumeTarget ++ r).take (2 + j) = volumeTarget ++ r.take j := by
      intro j
      change (volumeTarget ++ r).take (volumeTarget.length + j) = _
      rw [List.take_length_add_append]
    have hsome : ((containerTree host web (createOptions cfg (join dir taskJson))).locate
        [bytes "judge"] dir).isSome := by
      rw [locate, base, if_pos habs, isSome_resolve_iff hnames]
      intro i hi
      rw [List.nil_append, ← hr]
      -- above the volume the directories are mount points, in it those of the web process
      obtain hlt | ⟨j, rfl⟩ : i < 2 ∨ ∃ j, i = 2 + j :=
        (Nat.lt_or_ge i 2).imp_right Nat.exists_eq_add_of_le
      · rw [List.take_append_of_le_length (Nat.le_of_lt hlt)]
        exact containerTree_above hv _ hlt
      · rw [htake, containerTree_volume hv, hat]
        have := hweb (2 + j) hi
        rwa [List.nil_append, ← hr, htake] at this
    obtain ⟨q, hq⟩ := Option.isSome_iff_exists.1 hsome
    rw [hq]
    rw [locate, base, if_pos habs] at hq
    rw [resolve_of_names hnames hq, hr, List.nil_append]

/-! ## The services of `docker-compose.yml` -/

/-- The files of the two containers, as far as they matter. -/
def composeHost : Host where
  web q :=
    if q ∈ [[], [bytes "app"], [bytes "tmp"], volumeTarget] then some .dir else none
  cwd := [bytes "app"]
  volumeAt := volumeTarget
  tempDir := some (bytes "/tmp")
  image q :=
    if q = components (bytes "/usr/local/bin/judge.sh") then
      some (.file (bytes "#!/usr/bin/env bash\n"))
    else if q.isPrefixOf (components (bytes "/usr/local/bin")) then some .dir
    else none
  root_dir := rfl
  cwd_dir := by decide
  tempDir_ne := by decide

/-- Their configuration. -/
def composeConfig : MountConfig :=
  ⟨⟨30, 16777216⟩, bytes "/tmp/litecode-judge", bytes "litecode-judge-tmp", 4⟩

/-- The text of a task whose strings have no character to escape, without test cases. -/
def plainDump (t : TaskFile) : Bytes :=
  let str (s : Bytes) : Bytes := bytes "\"" ++ s ++ bytes "\""
  let opt (s : Option Bytes) : Bytes := (s.map str).getD (bytes "null")
  bytes "\x7b\"code\":" ++ str t.code ++
    bytes ",\"compile_timeout_ms\":" ++ decimalInt t.compileTimeoutMs ++
    bytes ",\"language\":" ++ str t.language ++
    bytes ",\"memory_limit_mb\":" ++ decimalInt t.memoryLimitMb ++
    bytes ",\"output_limit_bytes\":" ++ decimalInt t.outputLimitBytes ++
    bytes ",\"run_hard_timeout_ms\":" ++ decimalInt t.runHardTimeoutMs ++
    bytes ",\"special_judge_language\":" ++ opt t.specialJudgeLanguage ++
    bytes ",\"special_judge_source\":" ++ opt t.specialJudgeSource ++
    bytes ",\"submission_id\":" ++ decimal t.submissionId ++
    bytes ",\"test_cases\":[]" ++
    bytes ",\"time_limit_ms\":" ++ decimalInt t.timeLimitMs ++ bytes "\x7d"

theorem plainDump_ne (t : TaskFile) (ms : Int) (h : ms ≠ t.timeLimitMs) :
    plainDump { t with timeLimitMs := ms } ≠ plainDump t := by
  intro he
  exact h (decimalInt_injective (List.append_cancel_left (List.append_cancel_right he)))

/-- The service reads its tasks. -/
theorem readsTask_compose :
    (container plainDump .runOneTask composeConfig composeHost 5 oneTask).isSome ∧
      ReadsTask plainDump .runOneTask composeConfig composeHost 5 1 := by
  refine ⟨by decide +kernel, ?_⟩
  refine (readsTask_iff plainDump plainDump_ne .runOneTask composeConfig composeHost 5 oneTask).2 ?_
  intro dir web d hdir hs
  have he : taskDir .runOneTask composeConfig composeHost 5 (dirId .runOneTask oneTask) =
    some (bytes "/tmp/litecode-judge/litecode-judge-1-5") := by decide
  rw [he] at hdir
  cases hdir
  exact (sharedDir_iff_below (by decide) rfl (by decide) (by decide) hs).2 (by decide)

/-- Without a volume the script takes itself for the task. -/
theorem bind_not_read :
    ¬ReadsTask plainDump .runOneTask { composeConfig with taskVolumeName := [] } composeHost 5 1 ∧
      ¬ReadsTask plainDump .sampleRunner { composeConfig with taskVolumeName := [] } composeHost 5
        0 := by
  have hscript : ∀ site, (container plainDump site { composeConfig with taskVolumeName := [] }
      composeHost 5 oneTask).map Container.taskText =
        some (some (bytes "#!/usr/bin/env bash\n")) := by
    rintro (_ | _)
    · decide +kernel
    · decide +kernel
  constructor
  · intro h
    obtain ⟨c, hc, ht⟩ := Option.map_eq_some_iff.1 (hscript .runOneTask)
    have := ht.symm.trans (h oneTask c rfl hc)
    revert this
    decide +kernel
  · intro h
    obtain ⟨c, hc, ht⟩ := Option.map_eq_some_iff.1 (hscript .sampleRunner)
    have := ht.symm.trans (h oneTask c rfl hc)
    revert this
    decide +kernel

end LiteCode.JudgeScheduler
