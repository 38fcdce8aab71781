import Mathlib.Data.List.Basic
import Mathlib.Logic.Function.Basic
import LiteCode.Lib.Bytes

/-!
# File trees and paths

A file tree gives each absolute path, the list of the names from the root on, the node that is
there. The text of a path is a list of components separated by slashes; it is followed from a
directory, component by component, and every node on the way has to be a directory. There are no
symbolic links, so `..` is the parent.

* `components_join`: the components of a path with one more name;
* `resolve_append_singleton`, `resolve_congr`: a path is followed by its parts, and only the
  directories of the tree matter for it;
* `resolve_of_names`, `isSome_resolve_iff`: where a path without `.` and `..` leads, and when;
* `createDirectories_spec`: the directories of a path are there after they have been made, and
  nothing else has changed.
-/

namespace LiteCode

/-- An absolute path: the names from the root on. -/
abbrev Path := List Bytes

/-- What a path names. -/
inductive Node
  | dir
  | file (text : Bytes)
  deriving DecidableEq, Repr

/-- The nodes of a tree. -/
abbrev FileTree := Path → Option Node

namespace FileTree

/-! ## Texts of paths -/

/-- The parts of a text between its slashes. -/
def split : Bytes → List Bytes
  | [] => [[]]
  | b :: t =>
    if b = 0x2F then [] :: split t
    else match split t with
      | [] => [[b]]
      | c :: cs => (b :: c) :: cs

/-- The components of a path; an empty one means nothing. -/
def components (p : Bytes) : List Bytes := (split p).filter (· ≠ [])

/-- Where the path is followed from. -/
def base (cwd : Path) (p : Bytes) : Path := if p.head? = some 0x2F then [] else cwd

/-- The path `p / name`. -/
def join (p name : Bytes) : Bytes :=
  if p = [] ∨ p.getLast? = some 0x2F then p ++ name else p ++ 0x2F :: name

theorem split_ne_nil (p : Bytes) : split p ≠ [] := by
  induction p with
  | nil => nofun
  | cons b t ih =>
    rw [split]
    split_ifs
    · nofun
    · split <;> nofun

/-- A slash separates the parts before it from those after it. -/
theorem split_append_slash (p q : Bytes) : split (p ++ 0x2F :: q) = split p ++ split q := by
  induction p with
  | nil => rfl
  | cons b t ih =>
    rw [List.cons_append, split, split, ih]
    split_ifs
    · rfl
    · cases h : split t with
      | nil => exact absurd h (split_ne_nil t)
      | cons c cs => rfl

theorem split_of_not_mem {name : Bytes} (h : 0x2F ∉ name) : split name = [name] := by
  induction name with
  | nil => rfl
  | cons b t ih =>
    rw [List.mem_cons, not_or] at h
    rw [split, if_neg (Ne.symm h.1), ih h.2]

theorem components_append_slash (p q : Bytes) :
    components (p ++ 0x2F :: q) = components p ++ components q := by
  rw [components, split_append_slash, List.filter_append, components, components]

theorem components_of_name {name : Bytes} (hne : name ≠ []) (hs : 0x2F ∉ name) :
    components name = [name] := by
  simp [components, split_of_not_mem hs, hne]

/-- The components of a path with one more name. -/
theorem components_join {name : Bytes} (p : Bytes) (hne : name ≠ []) (hs : 0x2F ∉ name) :
    components (join p name) = components p ++ [name] := by
  rw [join]
  split_ifs with h
  · rcases h with rfl | h
    · exact components_of_name hne hs
    · obtain ⟨p', rfl⟩ := List.getLast?_eq_some_iff.1 h
      have hp : components (p' ++ [0x2F]) = components p' := by
        rw [components_append_slash]
        exact List.append_nil _
      rw [hp, List.append_assoc, List.singleton_append, components_append_slash,
        components_of_name hne hs]
  · rw [components_append_slash, components_of_name hne hs]

theorem join_ne_nil {name : Bytes} (p : Bytes) (hne : name ≠ []) : join p name ≠ [] := by
  rw [join]
  split_ifs <;> simp [hne]

/-- A name at its end does not change where a path is followed from. -/
theorem base_join {cwd : Path} {p name : Bytes} (hp : p ≠ []) :
    base cwd (join p name) = base cwd p := by
  obtain ⟨b, t, rfl⟩ := List.exists_cons_of_ne_nil hp
  rw [base, base, join]
  split_ifs <;> simp_all

/-! ## Following a path -/

/-- The directory that a component leads to. -/
def walk (cur : Path) (c : Bytes) : Path :=
  if c = [0x2E] then cur else if c = [0x2E, 0x2E] then cur.dropLast else cur ++ [c]

theorem walk_name {cur : Path} {c : Bytes} (h : c ≠ [0x2E]) (h' : c ≠ [0x2E, 0x2E]) :
    walk cur c = cur ++ [c] := by
  rw [walk, if_neg h, if_neg h']

/-- The path that the components lead to, if every node on the way to it is a directory. -/
def resolve (t : FileTree) : Path → List Bytes → Option Path
  | cur, [] => some cur
  | cur, c :: cs => if t cur = some .dir then resolve t (walk cur c) cs else none

/-- The path that a text names. -/
def locate (t : FileTree) (cwd : Path) (p : Bytes) : Option Path :=
  resolve t (base cwd p) (components p)

/-- The node that a text names. -/
def node (t : FileTree) (cwd : Path) (p : Bytes) : Option Node := (locate t cwd p).bind t

variable {t t' : FileTree} {cur q : Path} {cs : List Bytes}

/-- The last component is followed from where the others lead to. -/
theorem resolve_append_singleton (t : FileTree) (cur : Path) (cs : List Bytes) (c : Bytes) :
    resolve t cur (cs ++ [c]) =
      (resolve t cur cs).bind fun q => if t q = some .dir then some (walk q c) else none := by
  induction cs generalizing cur with
  | nil => rfl
  | cons d cs ih =>
    rw [List.cons_append, resolve, resolve]
    split_ifs
    · exact ih _
    · rfl

/-- The components are names, neither `.` nor `..`. -/
def Names (cs : List Bytes) : Prop := ∀ c ∈ cs, c ≠ [0x2E] ∧ c ≠ [0x2E, 0x2E]

instance (cs : List Bytes) : Decidable (Names cs) :=
  inferInstanceAs (Decidable (∀ c ∈ cs, c ≠ [0x2E] ∧ c ≠ [0x2E, 0x2E]))

theorem Names.walk_head {c : Bytes} (h : Names (c :: cs)) (cur : Path) : walk cur c = cur ++ [c] :=
  walk_name (h c List.mem_cons_self).1 (h c List.mem_cons_self).2

theorem Names.tail {c : Bytes} (h : Names (c :: cs)) : Names cs :=
  fun d hd => h d (List.mem_cons_of_mem c hd)

/-- A path of names leads to where they are appended. -/
theorem resolve_of_names (h : Names cs) (hq : resolve t cur cs = some q) : q = cur ++ cs := by
  induction cs generalizing cur with
  | nil =>
    cases hq
    exact (List.append_nil _).symm
  | cons c cs ih =>
    rw [resolve] at hq
    split_ifs at hq
    rw [h.walk_head] at hq
    rw [ih h.tail hq, List.append_assoc, List.singleton_append]

/-- A path of names can be followed if its directories are there. -/
theorem isSome_resolve_iff (h : Names cs) :
    (resolve t cur cs).isSome ↔ ∀ i < cs.length, t (cur ++ cs.take i) = some .dir := by
  induction cs generalizing cur with
  | nil => simp [resolve]
  | cons c cs ih =>
    rw [resolve, List.length_cons]
    split_ifs with hcur
    · rw [h.walk_head, ih h.tail]
      constructor
      · rintro hi (_ | i) hlt
        · rwa [List.take_zero, List.append_nil]
        · have := hi i (by omega)
          rwa [List.append_assoc, List.singleton_append] at this
      · intro hi i hlt
        rw [List.append_assoc, List.singleton_append]
        exact hi (i + 1) (by omega)
    · refine iff_of_false (by simp) fun hi => hcur ?_
      have := hi 0 (by omega)
      rwa [List.take_zero, List.append_nil] at this

/-- Only the directories of a tree matter for where a path leads. -/
theorem resolve_congr (h : ∀ q, t q = some .dir ↔ t' q = some .dir) (cur : Path)
    (cs : List Bytes) : resolve t cur cs = resolve t' cur cs := by
  induction cs generalizing cur with
  | nil => rfl
  | cons c cs ih =>
    simp only [resolve, h cur, ih]

/-! ## Changing a tree -/

/-- `create_directories`: the directories on the way that are not there are made. -/
def createDirectories (t : FileTree) : Path → List Bytes → Option (FileTree × Path)
  | cur, [] => some (t, cur)
  | cur, c :: cs =>
    match t (walk cur c) with
    | some .dir => createDirectories t (walk cur c) cs
    | some (.file _) => none
    | none => createDirectories (Function.update t (walk cur c) (some .dir)) (walk cur c) cs

/-- The file at `q` gets a text. A directory cannot be opened for writing. -/
def write (t : FileTree) (q : Path) (text : Bytes) : Option FileTree :=
  if t q = some .dir then none else some (Function.update t q (some (.file text)))

/-- After its directories have been made a path leads to the last one of them. What was there
    before is still there. -/
theorem createDirectories_spec (hcur : t cur = some .dir)
    (h : createDirectories t cur cs = some (t', q)) :
    resolve t' cur cs = some q ∧ t' q = some .dir ∧ ∀ p n, t p = some n → t' p = some n := by
  induction cs generalizing t cur with
  | nil =>
    cases h
    exact ⟨rfl, hcur, fun _ _ hp => hp⟩
  | cons c cs ih =>
    rw [createDirectories] at h
    split at h
    · next hd =>
      obtain ⟨hr, hq, hold⟩ := ih hd h
      exact ⟨by rw [resolve, if_pos (hold _ _ hcur), hr], hq, hold⟩
    · cases h
    · next hn =>
      obtain ⟨hr, hq, hold⟩ := ih (Function.update_self ..) h
      have hold' : ∀ p n, t p = some n → t' p = some n := by
        intro p n hp
        refine hold p n ?_
        rw [Function.update_of_ne ?_, hp]
        rintro rfl
        rw [hn] at hp
        cases hp
      exact ⟨by rw [resolve, if_pos (hold' _ _ hcur), hr], hq, hold'⟩

variable {text : Bytes}

theorem write_self (h : write t q text = some t') : t' q = some (.file text) := by
  rw [write] at h
  split_ifs at h
  cases h
  exact Function.update_self ..

theorem write_of_ne {p : Path} (h : write t q text = some t') (hne : p ≠ q) : t' p = t p := by
  rw [write] at h
  split_ifs at h
  cases h
  exact Function.update_of_ne hne ..

/-- Writing a file leaves the directories as they are. -/
theorem write_dir_iff (h : write t q text = some t') (p : Path) :
    t p = some .dir ↔ t' p = some .dir := by
  by_cases hp : p = q
  · subst hp
    rw [write_self h]
    rw [write] at h
    split_ifs at h with hd
    simp [hd]
  · rw [write_of_ne h hp]

end FileTree

end LiteCode
