import LiteCode.Lib.Bytes
import LiteCode.Lib.ListIndex

/-!
# Files that are written by several writers

A disk has files, and names for some of them. A file is opened by its name, which makes it empty or
new, and is written by its number from then on: the name may be removed meanwhile. Everyone who has
a file open writes at an offset of his own, so that texts that are written at the same time are
mixed.

* `Disk.openTrunc`, `Disk.write`, `Disk.remove`, `Disk.read`;
* `read_openTrunc`, `read_write`, `read_remove`: what is read afterwards;
* `writeBytes_of_length`: a writer that is alone appends;
* `FilledBy`: the bytes of a text are where their writers put them, with zeros in between.
-/

namespace LiteCode

/-- Bytes are written at an offset; what is left out before it is filled with zeros. -/
def writeBytes (text : Bytes) (off : Nat) (chunk : Bytes) : Bytes :=
  text.take off ++ List.replicate (off - text.length) 0 ++ chunk ++ text.drop (off + chunk.length)

/-- The names of the files, and their texts by number. A file has one name at most. -/
structure Disk where
  names : Bytes → Option Nat
  texts : List Bytes
  lt : ∀ p n, names p = some n → n < texts.length
  inj : ∀ p q n, names p = some n → names q = some n → p = q

namespace Disk

/-- A disk without files. -/
def empty : Disk := ⟨fun _ => none, [], by simp, by simp⟩

/-- What the file of a name holds. -/
def read (d : Disk) (p : Bytes) : Option Bytes := (d.names p).bind fun n => d.texts[n]?

/-- A file gets another text. -/
def setText (d : Disk) (n : Nat) (text : Bytes) : Disk where
  names := d.names
  texts := d.texts.set n text
  lt p m h := by simpa using d.lt p m h
  inj := d.inj

/-- A new file gets a name. -/
def create (d : Disk) (p : Bytes) : Disk where
  names q := if q = p then some d.texts.length else d.names q
  texts := d.texts ++ [[]]
  lt q m hq := by
    rw [List.length_append, List.length_singleton]
    split_ifs at hq with hqp
    · cases hq
      exact Nat.lt_succ_self _
    · exact Nat.lt_succ_of_lt (d.lt q m hq)
  inj q r m hq hr := by
    split_ifs at hq hr with hqp hrp hrp
    · exact hqp.trans hrp.symm
    · cases hq
      exact absurd (d.lt r _ hr) (Nat.lt_irrefl _)
    · cases hr
      exact absurd (d.lt q _ hq) (Nat.lt_irrefl _)
    · exact d.inj q r m hq hr

/-- The file of a name is opened to be written from the start on: the disk, and the number of the
    file. -/
def openTrunc (d : Disk) (p : Bytes) : Disk × Nat :=
  match d.names p with
  | some n => (d.setText n [], n)
  | none => (d.create p, d.texts.length)

/-- Bytes are written into an open file. -/
def write (d : Disk) (n off : Nat) (chunk : Bytes) : Disk :=
  d.setText n (writeBytes (d.texts.getD n []) off chunk)

/-- A name is removed. -/
def remove (d : Disk) (p : Bytes) : Disk where
  names q := if q = p then none else d.names q
  texts := d.texts
  lt q m hq := by
    split_ifs at hq
    exact d.lt q m hq
  inj q r m hq hr := by
    split_ifs at hq hr
    exact d.inj q r m hq hr

variable {d : Disk} {p q : Bytes} {n off : Nat} {chunk text : Bytes}

theorem read_of_names (h : d.names p = some n) : d.read p = d.texts[n]? := by
  rw [read, h, Option.bind_some]

/-- A file is read through its name. -/
theorem read_eq_some_iff :
    d.read p = some text ↔ ∃ n, d.names p = some n ∧ d.texts[n]? = some text :=
  Option.bind_eq_some_iff

/-- What has a name can be read. -/
theorem exists_read (h : d.names p = some n) : ∃ text, d.read p = some text := by
  rw [read_of_names h]
  exact ⟨_, List.getElem?_eq_getElem (d.lt p n h)⟩

/-! ## Opening -/

/-- The opened file has the name. -/
theorem names_openTrunc_self : (d.openTrunc p).1.names p = some (d.openTrunc p).2 := by
  rw [openTrunc]
  split
  case h_1 n h => exact h
  case h_2 h => exact if_pos rfl

/-- The other names stay. -/
theorem names_openTrunc_of_ne (h : q ≠ p) : (d.openTrunc p).1.names q = d.names q := by
  rw [openTrunc]
  split
  case h_1 n hn => rfl
  case h_2 hn => exact if_neg h

/-- The file that is opened is empty. -/
theorem read_openTrunc_self : (d.openTrunc p).1.read p = some [] := by
  rw [read_of_names names_openTrunc_self, openTrunc]
  split
  case h_1 n h => exact List.getElem?_set_self (d.lt p n h)
  case h_2 h => exact List.getElem?_concat_length

/-- The others are as they were. -/
theorem read_openTrunc_of_ne (h : q ≠ p) : (d.openTrunc p).1.read q = d.read q := by
  rw [read, read, names_openTrunc_of_ne h]
  cases hq : d.names q with
  | none => rfl
  | some m =>
    rw [Option.bind_some, Option.bind_some, openTrunc]
    split
    case h_1 n hn =>
      refine List.getElem?_set_ne fun hnm => ?_
      rw [hnm] at hn
      exact h (d.inj q p m hq hn)
    case h_2 hn => exact List.getElem?_append_left (d.lt q m hq)

/-- No file goes away when one is opened. -/
theorem length_openTrunc : d.texts.length ≤ (d.openTrunc p).1.texts.length := by
  rw [openTrunc]
  split
  case h_1 n hn => exact Nat.le_of_eq List.length_set.symm
  case h_2 hn => exact Nat.le_of_lt (List.length_append ▸ Nat.lt_succ_self _)

/-- Names of the old files are the old ones. -/
theorem names_of_openTrunc (h : (d.openTrunc p).1.names q = some n) (hn : n < d.texts.length) :
    d.names q = some n := by
  by_cases hqp : q = p
  · rw [hqp, names_openTrunc_self, Option.some.injEq, openTrunc] at h
    split at h
    case h_1 m hm =>
      rw [hqp, hm]
      exact congrArg some h
    case h_2 hm => exact absurd hn (h ▸ Nat.lt_irrefl _)
  · rwa [names_openTrunc_of_ne hqp] at h

/-! ## Writing and removing -/

theorem names_write : (d.write n off chunk).names = d.names := rfl

/-- A chunk is written to the file that was opened. -/
theorem read_write_self (hp : d.names p = some n) (h : d.read p = some text) :
    (d.write n off chunk).read p = some (writeBytes text off chunk) := by
  rw [read_of_names hp] at h
  have hset : (d.write n off chunk).texts[n]? = some (writeBytes (d.texts.getD n []) off chunk) :=
    List.getElem?_set_self (d.lt p n hp)
  rw [read_of_names (show (d.write n off chunk).names p = some n from hp), hset,
    List.getD_eq_getElem?_getD, h, Option.getD_some]

/-- The other files stay. -/
theorem read_write_of_ne (h : d.names p ≠ some n) : (d.write n off chunk).read p = d.read p := by
  rw [read, read, names_write]
  cases hp : d.names p with
  | none => rfl
  | some m =>
    refine List.getElem?_set_ne fun hnm => ?_
    rw [hnm] at h
    exact h hp

theorem names_remove_of_ne (h : q ≠ p) : (d.remove p).names q = d.names q := if_neg h

/-- A removed name is gone. -/
theorem read_remove_self : (d.remove p).read p = none := by
  rw [read, show (d.remove p).names p = none from if_pos rfl]
  rfl

/-- The other names are read as before. -/
theorem read_remove_of_ne (h : q ≠ p) : (d.remove p).read q = d.read q := by
  rw [read, read, names_remove_of_ne h]
  rfl

end Disk

/-! ## Texts -/

variable {text chunk content : Bytes} {off i : Nat} {b : UInt8}

/-- A chunk at the end is appended. -/
theorem writeBytes_of_length (h : text.length = off) :
    writeBytes text off chunk = text ++ chunk := by
  rw [writeBytes, ← h, Nat.sub_self, List.take_length, List.drop_of_length_le (by omega)]
  simp

/-- A writer that is alone has written its bytes up to where it is. -/
theorem writeBytes_take (n : Nat) (h : off ≤ content.length) :
    writeBytes (content.take off) off ((content.drop off).take n) = content.take (off + n) := by
  rw [writeBytes_of_length (by rw [List.length_take, Nat.min_eq_left h]), List.take_add]

/-- The bytes of a text are zeros, or were put where they are. -/
def FilledBy (P : Nat → UInt8 → Prop) (text : Bytes) : Prop :=
  ∀ i b, text[i]? = some b → b = 0 ∨ P i b

theorem filledBy_nil {P : Nat → UInt8 → Prop} : FilledBy P [] := by
  intro i b h
  simp at h

theorem FilledBy.mono {P Q : Nat → UInt8 → Prop} (h : FilledBy P text)
    (hPQ : ∀ i b, P i b → Q i b) : FilledBy Q text :=
  fun i b hb => (h i b hb).imp_right (hPQ i b)

/-- A byte was there before, or fills a hole, or is of the chunk. -/
theorem getElem?_writeBytes (h : (writeBytes text off chunk)[i]? = some b) :
    text[i]? = some b ∨ b = 0 ∨ off ≤ i ∧ chunk[i - off]? = some b := by
  rw [writeBytes, List.append_assoc, List.append_assoc, List.getElem?_append,
    List.getElem?_append, List.getElem?_append, List.length_take, List.length_replicate] at h
  split_ifs at h with htake hzero hchunk
  · rw [List.getElem?_take_of_lt (by omega)] at h
    exact .inl h
  · exact .inr (.inl (List.eq_of_mem_replicate (List.mem_of_getElem? h)))
  · refine .inr (.inr ⟨by omega, ?_⟩)
    rwa [show i - min off text.length - (off - text.length) = i - off by omega] at h
  · rw [List.getElem?_drop] at h
    left
    rwa [show off + chunk.length +
      (i - min off text.length - (off - text.length) - chunk.length) = i by omega] at h

/-- A text is still filled by `P` if the chunk is. -/
theorem FilledBy.writeBytes {P : Nat → UInt8 → Prop} (h : FilledBy P text)
    (hchunk : ∀ i b, chunk[i]? = some b → P (off + i) b) :
    FilledBy P (writeBytes text off chunk) := by
  intro i b hb
  rcases getElem?_writeBytes hb with hb | hb | ⟨hi, hb⟩
  · exact h i b hb
  · exact .inl hb
  · have hP := hchunk _ b hb
    rw [Nat.add_sub_cancel' hi] at hP
    exact .inr hP

end LiteCode
