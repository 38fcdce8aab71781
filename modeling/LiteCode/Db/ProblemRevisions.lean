import LiteCode.Lib.Bytes
import LiteCode.Lib.ListIndex
import LiteCode.Lib.System
import Mathlib.Data.List.Infix
import Mathlib.Data.List.Nodup

/-!
# Problem revisions

`record` of `src/db/problem_revisions_repo.h` stores a snapshot of a problem under the next free
revision number. The number is `MAX(revision_no) + 1` at the time of the read; the insert comes
later, and other writers of the same problem come in between. The key on
`(problem_id, revision_no)` then refuses the row, `record` tries once more, and gives up with a
conflict the second time. A statement that fails is taken to have had no effect: no reply of the
database is lost.

* `RevisionTable`: the rows, with the keys that the database enforces;
* `Inv`: the numbers of a problem are `1` to the number of its rows, and what a writer is about
  to insert is at most one above. So an insert is refused or takes the next number;
* `record_numbers`: the numbers have no gap and no repetition, and a call has one row if it
  returned and none if it threw.
-/

namespace LiteCode.ProblemRevisions

/-! ## Validation -/

/-- Bytes below the space, and `DEL`. -/
def isControl (c : UInt8) : Bool := c < 0x20 || c == 0x7F

/-- Control characters other than tab, line feed and carriage return. -/
def isControlInDescription (c : UInt8) : Bool :=
  c == 0x00 || c == 0x7F || (c < 0x20 && c != 0x09 && c != 0x0A && c != 0x0D)

/-- The last check of every text. -/
def validateNoControl (isControl : UInt8 → Bool) (name : String) (s : Bytes) :
    Except Bytes Unit :=
  if s.any isControl then .error (bytes name ++ bytes " must not contain control characters")
  else .ok ()

/-- A text of `lo` to `hi` bytes. -/
def validateText (isControl : UInt8 → Bool) (name : String) (lo hi : Nat) (s : Bytes) :
    Except Bytes Unit :=
  if s.length < lo ∨ hi < s.length then
    .error (bytes name ++ bytes " length must be between " ++ decimal lo ++ bytes " and " ++
      decimal hi)
  else validateNoControl isControl name s

/-- A text of at most `hi` bytes. -/
def validateShortText (name : String) (hi : Nat) (s : Bytes) : Except Bytes Unit :=
  if hi < s.length then .error (bytes name ++ bytes " length must be <= " ++ decimal hi)
  else validateNoControl isControl name s

/-- A number from `lo` to `hi`. -/
def validateLimit (name : String) (lo hi : Nat) (v : Int) : Except Bytes Unit :=
  if v < lo ∨ hi < v then
    .error (bytes name ++ bytes " must be between " ++ decimal lo ++ bytes " and " ++ decimal hi)
  else .ok ()

/-- `kMaxRevisionDescriptionLen`, 16 MB. -/
def maxRevisionDescriptionLen : Nat := 16 * 1024 * 1024

def validateAction (action : Bytes) : Except Bytes Unit :=
  if action ≠ bytes "create" ∧ action ≠ bytes "update" then
    .error (bytes "action must be 'create' or 'update'")
  else .ok ()

def validateDifficulty (d : Bytes) : Except Bytes Unit :=
  if d ≠ bytes "easy" ∧ d ≠ bytes "medium" ∧ d ≠ bytes "hard" then
    .error (bytes "difficulty must be one of: easy, medium, hard")
  else .ok ()

def validateSlug : Bytes → Except Bytes Unit := validateText isControl "slug" 1 100

def validateTitle : Bytes → Except Bytes Unit := validateText isControl "title" 1 200

def validateEditorUsername : Bytes → Except Bytes Unit :=
  validateText isControl "editor_username" 1 50

def validateDescription : Bytes → Except Bytes Unit :=
  validateText isControlInDescription "description" 1 maxRevisionDescriptionLen

def validateIp : Bytes → Except Bytes Unit := validateShortText "editor_ip" 45

def validateSummary : Bytes → Except Bytes Unit := validateShortText "summary" 200

def validateTimeLimit : Int → Except Bytes Unit := validateLimit "time_limit" 1 60000

def validateMemoryLimit : Int → Except Bytes Unit := validateLimit "memory_limit" 1 1024

def validateRevisionNo (v : Int) : Except Bytes Unit :=
  if v < 0 then .error (bytes "revision_no must not be negative")
  else if v = 0 then .ok ()
  else if v < 1 ∨ 100000 < v then
    .error (bytes "revision_no must be in [1, 100000] or 0 to let the repo allocate MAX+1")
  else .ok ()

/-- `RevisionEntry`. The two snapshots are given by what `dump` makes of them: a text, or the
    message of its exception. -/
structure RevisionEntry where
  problemId : Int
  revisionNo : Int
  editorId : Option Int
  editorUsername : Bytes
  editorIp : Option Bytes
  action : Bytes
  slug : Bytes
  title : Bytes
  difficulty : Bytes
  timeLimit : Int
  memoryLimit : Int
  description : Bytes
  tagsSnapshot : Except Bytes Bytes
  samplesSnapshot : Except Bytes Bytes
  summary : Option Bytes
  deriving DecidableEq

/-- The first part of `record`. -/
def RevisionEntry.validate (e : RevisionEntry) : Except Bytes Unit := do
  validateAction e.action
  validateSlug e.slug
  validateTitle e.title
  validateDifficulty e.difficulty
  validateTimeLimit e.timeLimit
  validateMemoryLimit e.memoryLimit
  validateEditorUsername e.editorUsername
  validateDescription e.description
  e.editorIp.forM validateIp
  e.summary.forM validateSummary
  if e.revisionNo ≠ 0 then validateRevisionNo e.revisionNo

/-- What `record` throws. -/
inductive RecordError
  | repo (what : Bytes)
  | conflict (what : Bytes)
  /-- An exception of `dump` or of the connection pool. -/
  | other (what : Bytes)
  deriving DecidableEq

/-- The snapshots as texts. -/
def RevisionEntry.dump (e : RevisionEntry) : Except RecordError (Bytes × Bytes) := do
  let tags ← e.tagsSnapshot.mapError .other
  let samples ← e.samplesSnapshot.mapError .other
  if maxRevisionDescriptionLen < tags.length then
    throw (.repo (bytes "record: tags_snapshot serialization exceeds 16MB"))
  if maxRevisionDescriptionLen < samples.length then
    throw (.repo (bytes "record: samples_snapshot serialization exceeds 16MB"))
  return (tags, samples)

/-- All that `record` does before it asks for a connection. -/
def RevisionEntry.prepare (e : RevisionEntry) : Except RecordError (Bytes × Bytes) := do
  e.validate.mapError fun err => .repo (bytes "record: " ++ err)
  e.dump

/-! ## The table -/

/-- A row of `problem_revisions`: the entry that was stored, and the call that stored it, if it
    is one of those that are observed. -/
structure RevisionRow where
  id : Nat
  revisionNo : Nat
  entry : RevisionEntry
  writer : Option Nat
  deriving DecidableEq

/-- The columns of the unique key. -/
def RevisionRow.key (r : RevisionRow) : Int × Nat := (r.entry.problemId, r.revisionNo)

/-- The rows, with the unique key on the number and the ids given out in turn. -/
structure RevisionTable where
  rows : List RevisionRow
  nextId : Nat
  unique : (rows.map RevisionRow.key).Nodup
  id_lt : ∀ r ∈ rows, r.id < nextId

namespace RevisionTable

/-- The revision numbers of a problem. -/
def numbers (t : RevisionTable) (problemId : Int) : List Nat :=
  (t.rows.filter fun r => r.entry.problemId = problemId).map RevisionRow.revisionNo

/-- `COALESCE(MAX(revision_no), 0)`. -/
def maxRevisionNo (t : RevisionTable) (problemId : Int) : Nat := (t.numbers problemId).max?.getD 0

/-- The rows that a call stored. -/
def rowsOf (t : RevisionTable) (p : Nat) : List RevisionRow :=
  t.rows.filter fun r => r.writer = some p

/-- The message of the error 1062. -/
def duplicateEntry (problemId : Int) (revisionNo : Nat) : Bytes :=
  bytes "Duplicate entry '" ++ decimalInt problemId ++ bytes "-" ++ decimal revisionNo ++
    bytes "' for key 'problem_revisions.uq_problem_revisions_problem_revno'"

theorem unique_concat (t : RevisionTable) {r : RevisionRow}
    (h : r.key ∉ t.rows.map RevisionRow.key) :
    ((t.rows ++ [r]).map RevisionRow.key).Nodup :=
  nodup_map_concat t.unique fun _ hx he => h (he ▸ List.mem_map_of_mem hx)

theorem id_lt_concat (t : RevisionTable) {r : RevisionRow} (h : r.id = t.nextId) :
    ∀ x ∈ t.rows ++ [r], x.id < t.nextId + 1 := by
  refine forall_mem_concat (fun x hx => Nat.lt_succ_of_lt (t.id_lt x hx)) ?_
  rw [h]
  exact Nat.lt_succ_self _

/-- `INSERT`: the table and the id of the row, or the error of the unique key. -/
def insert (t : RevisionTable) (e : RevisionEntry) (revisionNo : Nat) (writer : Option Nat) :
    Except Bytes (RevisionTable × Nat) :=
  if h : (e.problemId, revisionNo) ∉ t.rows.map RevisionRow.key then
    .ok ({
      rows := t.rows ++ [⟨t.nextId, revisionNo, e, writer⟩]
      nextId := t.nextId + 1
      unique := t.unique_concat (r := ⟨t.nextId, revisionNo, e, writer⟩) h
      id_lt := t.id_lt_concat rfl }, t.nextId)
  else .error (duplicateEntry e.problemId revisionNo)

end RevisionTable

/-! ## Calls -/

/-- An exception of the driver, or another one. -/
inductive Fault
  | driver (what : Bytes)
  | other (what : Bytes)
  deriving DecidableEq

/-- The part of a call that is still to come. -/
inductive Pc
  | acquire
  /-- The `SELECT` of the attempt. -/
  | readMax (attempt : Nat)
  /-- The `INSERT` of the attempt, with the number that was read or forced. -/
  | insert (attempt revisionNo : Nat)
  | returned (id : Nat)
  | threw (e : RecordError)
  deriving DecidableEq

/-- A call of `record`. -/
structure Call where
  entry : RevisionEntry
  pc : Pc
  deriving DecidableEq

/-- Is it the error 1062? -/
def looksLikeDupKeyError (what : Bytes) : Bool :=
  bytes "Duplicate entry" <:+: what || bytes "duplicate" <:+: what || bytes "1062" <:+: what

/-- The body of the loop begins. -/
def RevisionEntry.attempt (e : RevisionEntry) (attempt : Nat) : Pc :=
  if 0 < e.revisionNo then .insert attempt e.revisionNo.toNat else .readMax attempt

/-- The handlers of the loop. -/
def RevisionEntry.caught (e : RevisionEntry) (attempt : Nat) : Fault → Pc
  | .driver what =>
    if looksLikeDupKeyError what then
      if attempt = 0 then e.attempt 1
      else .threw (.conflict (bytes
        "problem_revisions_repo::record: revision_no collision after retry: " ++ what))
    else .threw (.repo (bytes "problem_revisions_repo::record: " ++ what))
  | .other what => .threw (.repo (bytes "problem_revisions_repo::record: " ++ what))

/-- A call of `record`, up to the connection. -/
def record (e : RevisionEntry) : Call :=
  match e.prepare with
  | .ok _ => ⟨e, .acquire⟩
  | .error err => ⟨e, .threw err⟩

/-- The table and the calls. -/
structure State where
  table : RevisionTable
  calls : List Call

/-- A call begins, or the call `p` goes on, with an exception if there is a `fault`. -/
inductive Action
  | record (e : RevisionEntry)
  | proceed (p : Nat) (fault : Option Fault)
  deriving DecidableEq

/-- The call `p` goes on at `pc`. -/
def State.goto (s : State) (p : Nat) (c : Call) (pc : Pc) : State :=
  { s with calls := s.calls.set p { c with pc } }

/-- The next part of the call `p`. -/
def proceed (s : State) (p : Nat) (c : Call) (fault : Option Fault) : Option State :=
  match c.pc, fault with
  | .acquire, none => some (s.goto p c (c.entry.attempt 0))
  | .acquire, some (.driver what) => some (s.goto p c (.threw (.other what)))
  | .acquire, some (.other what) => some (s.goto p c (.threw (.other what)))
  | .readMax attempt, none =>
    some (s.goto p c (.insert attempt (s.table.maxRevisionNo c.entry.problemId + 1)))
  | .readMax attempt, some fault => some (s.goto p c (c.entry.caught attempt fault))
  | .insert attempt revisionNo, none =>
    match s.table.insert c.entry revisionNo (some p) with
    | .ok (table, id) => some ({ s with table }.goto p c (.returned id))
    | .error what => some (s.goto p c (c.entry.caught attempt (.driver what)))
  | .insert attempt _, some fault => some (s.goto p c (c.entry.caught attempt fault))
  | .returned _, _ => none
  | .threw _, _ => none

/-- One step. -/
def step (s : State) : Action → Option State
  | .record e => some { s with calls := s.calls ++ [ProblemRevisions.record e] }
  | .proceed p fault => s.calls[p]?.bind fun c => proceed s p c fault

/-- The numbers of every problem are `1` to the number of its rows. -/
def RevisionTable.Numbered (t : RevisionTable) : Prop :=
  ∀ problemId, (t.numbers problemId).Perm (List.range' 1 (t.numbers problemId).length)

/-- Any table whose numbers have no gap, before the calls. -/
def system : System State Action where
  init s := s.table.Numbered ∧ (∀ r ∈ s.table.rows, r.writer = none) ∧ s.calls = []
  step := step

/-- The calls let `record` choose the number. -/
def Unforced : State → Action → Prop
  | _, .record e => e.revisionNo = 0
  | _, .proceed _ _ => True

instance (s : State) : (a : Action) → Decidable (Unforced s a)
  | .record e => inferInstanceAs (Decidable (e.revisionNo = 0))
  | .proceed _ _ => isTrue trivial

/-! ## The numbers -/

variable {s s' : State} {a : Action} {c : Call} {p : Nat} {t t' : RevisionTable}
  {e : RevisionEntry} {revisionNo : Nat}

namespace RevisionTable

theorem maxRevisionNo_eq (h : t.Numbered) (problemId : Int) :
    t.maxRevisionNo problemId = (t.numbers problemId).length := by
  have hmem : ∀ x, x ∈ t.numbers problemId ↔ 1 ≤ x ∧ x < 1 + (t.numbers problemId).length :=
    fun x => (h problemId).mem_iff.trans List.mem_range'_1
  rw [maxRevisionNo]
  cases hm : (t.numbers problemId).max? with
  | none =>
    rw [List.max?_eq_none_iff.1 hm]
    rfl
  | some m =>
    obtain ⟨hin, hmax⟩ := List.max?_eq_some_iff.1 hm
    have hm := (hmem m).1 hin
    have := hmax (t.numbers problemId).length ((hmem _).2 (by omega))
    rw [Option.getD_some]
    omega

/-- A row that is inserted has a number that was free. -/
theorem insert_eq_ok {id : Nat} (h : t.insert e revisionNo (some p) = .ok (t', id)) :
    t'.rows = t.rows ++ [⟨id, revisionNo, e, some p⟩] ∧
      revisionNo ∉ t.numbers e.problemId := by
  rw [insert] at h
  split_ifs at h with hkey
  cases h
  refine ⟨rfl, fun hmem => hkey ?_⟩
  obtain ⟨r, hr, rfl⟩ := List.mem_map.1 hmem
  obtain ⟨hr, hid⟩ := List.mem_filter.1 hr
  exact List.mem_map.2 ⟨r, hr, Prod.ext (of_decide_eq_true hid) rfl⟩

theorem numbers_concat {r : RevisionRow} (h : t'.rows = t.rows ++ [r]) (problemId : Int) :
    t'.numbers problemId =
      t.numbers problemId ++ if r.entry.problemId = problemId then [r.revisionNo] else [] := by
  rw [numbers, h, List.filter_append, List.map_append, List.filter_singleton]
  by_cases hid : r.entry.problemId = problemId <;> simp [numbers, hid]

theorem rowsOf_concat {r : RevisionRow} (h : t'.rows = t.rows ++ [r]) (q : Nat) :
    t'.rowsOf q = t.rowsOf q ++ if r.writer = some q then [r] else [] := by
  rw [rowsOf, h, List.filter_append, List.filter_singleton]
  by_cases hw : r.writer = some q <;> simp [rowsOf, hw]

/-- A free number that is at most one above the rows is the next one. -/
theorem Numbered.insert {id : Nat} (h : t.Numbered)
    (ht : t.insert e revisionNo (some p) = .ok (t', id))
    (hno : 1 ≤ revisionNo ∧ revisionNo ≤ (t.numbers e.problemId).length + 1) : t'.Numbered := by
  obtain ⟨hrows, hfree⟩ := insert_eq_ok ht
  intro problemId
  rw [numbers_concat hrows]
  by_cases hid : e.problemId = problemId
  · subst hid
    have hnext : revisionNo = 1 + (t.numbers e.problemId).length := by
      rw [(h e.problemId).mem_iff, List.mem_range'_1] at hfree
      omega
    rw [if_pos rfl, List.length_append, List.length_singleton, List.range'_1_concat, ← hnext]
    exact (h e.problemId).append_right _
  · rw [if_neg hid, List.append_nil]
    exact h problemId

/-- A call has the row whose id it returned, and no other; a call that did not return has none. -/
def Written (t : RevisionTable) (p : Nat) : Option Call → Prop
  | some ⟨e, .returned id⟩ => ∃ revisionNo, t.rowsOf p = [⟨id, revisionNo, e, some p⟩]
  | _ => t.rowsOf p = []

theorem Written.of_not_returned (hc : ∀ id, c.pc ≠ .returned id) :
    t.Written p (some c) ↔ t.rowsOf p = [] := by
  obtain ⟨e, pc⟩ := c
  cases pc with
  | returned id => exact absurd rfl (hc id)
  | _ => rfl

end RevisionTable

/-- The numbers, and where the calls are. -/
structure Inv (s : State) : Prop where
  numbered : s.table.Numbered
  unforced : ∀ c ∈ s.calls, c.entry.revisionNo = 0
  next : ∀ c ∈ s.calls, ∀ attempt revisionNo, c.pc = .insert attempt revisionNo →
    1 ≤ revisionNo ∧ revisionNo ≤ (s.table.numbers c.entry.problemId).length + 1
  written : ∀ p, s.table.Written p s.calls[p]?

theorem attempt_eq (h : e.revisionNo = 0) (attempt : Nat) : e.attempt attempt = .readMax attempt :=
  if_neg (by omega)

/-- An attempt that failed is the last one, or the loop reads again. -/
theorem caught_eq (h : e.revisionNo = 0) (attempt : Nat) (fault : Fault) :
    e.caught attempt fault = .readMax 1 ∨ ∃ err, e.caught attempt fault = .threw err := by
  cases fault with
  | driver what =>
    simp only [RevisionEntry.caught]
    split_ifs
    · exact .inl (attempt_eq h 1)
    · exact .inr ⟨_, rfl⟩
    · exact .inr ⟨_, rfl⟩
  | other what => exact .inr ⟨_, rfl⟩

/-- A call that goes on without a write. -/
theorem Inv.goto (h : Inv s) (hp : s.calls[p]? = some c) (hc : ∀ id, c.pc ≠ .returned id) {pc : Pc}
    (hpc : ∀ id, pc ≠ .returned id)
    (hnext : ∀ attempt revisionNo, pc = .insert attempt revisionNo →
      1 ≤ revisionNo ∧ revisionNo ≤ (s.table.numbers c.entry.problemId).length + 1) :
    Inv (s.goto p c pc) where
  numbered := h.numbered
  unforced x hx := by
    rcases List.mem_or_eq_of_mem_set hx with hx | rfl
    · exact h.unforced x hx
    · exact h.unforced c (List.mem_of_getElem? hp)
  next x hx := by
    rcases List.mem_or_eq_of_mem_set hx with hx | rfl
    · exact h.next x hx
    · exact hnext
  written q := by
    change s.table.Written q (s.calls.set p { c with pc })[q]?
    by_cases hq : p = q
    · subst hq
      have hw := h.written p
      rw [hp, RevisionTable.Written.of_not_returned hc] at hw
      rw [getElem?_set_of_some hp]
      exact (RevisionTable.Written.of_not_returned hpc).2 hw
    · rw [List.getElem?_set_ne hq]
      exact h.written q

/-- A call whose row is inserted. -/
theorem Inv.insert (h : Inv s) (hp : s.calls[p]? = some c) {attempt id : Nat}
    (hc : c.pc = .insert attempt revisionNo)
    (ht : s.table.insert c.entry revisionNo (some p) = .ok (t', id)) :
    Inv ({ s with table := t' }.goto p c (.returned id)) where
  numbered := h.numbered.insert ht (h.next c (List.mem_of_getElem? hp) _ _ hc)
  unforced x hx := by
    rcases List.mem_or_eq_of_mem_set hx with hx | rfl
    · exact h.unforced x hx
    · exact h.unforced c (List.mem_of_getElem? hp)
  next x hx attempt no hpc := by
    rcases List.mem_or_eq_of_mem_set hx with hx | rfl
    · -- the numbers only grow
      have := h.next x hx attempt no hpc
      change _ ∧ _ ≤ (t'.numbers _).length + 1
      rw [RevisionTable.numbers_concat (RevisionTable.insert_eq_ok ht).1, List.length_append]
      omega
    · cases hpc
  written q := by
    change t'.Written q (s.calls.set p { c with pc := .returned id })[q]?
    have hrows := RevisionTable.rowsOf_concat (RevisionTable.insert_eq_ok ht).1 q
    have hw := h.written q
    by_cases hq : p = q
    · subst hq
      rw [hp, RevisionTable.Written.of_not_returned (by simp [hc])] at hw
      rw [getElem?_set_of_some hp]
      exact ⟨revisionNo, by rw [hrows, hw, if_pos rfl, List.nil_append]⟩
    · rw [if_neg (by simpa using hq), List.append_nil] at hrows
      rw [List.getElem?_set_ne hq]
      cases hcall : s.calls[q]? with
      | none => rw [hcall] at hw; exact hrows.trans hw
      | some x =>
        rw [hcall] at hw
        obtain ⟨e, pc⟩ := x
        cases pc <;> simpa only [RevisionTable.Written, hrows] using hw

/-- A call whose attempt failed. -/
theorem Inv.caught (h : Inv s) (hp : s.calls[p]? = some c) (hc : ∀ id, c.pc ≠ .returned id)
    (attempt : Nat) (fault : Fault) : Inv (s.goto p c (c.entry.caught attempt fault)) := by
  have he := h.unforced c (List.mem_of_getElem? hp)
  rcases caught_eq he attempt fault with hpc | ⟨err, hpc⟩
  · rw [hpc]
    exact h.goto hp hc (by simp) (by simp)
  · rw [hpc]
    exact h.goto hp hc (by simp) (by simp)

theorem Inv.proceed (h : Inv s) (hp : s.calls[p]? = some c) {fault : Option Fault}
    (hs : proceed s p c fault = some s') : Inv s' := by
  have he := h.unforced c (List.mem_of_getElem? hp)
  cases hpc : c.pc with
  | acquire =>
    rcases fault with _ | what | what
    all_goals
      simp only [ProblemRevisions.proceed, hpc] at hs
      cases hs
    · exact h.goto hp (by simp [hpc]) (by simp [attempt_eq he]) (by simp [attempt_eq he])
    · exact h.goto hp (by simp [hpc]) (by simp) (by simp)
    · exact h.goto hp (by simp [hpc]) (by simp) (by simp)
  | readMax attempt =>
    cases fault with
    | none =>
      simp only [ProblemRevisions.proceed, hpc] at hs
      cases hs
      refine h.goto hp (by simp [hpc]) (by simp) fun k no hno => ?_
      cases hno
      rw [RevisionTable.maxRevisionNo_eq h.numbered]
      omega
    | some fault =>
      simp only [ProblemRevisions.proceed, hpc] at hs
      cases hs
      exact h.caught hp (by simp [hpc]) _ _
  | insert attempt revisionNo =>
    cases fault with
    | none =>
      simp only [ProblemRevisions.proceed, hpc] at hs
      cases ht : s.table.insert c.entry revisionNo (some p) with
      | ok r =>
        rw [ht] at hs
        cases hs
        exact h.insert hp hpc ht
      | error what =>
        rw [ht] at hs
        cases hs
        exact h.caught hp (by simp [hpc]) _ _
    | some fault =>
      simp only [ProblemRevisions.proceed, hpc] at hs
      cases hs
      exact h.caught hp (by simp [hpc]) _ _
  | returned id => simp [ProblemRevisions.proceed, hpc] at hs
  | threw err => simp [ProblemRevisions.proceed, hpc] at hs

/-- A call begins, and has come to the connection or has thrown. -/
theorem record_eq (e : RevisionEntry) :
    (record e).entry = e ∧ ((record e).pc = .acquire ∨ ∃ err, (record e).pc = .threw err) := by
  rw [record]
  split
  · exact ⟨rfl, .inl rfl⟩
  · exact ⟨rfl, .inr ⟨_, rfl⟩⟩

theorem Inv.record (h : Inv s) (he : e.revisionNo = 0) :
    Inv { s with calls := s.calls ++ [record e] } := by
  obtain ⟨hentry, hpc⟩ := record_eq e
  have hnew : ∀ id, (ProblemRevisions.record e).pc ≠ .returned id := by
    rcases hpc with hpc | ⟨err, hpc⟩ <;> simp [hpc]
  refine ⟨h.numbered, fun x hx => ?_, fun x hx => ?_, fun q => ?_⟩
  · rcases List.mem_append.1 hx with hx | hx
    · exact h.unforced x hx
    · rw [List.mem_singleton.1 hx, hentry, he]
  · rcases List.mem_append.1 hx with hx | hx
    · exact h.next x hx
    · rw [List.mem_singleton.1 hx]
      rcases hpc with hpc | ⟨err, hpc⟩ <;> simp [hpc]
  · -- before its first step the call has no row
    change s.table.Written q (s.calls ++ [ProblemRevisions.record e])[q]?
    cases hcall : (s.calls ++ [ProblemRevisions.record e])[q]? with
    | none =>
      rw [List.getElem?_eq_none_iff, List.length_append] at hcall
      have hw := h.written q
      rwa [List.getElem?_eq_none (by omega)] at hw
    | some x =>
      have hw := h.written q
      rcases getElem?_concat_cases hcall with hcall | ⟨rfl, rfl⟩
      · rwa [hcall] at hw
      · rw [List.getElem?_eq_none (le_refl _)] at hw
        exact (RevisionTable.Written.of_not_returned hnew).2 hw

theorem Inv.step (h : Inv s) (hg : Unforced s a) (hs : step s a = some s') : Inv s' := by
  cases a with
  | record e =>
    cases hs
    exact h.record hg
  | proceed p fault =>
    obtain ⟨c, hp, hs⟩ := Option.bind_eq_some_iff.1 hs
    exact h.proceed hp hs

theorem Inv.init (h : system.init s) : Inv s := by
  obtain ⟨hn, hw, hcalls⟩ := h
  have hc : ∀ c ∈ s.calls, False := by simp [hcalls]
  refine ⟨hn, fun c hx => (hc c hx).elim, fun c hx => (hc c hx).elim, fun p => ?_⟩
  rw [hcalls]
  refine List.filter_eq_nil_iff.2 fun r hr => ?_
  simp [hw r hr]

/-- In every run of calls that let `record` choose the number, with any interleaving and any
    failures: the numbers of every problem are `1` to some `n` once each, a call that returned an
    id has stored its entry in one row, of that id, and a call that threw has stored none. -/
theorem record_numbers (s : State) (h : system.Reach Unforced s) :
    (∀ problemId, ∃ n, (s.table.numbers problemId).Perm (List.range' 1 n)) ∧
    ∀ p c, s.calls[p]? = some c →
      (∀ id, c.pc = .returned id →
        ∃ revisionNo, s.table.rowsOf p = [⟨id, revisionNo, c.entry, some p⟩]) ∧
      (∀ err, c.pc = .threw err → s.table.rowsOf p = []) := by
  have hinv : Inv s := h.invariant (fun _ => Inv.init) fun _ _ _ ht hg hs => ht.step hg hs
  refine ⟨fun problemId => ⟨_, hinv.numbered problemId⟩, fun p c hp => ?_⟩
  have hw := hinv.written p
  obtain ⟨e, pc⟩ := c
  rw [hp] at hw
  refine ⟨fun id hpc => ?_, fun err hpc => ?_⟩
  · cases hpc
    exact hw
  · cases hpc
    exact hw

/-- A snapshot of the problem 5. -/
def snapshot : RevisionEntry where
  problemId := 5
  revisionNo := 0
  editorId := some 1
  editorUsername := bytes "admin"
  editorIp := none
  action := bytes "update"
  slug := bytes "two-sum"
  title := bytes "Two Sum"
  difficulty := bytes "easy"
  timeLimit := 1000
  memoryLimit := 128
  description := bytes "add"
  tagsSnapshot := .ok (bytes "[]")
  samplesSnapshot := .ok (bytes "[]")
  summary := none

/-- Three writers read the same maximum. The first one inserts; the second one is refused and
    tries again; the third one is refused twice, as another row comes in between. -/
theorem record_numbers_three : ∃ s : State, (∃ n, (s.table.numbers 5).Perm (List.range' 1 n)) ∧
    s.table.numbers 5 = [1, 2] ∧ (∃ no, s.table.rowsOf 1 = [⟨2, no, snapshot, some 1⟩]) ∧
    s.table.rowsOf 2 = [] := by
  obtain ⟨s, hl, hs⟩ := System.exists_exec_of_runGuarded (S := system) (G := Unforced)
    (s := ⟨⟨[], 1, List.nodup_nil, by simp⟩, []⟩)
    (l := [.record snapshot, .record snapshot, .record snapshot, .proceed 0 none,
      .proceed 1 none, .proceed 2 none, .proceed 0 none, .proceed 1 none, .proceed 2 none,
      .proceed 0 none, .proceed 1 none, .proceed 2 none, .proceed 1 none, .proceed 2 none,
      .proceed 1 none, .proceed 2 none])
    (p := fun s => s.table.numbers 5 = [1, 2] ∧
      (s.calls[1]?.map fun c => (c.entry, c.pc)) = some (snapshot, .returned 2) ∧
      s.calls[2]?.any fun c => c.pc matches .threw _) (by decide +kernel)
  obtain ⟨hn, h1, h2⟩ := of_decide_eq_true hs
  obtain ⟨c, hp, hc⟩ := Option.map_eq_some_iff.1 h1
  obtain ⟨hentry, hpc⟩ := Prod.mk.injEq .. ▸ hc
  have hrec := record_numbers s ⟨_, _, ⟨fun _ => .refl _, by simp, rfl⟩, hl⟩
  refine ⟨s, hrec.1 5, hn, hentry ▸ (hrec.2 1 c hp).1 2 hpc, ?_⟩
  cases hq : s.calls[2]? with
  | none => simp [hq] at h2
  | some x =>
    rw [hq, Option.any_some] at h2
    cases hx : x.pc with
    | threw err => exact (hrec.2 2 x hq).2 err hx
    | _ => simp [hx] at h2

end LiteCode.ProblemRevisions
