import Mathlib.Data.List.Nodup
import Mathlib.Tactic.SplitIfs
import LiteCode.Lib.Bytes
import LiteCode.Lib.ListIndex

/-!
# The submissions table

`src/db/submission_repo.h`: the rows of the `submissions` table and the statements that write
them. A call is one SQL statement, executed atomically; whether the statement succeeds is decided
by the server, so every call takes the outcome `db` of its statement (`.error` with the driver's
message), and a statement that fails is taken to have had no effect: no reply is lost.

* `Table.update`: an `UPDATE ... SET ... WHERE ...` and its affected-row count;
* `create`, `markRunning`, `markFinished`, `requeueStuckRunning`: the writers of the table.
  `markFinished` refuses, before any statement, a status that is not a terminal one;
* `markRunning_spec`, `markFinished_spec`, `requeueStuckRunning_spec`: what each of them does to
  one row, and what it answers.
-/

namespace LiteCode.SubmissionRepo

/-- The values of the column `status`. -/
inductive Status
  | pending
  | running
  | ac
  | wa
  | re
  | tle
  | mle
  | ole
  | pe
  | ce
  | se
  deriving DecidableEq, Repr

/-- The string of a status in SQL, in JSON and in the code. -/
def Status.name : Status → Bytes
  | .pending => bytes "pending"
  | .running => bytes "running"
  | .ac => bytes "ac"
  | .wa => bytes "wa"
  | .re => bytes "re"
  | .tle => bytes "tle"
  | .mle => bytes "mle"
  | .ole => bytes "ole"
  | .pe => bytes "pe"
  | .ce => bytes "ce"
  | .se => bytes "se"

/-- `is_valid_status`. -/
def isValidStatus (s : Bytes) : Bool :=
  s == bytes "pending" || s == bytes "running" ||
  s == bytes "ac" || s == bytes "wa" || s == bytes "re" || s == bytes "tle" ||
  s == bytes "mle" || s == bytes "ole" || s == bytes "pe" || s == bytes "ce" ||
  s == bytes "se"

/-- `is_terminal_status`: anything except the two transient states. -/
def isTerminalStatus (s : Bytes) : Bool := s != bytes "pending" && s != bytes "running"

/-- `is_valid_language`. -/
def isValidLanguage (s : Bytes) : Bool := s == bytes "c" || s == bytes "cpp"

/-- `validate_code_length`: from `kMinCodeLength` to `kMaxCodeLength` bytes. -/
def validateCodeLength (len : Nat) : Bool := 1 ≤ len && len ≤ 15 * 1024 * 1024

/-- The row is done: its status is neither `pending` nor `running`. -/
def Status.terminal (s : Status) : Bool := isTerminalStatus s.name

/-- The member of the enumeration that a string denotes. -/
def Status.ofName? (s : Bytes) : Option Status :=
  [.pending, .running, .ac, .wa, .re, .tle, .mle, .ole, .pe, .ce, .se].find? fun st => st.name == s

/-- A name is read as its status. -/
theorem Status.ofName?_name (s : Status) : Status.ofName? s.name = some s := by
  cases s <;> decide

/-- The valid status strings are the names of the enumeration. -/
theorem isValidStatus_iff (b : Bytes) : isValidStatus b ↔ ∃ s : Status, s.name = b := by
  constructor
  · intro h
    simp only [isValidStatus, Bool.or_eq_true, beq_iff_eq] at h
    rcases h with (((((((((h | h) | h) | h) | h) | h) | h) | h) | h) | h) | h
    exacts [⟨.pending, h.symm⟩, ⟨.running, h.symm⟩, ⟨.ac, h.symm⟩, ⟨.wa, h.symm⟩, ⟨.re, h.symm⟩,
      ⟨.tle, h.symm⟩, ⟨.mle, h.symm⟩, ⟨.ole, h.symm⟩, ⟨.pe, h.symm⟩, ⟨.ce, h.symm⟩, ⟨.se, h.symm⟩]
  · rintro ⟨s, rfl⟩
    cases s <;> decide

/-- The states that are not terminal are the two of the scheduler. -/
theorem Status.terminal_iff (s : Status) : s.terminal ↔ s ≠ .pending ∧ s ≠ .running := by
  cases s <;> decide

@[simp]
theorem Status.terminal_pending : Status.pending.terminal = false := by decide

@[simp]
theorem Status.terminal_running : Status.running.terminal = false := by decide

/-- A row of the table. Times are the seconds of the database server. -/
structure SubmissionRow where
  id : Nat
  userId : Int
  problemId : Int
  language : Bytes
  code : Bytes
  status : Status
  timeUsed : Option Int
  memoryUsed : Option Int
  errorMessage : Option Bytes
  createdAt : Nat
  finishedAt : Option Nat
  deriving DecidableEq, Repr

/-- The table: its primary key is unique, and the next `AUTO_INCREMENT` value unused. -/
structure Table where
  rows : List SubmissionRow
  nextId : Nat
  nodup : (rows.map (·.id)).Nodup
  fresh : ∀ r ∈ rows, r.id < nextId

namespace Table

/-- The table after `TRUNCATE`. -/
def empty : Table := ⟨[], 1, List.nodup_nil, by simp⟩

/-- The row with a primary key. -/
def row (t : Table) (id : Nat) : Option SubmissionRow := t.rows.find? (·.id == id)

/-- An assignment of columns other than the primary key. -/
structure Assignment where
  set : SubmissionRow → SubmissionRow
  id_set : ∀ r, (set r).id = r.id

/-- The row after an update: rewritten if it meets the `WHERE` clause. -/
def updateRow (cond : SubmissionRow → Bool) (f : Assignment) (r : SubmissionRow) : SubmissionRow :=
  if cond r then f.set r else r

/-- An `UPDATE` leaves the id as it is. -/
@[simp]
theorem updateRow_id (cond : SubmissionRow → Bool) (f : Assignment) (r : SubmissionRow) :
    (updateRow cond f r).id = r.id := by
  unfold updateRow
  split
  · exact f.id_set r
  · rfl

/-- `UPDATE submissions SET f WHERE cond`. -/
def update (t : Table) (cond : SubmissionRow → Bool) (f : Assignment) : Table where
  rows := t.rows.map (updateRow cond f)
  nextId := t.nextId
  nodup := by
    rw [List.map_map]
    exact (List.map_congr_left fun r _ => updateRow_id cond f r) ▸ t.nodup
  fresh r hr := by
    obtain ⟨r', hr', rfl⟩ := List.mem_map.1 hr
    simpa using t.fresh r' hr'

/-- `getAffectedItemsCount`: the rows that the update changes. -/
def affected (t : Table) (cond : SubmissionRow → Bool) (f : Assignment) : Nat :=
  t.rows.countP fun r => cond r && f.set r != r

variable {t : Table} {cond : SubmissionRow → Bool} {f : Assignment} {id : Nat}

/-- An `UPDATE` is seen by the next read. -/
theorem row_update : (t.update cond f).row id = (t.row id).map (updateRow cond f) := by
  rw [row, row, update, List.find?_map]
  congr 2
  funext r
  simp

/-- A row is found by its id. -/
theorem id_of_row {r : SubmissionRow} (h : t.row id = some r) : r.id = id :=
  (mem_of_find?_key h).2

theorem mem_of_row {r : SubmissionRow} (h : t.row id = some r) : r ∈ t.rows :=
  List.mem_of_find?_eq_some h

/-- The rows are those found by their primary key. -/
theorem row_of_mem {r : SubmissionRow} (h : r ∈ t.rows) : t.row r.id = some r :=
  (find?_key_eq_some_iff t.nodup).2 ⟨h, rfl⟩

/-- An update restricted to one primary key affects a row iff that row meets the rest of the
    clause, when the assignment changes every such row. -/
theorem affected_pos_iff (hset : ∀ r, cond r → f.set r ≠ r) :
    0 < t.affected (fun r => r.id == id && cond r) f ↔ ∃ r, t.row id = some r ∧ cond r := by
  rw [affected, List.countP_pos_iff]
  constructor
  · rintro ⟨r, hr, hc⟩
    simp only [Bool.and_eq_true, beq_iff_eq] at hc
    exact ⟨r, hc.1.1 ▸ row_of_mem hr, hc.1.2⟩
  · rintro ⟨r, hr, hc⟩
    refine ⟨r, mem_of_row hr, ?_⟩
    simp [id_of_row hr, hc, hset r hc]

end Table

/-! ## The statements -/

/-- The outcome of the statement of a call: `.error` with the driver's message. -/
abbrev Sql := Except Bytes Unit

/-- `create`: `INSERT` a row, whose status is the column's default `pending`. The checks of the
    arguments come before the statement; `none` is the answer `0` (a foreign key is violated). -/
def create (t : Table) (now : Nat) (db : Except Bytes Bool) (userId problemId : Int)
    (language code : Bytes) : Except Bytes (Option Nat) × Table :=
  if !isValidLanguage language then
    (.error (bytes "create: language must be 'c' or 'cpp', got '" ++ language ++ bytes "'"), t)
  else if !validateCodeLength code.length then
    (.error (bytes "create: code length must be between 1 and 15728640 bytes"), t)
  else if userId ≤ 0 then (.error (bytes "create: user_id must be > 0"), t)
  else if problemId ≤ 0 then (.error (bytes "create: problem_id must be > 0"), t)
  else match db with
    | .error e => (.error (bytes "submission_repo::create: " ++ e), t)
    | .ok false => (.ok none, t)
    | .ok true => (.ok (some t.nextId),
        { rows := t.rows ++ [⟨t.nextId, userId, problemId, language, code, .pending, none, none,
            none, now, none⟩]
          nextId := t.nextId + 1
          nodup := by
            rw [List.map_append, List.nodup_append]
            refine ⟨t.nodup, by simp, fun a ha b hb => ?_⟩
            obtain ⟨r, hr, rfl⟩ := List.mem_map.1 ha
            have := t.fresh r hr
            simp only [List.map_cons, List.map_nil, List.mem_singleton] at hb
            omega
          fresh := fun r hr => by
            rcases List.mem_append.1 hr with hr | hr
            · have := t.fresh r hr
              omega
            · rw [List.mem_singleton.1 hr]
              exact Nat.lt_succ_self _ })

/-- `SET status = 'running'`. -/
def setRunning : Table.Assignment := ⟨fun r => { r with status := .running }, fun _ => rfl⟩

/-- `mark_running`: claim a pending row. -/
def markRunning (t : Table) (db : Sql) (id : Nat) : Except Bytes Bool × Table :=
  match db with
  | .error e => (.error (bytes "submission_repo::mark_running: " ++ e), t)
  | .ok () =>
    let cond := fun r : SubmissionRow => r.id == id && r.status == .pending
    (.ok (0 < t.affected cond setRunning), t.update cond setRunning)

/-- `SET status = ?, time_used = ?, memory_used = ?, error_message = ?, finished_at = NOW()`, an
    empty message being stored as `NULL`. -/
def setFinished (now : Nat) (status : Status) (time mem : Option Int) (err : Bytes) :
    Table.Assignment where
  set r := { r with
    status, timeUsed := time, memoryUsed := mem,
    errorMessage := if err.isEmpty then none else some err, finishedAt := some now }
  id_set _ := rfl

/-- `mark_finished`: write a terminal status to a row that is not done yet. A status that is not
    valid, or not terminal, is refused before the statement. -/
def markFinished (t : Table) (now : Nat) (db : Sql) (id : Nat) (status : Bytes)
    (time mem : Option Int) (err : Bytes) : Except Bytes Bool × Table :=
  if !isValidStatus status then
    (.error (bytes "mark_finished: invalid status '" ++ status ++ bytes "'"), t)
  else if !isTerminalStatus status then
    (.error (bytes "mark_finished: status '" ++ status ++ bytes "' is not terminal"), t)
  else match db, Status.ofName? status with
    | .error e, _ => (.error (bytes "submission_repo::mark_finished: " ++ e), t)
    | .ok (), some st =>
      let cond := fun r : SubmissionRow =>
        r.id == id && (r.status == .pending || r.status == .running)
      let f := setFinished now st time mem err
      (.ok (0 < t.affected cond f), t.update cond f)
    -- not reached: a valid status is a member of the enumeration
    | .ok (), none => (.error (bytes "submission_repo::mark_finished: Data truncated"), t)

/-- `SET status = 'pending'`. -/
def setPending : Table.Assignment := ⟨fun r => { r with status := .pending }, fun _ => rfl⟩

/-- `requeue_stuck_running`: give the rows that have been running for too long back to the
    queue. -/
def requeueStuckRunning (t : Table) (now : Nat) (db : Sql) (stuckAfterSeconds : Int) :
    Except Bytes Nat × Table :=
  if stuckAfterSeconds < 1 then
    (.error (bytes "requeue_stuck_running: stuck_after_seconds must be >= 1"), t)
  else match db with
    | .error e => (.error (bytes "submission_repo::requeue_stuck_running: " ++ e), t)
    | .ok () =>
      let cond := fun r : SubmissionRow =>
        r.status == .running && decide ((r.createdAt : Int) < now - stuckAfterSeconds)
      (.ok (t.affected cond setPending), t.update cond setPending)

/-! ## What the statements do to a row -/

variable {t : Table} {now id : Nat} {r : SubmissionRow}

/-- `mark_running` sets the status. -/
@[simp]
theorem setRunning_status : (setRunning.set r).status = .running := rfl

/-- It leaves the time of the end. -/
@[simp]
theorem setRunning_finishedAt : (setRunning.set r).finishedAt = r.finishedAt := rfl

/-- `reset_to_pending` sets the status. -/
@[simp]
theorem setPending_status : (setPending.set r).status = .pending := rfl

/-- It leaves the time of the end. -/
@[simp]
theorem setPending_finishedAt : (setPending.set r).finishedAt = r.finishedAt := rfl

/-- `mark_finished` sets the status. -/
@[simp]
theorem setFinished_status {st : Status} {time mem : Option Int} {err : Bytes} :
    ((setFinished now st time mem err).set r).status = st := rfl

/-- It sets the time of the end. -/
@[simp]
theorem setFinished_finishedAt {st : Status} {time mem : Option Int} {err : Bytes} :
    ((setFinished now st time mem err).set r).finishedAt = some now := rfl

/-- A row that was pending is another one then. -/
theorem setRunning_ne (h : r.status = .pending) : setRunning.set r ≠ r := fun he => by
  have : (setRunning.set r).status = .pending := he ▸ h
  cases this

/-- So is one that was pending or running. -/
theorem setFinished_ne {st : Status} {time mem : Option Int} {err : Bytes}
    (ht : st.terminal) (h : r.status = .pending ∨ r.status = .running) :
    (setFinished now st time mem err).set r ≠ r := fun he => by
  have hs : st = r.status := by conv_rhs => rw [← he, setFinished]
  have := (Status.terminal_iff st).1 ht
  rw [hs] at this
  exact h.elim this.1 this.2

/-- `mark_running` answers true iff the row was pending, and then it is running. -/
theorem markRunning_spec (t : Table) (id : Nat) :
    (markRunning t (.ok ()) id).1 = .ok (decide (∃ r, t.row id = some r ∧ r.status = .pending)) ∧
    ∀ id', (markRunning t (.ok ()) id).2.row id' = (t.row id').map fun r =>
      if id' = id ∧ r.status = .pending then setRunning.set r else r := by
  constructor
  · simp only [markRunning, Except.ok.injEq, decide_eq_decide]
    exact (Table.affected_pos_iff fun r h => setRunning_ne (by simpa using h)).trans (by simp)
  · intro id'
    simp only [markRunning, Table.row_update]
    cases h : t.row id' with
    | none => rfl
    | some r => simp [Table.updateRow, Table.id_of_row h]

/-- `mark_finished` with the name of a terminal status answers true iff the row was not done, and
    then it is written; other strings are refused. -/
theorem markFinished_spec (t : Table) (now id : Nat) (st : Status) (time mem : Option Int)
    (err : Bytes) (ht : st.terminal) :
    (markFinished t now (.ok ()) id st.name time mem err).1 =
      .ok (decide (∃ r, t.row id = some r ∧ (r.status = .pending ∨ r.status = .running))) ∧
    ∀ id', (markFinished t now (.ok ()) id st.name time mem err).2.row id' =
      (t.row id').map fun r => if id' = id ∧ (r.status = .pending ∨ r.status = .running) then
        (setFinished now st time mem err).set r else r := by
  have hv : isValidStatus st.name := (isValidStatus_iff _).2 ⟨st, rfl⟩
  have ht' : isTerminalStatus st.name := ht
  unfold markFinished
  rw [hv, ht', Status.ofName?_name]
  simp only [Bool.not_true, Bool.false_eq_true, if_false]
  constructor
  · rw [Except.ok.injEq, decide_eq_decide]
    refine (Table.affected_pos_iff fun r h => setFinished_ne ht ?_).trans (by simp)
    simpa using h
  · intro id'
    rw [Table.row_update]
    cases h : t.row id' with
    | none => rfl
    | some r => simp [Table.updateRow, Table.id_of_row h]

/-- A call of `mark_finished` that is refused, or whose statement fails, changes nothing. -/
theorem markFinished_cases (t : Table) (now : Nat) (db : Sql) (id : Nat) (status : Bytes)
    (time mem : Option Int) (err : Bytes) :
    (∃ e, markFinished t now db id status time mem err = (.error e, t)) ∨
    ∃ st : Status, st.terminal ∧ st.name = status ∧ db = .ok () := by
  unfold markFinished
  split_ifs with hv ht
  · exact .inl ⟨_, rfl⟩
  · exact .inl ⟨_, rfl⟩
  · cases db with
    | error e => exact .inl ⟨_, rfl⟩
    | ok u =>
      simp only [Bool.not_eq_true', Bool.not_eq_false] at hv ht
      obtain ⟨st, rfl⟩ := (isValidStatus_iff status).1 hv
      exact .inr ⟨st, ht, rfl, rfl⟩

/-- `requeue_stuck_running` only turns running rows into pending ones. -/
theorem requeueStuckRunning_spec (t : Table) (now : Nat) (db : Sql) (secs : Int) (id : Nat) :
    (requeueStuckRunning t now db secs).2.row id = t.row id ∨
    ∃ r, t.row id = some r ∧ r.status = .running ∧
      (requeueStuckRunning t now db secs).2.row id = some (setPending.set r) := by
  unfold requeueStuckRunning
  split_ifs with hs
  · exact .inl rfl
  · cases db with
    | error e => exact .inl rfl
    | ok u =>
      simp only [Table.row_update]
      cases h : t.row id with
      | none => exact .inl rfl
      | some r =>
        simp only [Option.map_some, Table.updateRow]
        split_ifs with hc
        · simp only [Bool.and_eq_true, beq_iff_eq] at hc
          exact .inr ⟨r, rfl, hc.1, rfl⟩
        · exact .inl rfl

/-- `create` adds at most one row, a pending one. -/
theorem create_spec (t : Table) (now : Nat) (db : Except Bytes Bool) (userId problemId : Int)
    (language code : Bytes) (id : Nat) :
    (create t now db userId problemId language code).2.row id = t.row id ∨
    (t.row id = none ∧ ∃ r, (create t now db userId problemId language code).2.row id = some r ∧
      r.status = .pending ∧ r.finishedAt = none) := by
  unfold create
  split_ifs
  · exact .inl rfl
  · exact .inl rfl
  · exact .inl rfl
  · exact .inl rfl
  · match db with
    | .error e => exact .inl rfl
    | .ok false => exact .inl rfl
    | .ok true =>
      simp only [Table.row, List.find?_append]
      cases h : t.rows.find? (·.id == id) with
      | some r => exact .inl rfl
      | none =>
        by_cases hid : t.nextId = id
        · exact .inr ⟨rfl, ⟨id, userId, problemId, language, code, .pending, none, none, none,
            now, none⟩, by simp [hid], rfl, rfl⟩
        · exact .inl (by simp [hid])

end LiteCode.SubmissionRepo
