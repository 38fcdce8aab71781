import LiteCode.Db.ProblemRepo
import LiteCode.Lib.SortedList
import LiteCode.Routes.ErrorHandler
import Mathlib.Data.Nat.Basic

/-!
# The audit log

`src/db/audit_log_repo.h`: the table `audit_logs`, to which rows are added and never changed, and
the statements that count and list the rows that pass a filter. A statement is put together from the
predicates of the filter that are set; its placeholders are bound in their order, but the numbers
before the texts. `list` counts with one statement and reads with another, and the table may grow in
between.

The database compares texts by the collation of the columns, and takes a text for a date; both are
parameters. A date that passes the check of the program may be none for the database, and then the
statement fails. A call that throws is taken to have had no effect: no reply of the database is
lost.

* `AuditLogs`: the rows in the order in which they were added, with the clock of the database;
* `bindAll_append`: each placeholder is bound to the value of its predicate;
* `list_spec`: a call fails if a statement does or a date is none; otherwise the filter selects what
  it says, and the newest row comes first.
-/

namespace LiteCode.AuditLogRepo

open ErrorHandler (bind_eq_ok)
open ProblemRepo (Fault)

/-! ## The rows -/

/-- `AuditRow`. -/
structure AuditRow where
  id : Int
  adminId : Option Int
  action : Bytes
  targetType : Option Bytes
  targetId : Option Bytes
  payload : Option Bytes
  ip : Option Bytes
  /-- In seconds. -/
  createdAt : Nat
  deriving DecidableEq, Repr

/-- `AuditEntry`. The payload is what `dump` makes of it, or the text of its exception. -/
structure AuditEntry where
  adminId : Option Int
  action : Bytes
  targetType : Option Bytes
  targetId : Option Bytes
  payload : Except Bytes Bytes
  ip : Option Bytes

/-- `AuditListFilter`. -/
structure AuditListFilter where
  adminId : Option Int := none
  action : Option Bytes := none
  targetType : Option Bytes := none
  targetId : Option Bytes := none
  since : Option Bytes := none
  untilDate : Option Bytes := none
  limit : Int := 20
  offset : Int := 0
  deriving DecidableEq, Repr

/-- `AuditListResult`. -/
structure AuditListResult where
  items : List AuditRow
  total : Nat
  limit : Int
  offset : Int
  deriving DecidableEq, Repr

/-- The table `audit_logs`, with the clock of the database. -/
structure AuditLogs where
  rows : List AuditRow
  nextId : Int
  /-- In seconds. -/
  now : Nat
  ids : rows.Pairwise fun a b => a.id < b.id
  ids_lt : ∀ r ∈ rows, r.id < nextId
  times : rows.Pairwise fun a b => a.createdAt ≤ b.createdAt
  times_le : ∀ r ∈ rows, r.createdAt ≤ now

/-! ## The checks -/

/-- A control character. -/
def isControl (c : UInt8) : Bool := decide (c < 0x20) || c == 0x7F

/-- The error for a text with a control character. -/
def checkControl (name : String) (s : Bytes) : Option Bytes :=
  if s.any isControl then some (bytes name ++ bytes " must not contain control characters")
  else none

/-- The error for a text that is too long, or has a control character. -/
def checkText (name : String) (max : Nat) (s : Bytes) : Option Bytes :=
  if max < s.length then some (bytes name ++ bytes " length must be <= " ++ decimal max)
  else checkControl name s

/-- The error for a text whose length is out of a range, or that has a control character. -/
def checkRange (name : String) (min max : Nat) (s : Bytes) : Option Bytes :=
  if s.length < min ∨ max < s.length then
    some (bytes name ++ bytes " length must be between " ++ decimal min ++ bytes " and " ++
      decimal max)
  else checkControl name s

/-- `validate_action`. -/
def validateAction : Bytes → Option Bytes := checkRange "action" 1 50

/-- `validate_target_type`. -/
def validateTargetType : Bytes → Option Bytes := checkText "target_type" 50

/-- `validate_target_id`. -/
def validateTargetId : Bytes → Option Bytes := checkText "target_id" 100

/-- `validate_ip`. -/
def validateIp (ip : Bytes) : Option Bytes :=
  if ip.isEmpty then some (bytes "ip must not be empty") else checkText "ip" 45 ip

/-- `validate_datetime`. -/
def validateDatetime : Bytes → Option Bytes := checkRange "datetime" 10 19

/-- `clamp_list_filter`. -/
def clampListFilter (f : AuditListFilter) : AuditListFilter :=
  let limit := if f.limit ≤ 0 then 20 else f.limit
  { f with
    limit := if limit > 100 then 100 else limit
    offset := if f.offset < 0 then 0 else f.offset }

/-! ## Writing -/

/-- The exceptions. -/
inductive Failure
  /-- `AuditLogRepoError`. -/
  | repo (what : Bytes)
  /-- An exception of `dump`. -/
  | other (what : Bytes)
  deriving DecidableEq, Repr

/-- The checks of `record`. -/
def checkEntry (e : AuditEntry) : Option Bytes :=
  (validateAction e.action).or ((e.targetType.bind validateTargetType).or
    ((e.targetId.bind validateTargetId).or (e.ip.bind validateIp)))

/-- The row of an entry. `stored` is what the database makes of the payload. -/
def AuditLogs.newRow (t : AuditLogs) (e : AuditEntry) (stored : Option Bytes) : AuditRow :=
  ⟨t.nextId, e.adminId, e.action, e.targetType, e.targetId, stored, e.ip, t.now⟩

/-- The `INSERT`. -/
def AuditLogs.insert (t : AuditLogs) (e : AuditEntry) (stored : Option Bytes) : AuditLogs where
  rows := t.rows ++ [t.newRow e stored]
  nextId := t.nextId + 1
  now := t.now
  ids := List.pairwise_append.2 ⟨t.ids, List.pairwise_singleton _ _, fun r hr r' hr' => by
    rw [List.mem_singleton.1 hr']
    exact t.ids_lt r hr⟩
  ids_lt := forall_mem_concat (fun r hr => Int.lt_add_one_of_le (Int.le_of_lt (t.ids_lt r hr)))
    (Int.lt_succ t.nextId)
  times := List.pairwise_append.2 ⟨t.times, List.pairwise_singleton _ _, fun r hr r' hr' => by
    rw [List.mem_singleton.1 hr']
    exact t.times_le r hr⟩
  times_le := forall_mem_concat t.times_le (Nat.le_refl t.now)

/-- Time passes. -/
def AuditLogs.tick (t : AuditLogs) (d : Nat) : AuditLogs where
  rows := t.rows
  nextId := t.nextId
  now := t.now + d
  ids := t.ids
  ids_lt := t.ids_lt
  times := t.times
  times_le r hr := Nat.le_add_right_of_le (t.times_le r hr)

/-- `record`: the new id. `db` is what the database stores of the payload, or the text of the
    exception, as when the admin does not exist. -/
def record (t : AuditLogs) (e : AuditEntry) (db : Except Bytes (Option Bytes)) :
    Except Failure (Int × AuditLogs) :=
  match checkEntry e with
  | some err => .error (.repo (bytes "record: " ++ err))
  | none =>
    match e.payload with
    | .error what => .error (.other what)
    | .ok _ =>
      match db with
      | .error what => .error (.repo (bytes "audit_log_repo::record: " ++ what))
      | .ok stored => .ok (t.nextId, t.insert e stored)

/-- `record_best_effort`: the id is 0 if there is no new row. -/
def recordBestEffort (t : AuditLogs) (e : AuditEntry) (db : Except Bytes (Option Bytes)) :
    Int × AuditLogs :=
  match record t e db with
  | .ok x => x
  | .error _ => (0, t)

/-! ## Reading -/

/-- The database: its collation, and what it takes a text for as a date. -/
structure Database where
  weight : Bytes → Bytes
  datetime : Bytes → Option Nat
  /-- The text of the exception for a text that is no date. -/
  undated : Bytes → Bytes
  /-- The text of the exception if the values do not fit the placeholders. -/
  unbound : Bytes

/-- The text of the exception for a date, if there is one. -/
def Database.undated? (db : Database) (s : Bytes) : Option Bytes :=
  if (db.datetime s).isNone then some (db.undated s) else none

/-- The predicates of a statement, each with one placeholder. -/
inductive Clause
  /-- `admin_id = ?` -/
  | adminId
  /-- `action = ?` -/
  | action
  /-- `target_type = ?` -/
  | targetType
  /-- `target_id = ?` -/
  | targetId
  /-- `created_at >= ?` -/
  | since
  /-- `created_at <  ?` -/
  | untilDate
  deriving DecidableEq, Repr

/-- A value for a placeholder. -/
inductive Value
  | int (n : Int)
  | text (s : Bytes)
  deriving DecidableEq, Repr

/-- A predicate with its value, on a row. A number is not compared with a text here. -/
def Clause.holds (db : Database) (r : AuditRow) : Clause × Value → Bool
  | (.adminId, .int n) => r.adminId == some n
  | (.action, .text s) => db.weight r.action == db.weight s
  | (.targetType, .text s) => r.targetType.any (db.weight · == db.weight s)
  | (.targetId, .text s) => r.targetId.any (db.weight · == db.weight s)
  | (.since, .text s) => (db.datetime s).any fun d => decide (d ≤ r.createdAt)
  | (.untilDate, .text s) => (db.datetime s).any fun d => decide (r.createdAt < d)
  | _ => false

/-- The text of the exception for a value that is compared with a date and is none. -/
def Clause.undated? (db : Database) : Clause × Value → Option Bytes
  | (.since, .text s) => db.undated? s
  | (.untilDate, .text s) => db.undated? s
  | _ => none

/-- `WhereClause`. -/
structure WhereClause where
  clauses : List Clause
  boundInt : List Int
  boundStr : List Bytes
  deriving DecidableEq, Repr

/-- A predicate on a number is appended, if its value is set. -/
def WhereClause.appendInt (w : WhereClause) (c : Clause) : Option Int → WhereClause
  | none => w
  | some n => { w with clauses := w.clauses ++ [c], boundInt := w.boundInt ++ [n] }

/-- A predicate on a text is appended, if its value is set. -/
def WhereClause.appendStr (w : WhereClause) (c : Clause) : Option Bytes → WhereClause
  | none => w
  | some s => { w with clauses := w.clauses ++ [c], boundStr := w.boundStr ++ [s] }

/-- A predicate on a date is appended, if its value is set and passes the check. -/
def WhereClause.appendDate (w : WhereClause) (c : Clause) (name : String) :
    Option Bytes → Except Bytes WhereClause
  | none => .ok w
  | some s =>
    match validateDatetime s with
    | some err => .error (bytes name ++ bytes ": " ++ err)
    | none => .ok (w.appendStr c (some s))

/-- `build_where_clause`. -/
def buildWhereClause (f : AuditListFilter) : Except Bytes WhereClause := do
  let w := (WhereClause.mk [] [] []).appendInt .adminId f.adminId
  let w := w.appendStr .action f.action
  let w := w.appendStr .targetType f.targetType
  let w := w.appendStr .targetId f.targetId
  let w ← w.appendDate .since "since" f.since
  w.appendDate .untilDate "until" f.untilDate

/-- The values of the filter, in the order in which they are bound. -/
def WhereClause.values (w : WhereClause) : List Value :=
  w.boundInt.map .int ++ w.boundStr.map .text

/-- The placeholders of the predicates take the values in turn. -/
def bindAll : List Clause → List Value → Option (List (Clause × Value) × List Value)
  | [], vs => some ([], vs)
  | c :: cs, v :: vs => (bindAll cs vs).map fun x => ((c, v) :: x.1, x.2)
  | _ :: _, [] => none

/-- A statement of the call `name` is executed: its predicates with their values, and the values
    that are left. -/
def execute (db : Database) (name : String) (fault : Option Fault) (cs : List Clause)
    (vs : List Value) : Except Bytes (List (Clause × Value) × List Value) :=
  match fault with
  | some fault => .error (fault.rethrow name)
  | none =>
    match bindAll cs vs with
    | none => .error (bytes name ++ bytes ": " ++ db.unbound)
    | some x =>
      match x.1.findSome? (Clause.undated? db) with
      | some what => .error (bytes name ++ bytes ": " ++ what)
      | none => .ok x

/-- `count`. -/
def count (db : Database) (t : AuditLogs) (f : AuditListFilter) (fault : Option Fault) :
    Except Bytes Nat :=
  match buildWhereClause (clampListFilter f) with
  | .error err => .error (bytes "audit_log_repo::count: " ++ err)
  | .ok w =>
    match execute db "audit_log_repo::count" fault w.clauses w.values with
    | .error what => .error what
    | .ok (ps, []) => .ok (t.rows.countP fun r => ps.all (Clause.holds db r))
    | .ok _ => .error (bytes "audit_log_repo::count: " ++ db.unbound)

/-- `row_to_audit`. -/
def rowToAudit (r : AuditRow) : AuditRow := { r with adminId := r.adminId.filter (0 < ·) }

/-- `ORDER BY created_at DESC, id DESC`. -/
def Newer (a b : AuditRow) : Prop :=
  b.createdAt < a.createdAt ∨ b.createdAt = a.createdAt ∧ b.id ≤ a.id

instance : DecidableRel Newer := fun _ _ => inferInstanceAs (Decidable (_ ∨ _))

/-- `list`: it counts in the table `t₁`, and reads from `t₂`. -/
def list (db : Database) (t₁ t₂ : AuditLogs) (f : AuditListFilter)
    (countFault listFault : Option Fault) : Except Bytes AuditListResult := do
  let f := clampListFilter f
  let total ← count db t₁ f countFault
  match buildWhereClause f with
  | .error err => .error (bytes "audit_log_repo::list: " ++ err)
  | .ok w =>
    match execute db "audit_log_repo::list" listFault w.clauses
      (w.values ++ [.int f.limit, .int f.offset]) with
    | .error what => .error what
    | .ok (ps, [.int limit, .int offset]) =>
      let selected := t₂.rows.filter fun r => ps.all (Clause.holds db r)
      let items := ((selected.insertionSort Newer).drop offset.toNat).take limit.toNat
      .ok ⟨items.map rowToAudit, total, f.limit, f.offset⟩
    | .ok _ => .error (bytes "audit_log_repo::list: " ++ db.unbound)

/-! ## What the statements select -/

/-- What a filter asks of a row. -/
structure Matches (db : Database) (f : AuditListFilter) (r : AuditRow) : Prop where
  adminId : ∀ a ∈ f.adminId, r.adminId = some a
  action : ∀ s ∈ f.action, db.weight r.action = db.weight s
  targetType : ∀ s ∈ f.targetType, ∃ x ∈ r.targetType, db.weight x = db.weight s
  targetId : ∀ s ∈ f.targetId, ∃ x ∈ r.targetId, db.weight x = db.weight s
  since : ∀ s ∈ f.since, ∃ d ∈ db.datetime s, d ≤ r.createdAt
  untilDate : ∀ s ∈ f.untilDate, ∃ d ∈ db.datetime s, r.createdAt < d

/-- The dates of a filter pass the check. -/
def AuditListFilter.Dated (f : AuditListFilter) : Prop :=
  (∀ s ∈ f.since, validateDatetime s = none) ∧ ∀ s ∈ f.untilDate, validateDatetime s = none

/-- The text of the exception for a date of the filter. -/
def AuditListFilter.undated? (f : AuditListFilter) (db : Database) : Option Bytes :=
  (f.since.bind db.undated?).or (f.untilDate.bind db.undated?)

variable {db : Database} {w w' : WhereClause} {f : AuditListFilter} {r : AuditRow} {c : Clause}
  {fault countFault listFault : Option Fault}

/-- The values go with the predicates. -/
def WhereClause.Aligned (w : WhereClause) : Prop := w.clauses.length = w.values.length

/-- The predicates hold of a row, each with its value. -/
def WhereClause.selects (w : WhereClause) (db : Database) (r : AuditRow) : Bool :=
  (w.clauses.zip w.values).all (Clause.holds db r)

/-- The text of the exception for a date among the values. -/
def WhereClause.undated? (w : WhereClause) (db : Database) : Option Bytes :=
  (w.clauses.zip w.values).findSome? (Clause.undated? db)

/-- The placeholders of the clauses take the first values, one each. -/
theorem bindAll_append {cs : List Clause} {vs : List Value} (h : cs.length = vs.length)
    (rest : List Value) : bindAll cs (vs ++ rest) = some (cs.zip vs, rest) := by
  induction cs generalizing vs with
  | nil => rw [List.length_eq_zero_iff.1 h.symm]; rfl
  | cons c cs ih =>
    cases vs with
    | nil => cases h
    | cons v vs =>
      rw [List.cons_append, bindAll, ih (Nat.succ.inj h)]
      rfl

theorem values_appendStr (s : Bytes) : (w.appendStr c (some s)).values = w.values ++ [.text s] := by
  simp [WhereClause.values, WhereClause.appendStr]

/-- A predicate is appended together with its value. -/
theorem WhereClause.Aligned.appendStr (h : w.Aligned) (c : Clause) (s : Option Bytes) :
    (w.appendStr c s).Aligned := by
  cases s with
  | none => exact h
  | some s =>
    rw [Aligned, values_appendStr, List.length_append, ← h]
    exact List.length_append

/-- The new predicate goes with the new value. -/
theorem zip_appendStr (h : w.Aligned) (s : Bytes) :
    (w.appendStr c (some s)).clauses.zip (w.appendStr c (some s)).values =
      w.clauses.zip w.values ++ [(c, .text s)] := by
  rw [values_appendStr]
  exact List.zip_append h

/-- An appended predicate narrows the selection, if its parameter was sent. -/
theorem selects_appendStr (h : w.Aligned) (s : Option Bytes) :
    (w.appendStr c s).selects db r =
      (w.selects db r && s.all fun s => Clause.holds db r (c, .text s)) := by
  cases s with
  | none => exact (Bool.and_true _).symm
  | some s =>
    rw [WhereClause.selects, zip_appendStr h, List.all_append]
    simp [WhereClause.selects]

/-- The first date that the database cannot read is the one that it names. -/
theorem undated?_appendStr (h : w.Aligned) (s : Option Bytes) :
    (w.appendStr c s).undated? db =
      (w.undated? db).or (s.bind fun s => Clause.undated? db (c, .text s)) := by
  cases s with
  | none => exact (Option.or_none).symm
  | some s =>
    rw [WhereClause.undated?, zip_appendStr h, List.findSome?_append]
    simp [WhereClause.undated?]

/-- A date parameter is taken if it has the form of one. -/
theorem appendDate_eq_ok_iff {name : String} {s : Option Bytes} :
    w.appendDate c name s = .ok w' ↔
      (∀ x ∈ s, validateDatetime x = none) ∧ w.appendStr c s = w' := by
  cases s with
  | none => simp [WhereClause.appendDate, WhereClause.appendStr]
  | some s =>
    rw [WhereClause.appendDate]
    cases hs : validateDatetime s <;> simp [hs]

/-- The clause of a filter. -/
def AuditListFilter.whereClause (f : AuditListFilter) : WhereClause :=
  let w := (WhereClause.mk [] [] []).appendInt .adminId f.adminId
  let w := w.appendStr .action f.action
  let w := w.appendStr .targetType f.targetType
  let w := w.appendStr .targetId f.targetId
  let w := w.appendStr .since f.since
  w.appendStr .untilDate f.untilDate

/-- The clause is built exactly if the dates have the form of dates. -/
theorem buildWhereClause_eq_ok_iff : buildWhereClause f = .ok w ↔ f.Dated ∧ f.whereClause = w := by
  simp only [buildWhereClause, bind_eq_ok, appendDate_eq_ok_iff]
  constructor
  · rintro ⟨_, ⟨hsince, rfl⟩, huntil, rfl⟩
    exact ⟨⟨hsince, huntil⟩, rfl⟩
  · rintro ⟨⟨hsince, huntil⟩, rfl⟩
    exact ⟨_, ⟨hsince, rfl⟩, huntil, rfl⟩

theorem aligned_appendInt (a : Option Int) :
    ((WhereClause.mk [] [] []).appendInt .adminId a).Aligned := by
  cases a <;> rfl

/-- Every placeholder is bound to the value of its own predicate. -/
theorem aligned_whereClause (f : AuditListFilter) : f.whereClause.Aligned :=
  (((((aligned_appendInt f.adminId).appendStr _ _).appendStr _ _).appendStr _ _).appendStr _
    _).appendStr _ _

/-- The clause that has only the number of the admin, if it was sent. -/
theorem selects_appendInt (a : Option Int) :
    ((WhereClause.mk [] [] []).appendInt .adminId a).selects db r =
      a.all fun a => r.adminId == some a := by
  cases a with
  | none => rfl
  | some a => exact Bool.and_true _

/-- The predicates with their values say what the filter asks. -/
theorem selects_whereClause : f.whereClause.selects db r = true ↔ Matches db f r := by
  have h₀ := aligned_appendInt f.adminId
  have h₁ := h₀.appendStr .action f.action
  have h₂ := h₁.appendStr .targetType f.targetType
  have h₃ := h₂.appendStr .targetId f.targetId
  have h₄ := h₃.appendStr .since f.since
  simp only [AuditListFilter.whereClause]
  rw [selects_appendStr h₄, selects_appendStr h₃, selects_appendStr h₂, selects_appendStr h₁,
    selects_appendStr h₀, selects_appendInt]
  simp only [Bool.and_eq_true, Option.all_eq_true, Clause.holds, Option.any_eq_true, beq_iff_eq,
    decide_eq_true_eq]
  constructor
  · rintro ⟨⟨⟨⟨⟨ha, hb⟩, hc⟩, hd⟩, he⟩, hf⟩
    exact ⟨ha, hb, hc, hd, he, hf⟩
  · rintro ⟨ha, hb, hc, hd, he, hf⟩
    exact ⟨⟨⟨⟨⟨ha, hb⟩, hc⟩, hd⟩, he⟩, hf⟩

instance : DecidablePred (Matches db f) := fun _ => decidable_of_iff _ selects_whereClause

theorem undated?_appendInt (a : Option Int) :
    ((WhereClause.mk [] [] []).appendInt .adminId a).undated? db = none := by
  cases a <;> rfl

/-- The dates among the values are those of the filter. -/
theorem undated?_whereClause : f.whereClause.undated? db = f.undated? db := by
  have h₀ := aligned_appendInt f.adminId
  have h₁ := h₀.appendStr .action f.action
  have h₂ := h₁.appendStr .targetType f.targetType
  have h₃ := h₂.appendStr .targetId f.targetId
  have h₄ := h₃.appendStr .since f.since
  have hnone : ∀ s : Option Bytes, (s.bind fun _ => (none : Option Bytes)) = none := by simp
  simp only [AuditListFilter.whereClause]
  rw [undated?_appendStr h₄, undated?_appendStr h₃, undated?_appendStr h₂, undated?_appendStr h₁,
    undated?_appendStr h₀, undated?_appendInt]
  simp only [Clause.undated?, hnone, Option.or_none, Option.none_or]
  rfl

/-- A statement with the predicates of a filter. -/
theorem execute_whereClause (db : Database) (f : AuditListFilter) (name : String)
    (fault : Option Fault) (rest : List Value) :
    execute db name fault f.whereClause.clauses (f.whereClause.values ++ rest) =
      match fault, f.undated? db with
      | some fault, _ => .error (fault.rethrow name)
      | none, some what => .error (bytes name ++ bytes ": " ++ what)
      | none, none => .ok (f.whereClause.clauses.zip f.whereClause.values, rest) := by
  cases fault with
  | some fault => rfl
  | none =>
    have hundated := @undated?_whereClause db f
    rw [WhereClause.undated?] at hundated
    simp only [execute, bindAll_append (aligned_whereClause f), hundated]
    cases f.undated? db <;> rfl

/-! ## The order -/

/-- The rows are in the order of their insertion: none is older than one before it. -/
theorem AuditLogs.pairwise_not_newer (t : AuditLogs) :
    t.rows.Pairwise fun a b => ¬Newer a b := by
  refine (t.ids.and t.times).imp fun ⟨hid, htime⟩ hnewer => ?_
  rcases hnewer with h | ⟨_, h⟩ <;> omega

/-- The rows that pass a filter, the newest first. -/
def AuditLogs.matching (db : Database) (f : AuditListFilter) (t : AuditLogs) : List AuditRow :=
  t.rows.reverse.filter fun r => Matches db f r

/-- The page that is asked for has from 1 to 100 rows. -/
theorem clampListFilter_bounds (f : AuditListFilter) :
    1 ≤ (clampListFilter f).limit ∧ (clampListFilter f).limit ≤ 100 ∧
      0 ≤ (clampListFilter f).offset := by
  simp only [clampListFilter]
  split_ifs <;> omega

/-- The bounds of the page do not change what is asked for. -/
theorem matching_clamp (t : AuditLogs) : t.matching db (clampListFilter f) = t.matching db f :=
  List.filter_congr fun _ _ => decide_eq_decide.2
    ⟨fun ⟨ha, hb, hc, hd, he, hf⟩ => ⟨ha, hb, hc, hd, he, hf⟩,
      fun ⟨ha, hb, hc, hd, he, hf⟩ => ⟨ha, hb, hc, hd, he, hf⟩⟩

/-- The rows of a statement, in the order of the table. -/
theorem filter_selects (t : AuditLogs) :
    (t.rows.filter fun r => f.whereClause.selects db r).reverse = t.matching db f := by
  rw [AuditLogs.matching, ← List.filter_reverse]
  refine List.filter_congr fun r _ => ?_
  rw [Bool.eq_iff_iff, selects_whereClause, decide_eq_true_eq]

/-- `count` answers the number of rows that the parameters ask for, if no statement fails. -/
theorem count_eq (t : AuditLogs) (hf : f.Dated) :
    count db t f fault =
      match fault, f.undated? db with
      | some fault, _ => .error (fault.rethrow "audit_log_repo::count")
      | none, some what => .error (bytes "audit_log_repo::count" ++ bytes ": " ++ what)
      | none, none => .ok (t.matching db f).length := by
  have hw : buildWhereClause (clampListFilter f) = .ok (clampListFilter f).whereClause :=
    buildWhereClause_eq_ok_iff.2 ⟨hf, rfl⟩
  have hexecute :=
    execute_whereClause db (clampListFilter f) "audit_log_repo::count" fault []
  rw [List.append_nil] at hexecute
  have hundated : (clampListFilter f).undated? db = f.undated? db := rfl
  simp only [count, hw, hexecute, hundated]
  cases fault with
  | some fault => rfl
  | none =>
    cases f.undated? db with
    | some what => rfl
    | none =>
      simp only
      rw [List.countP_eq_length_filter, ← matching_clamp, ← filter_selects, List.length_reverse]
      rfl

/-- The page that a filter asks for: the rows that pass it, the newest first, from the offset on,
    and their number in the table `t₁`. -/
def AuditListFilter.page (f : AuditListFilter) (db : Database) (t₁ t₂ : AuditLogs) :
    AuditListResult where
  items := (((t₂.matching db f).drop (clampListFilter f).offset.toNat).take
    (clampListFilter f).limit.toNat).map rowToAudit
  total := (t₁.matching db f).length
  limit := (clampListFilter f).limit
  offset := (clampListFilter f).offset

/-- `list` gives the page, unless a statement fails or a date of the filter is none. -/
theorem list_spec (t₁ t₂ : AuditLogs) (hf : f.Dated) :
    match list db t₁ t₂ f countFault listFault with
    | .error _ => countFault ≠ none ∨ listFault ≠ none ∨ f.undated? db ≠ none
    | .ok page => countFault = none ∧ listFault = none ∧ f.undated? db = none ∧
      page = f.page db t₁ t₂ := by
  have hw : buildWhereClause (clampListFilter f) = .ok (clampListFilter f).whereClause :=
    buildWhereClause_eq_ok_iff.2 ⟨hf, rfl⟩
  have hexecute := execute_whereClause db (clampListFilter f) "audit_log_repo::list" listFault
    [.int (clampListFilter f).limit, .int (clampListFilter f).offset]
  have hundated : (clampListFilter f).undated? db = f.undated? db := rfl
  simp only [list, count_eq t₁ (f := clampListFilter f) hf, matching_clamp, hw, hexecute, hundated]
  cases countFault with
  | some fault => exact .inl nofun
  | none =>
    cases hdate : f.undated? db with
    | some what => exact .inr (.inr nofun)
    | none =>
      cases listFault with
      | some fault => exact .inr (.inl nofun)
      | none =>
        have hsort := insertionSort_eq_reverse ((t₂.pairwise_not_newer).filter
          fun r => (clampListFilter f).whereClause.selects db r)
        refine ⟨rfl, rfl, rfl, ?_⟩
        rw [AuditListFilter.page, ← matching_clamp t₂, ← filter_selects t₂, ← hsort]
        rfl

end LiteCode.AuditLogRepo
