import LiteCode.Lib.Bytes

/-!
# Transactions

A database session over tables of a type `σ`: what it has committed, and what the open transaction
has made of it, which is visible to nobody else. Any statement may fail, with no effect of its own,
and the server may undo the open transaction with it: a deadlock, or a session that is lost.

`transact` runs writes between `START TRANSACTION` and `COMMIT`, and sends a `ROLLBACK` as soon as
one of them fails; the `ROLLBACK` may fail as well.

* `committed_exec_write`: in a transaction, a write is not committed;
* `transact_ok`: without an exception, all writes are committed;
* `transact_error`: with one, what was committed stays as it was;
* `transact_done`: writes that are not refused are made, if no statement fails.
-/

namespace LiteCode.Transaction

universe u

variable {σ : Type u}

/-- What becomes of a statement that is sent. -/
inductive Outcome
  | done
  /-- It fails. -/
  | failed (what : Bytes)
  /-- It fails, and the server undoes the open transaction. -/
  | aborted (what : Bytes)

/-- A statement. A write may be refused, by a constraint of the tables. -/
inductive Stmt (σ : Type u)
  | begin
  | write (f : σ → Except Bytes σ)
  | commit
  | rollback

/-- A session: the committed tables, those of the open transaction, and the number of the
    statements it was sent. -/
structure Session (σ : Type u) where
  committed : σ
  working : Option σ
  sent : Nat

/-- A session without a transaction. -/
def Session.start (db : σ) : Session σ := ⟨db, none, 0⟩

/-- The effect of a statement. `START TRANSACTION` commits what is open; a write outside of a
    transaction is committed at once. -/
def Stmt.apply : Stmt σ → Session σ → Except Bytes (Session σ)
  | .begin, s =>
    .ok { s with
      committed := s.working.getD s.committed
      working := some (s.working.getD s.committed) }
  | .write f, s =>
    match s.working with
    | some db => (f db).map fun db => { s with working := some db }
    | none => (f s.committed).map fun db => { s with committed := db }
  | .commit, s => .ok { s with committed := s.working.getD s.committed, working := none }
  | .rollback, s => .ok { s with working := none }

/-- A statement is sent. -/
def exec (outcome : Nat → Outcome) (stmt : Stmt σ) (s : Session σ) :
    Except Bytes Unit × Session σ :=
  let s' := { s with sent := s.sent + 1 }
  match outcome s.sent with
  | .failed what => (.error what, s')
  | .aborted what => (.error what, { s' with working := none })
  | .done =>
    match stmt.apply s' with
    | .ok s'' => (.ok (), s'')
    | .error what => (.error what, s')

/-- Statements are sent one after the other, up to the first that fails. -/
def execAll (outcome : Nat → Outcome) : List (Stmt σ) → Session σ → Except Bytes Unit × Session σ
  | [], s => (.ok (), s)
  | stmt :: stmts, s =>
    match exec outcome stmt s with
    | (.ok (), s) => execAll outcome stmts s
    | (.error what, s) => (.error what, s)

/-- Writes in a transaction. -/
def transact (outcome : Nat → Outcome) (writes : List (σ → Except Bytes σ)) (s : Session σ) :
    Except Bytes Unit × Session σ :=
  match exec outcome .begin s with
  | (.error what, s) => (.error what, s)
  | (.ok (), s) =>
    match execAll outcome (writes.map .write ++ [.commit]) s with
    | (.ok (), s) => (.ok (), s)
    | (.error what, s) => (.error what, (exec outcome .rollback s).2)

/-- What others see once the session is given back: the pool resets a session that is given back,
    and the server undoes what is open in one that is dropped. -/
def Session.release (s : Session σ) : σ := s.committed

/-- The writes, one after the other. -/
def writeAll (writes : List (σ → Except Bytes σ)) (db : σ) : Except Bytes σ :=
  writes.foldlM (fun db f => f db) db

/-! ## What is committed -/

variable {outcome : Nat → Outcome} {s : Session σ} {db : σ} {f : σ → Except Bytes σ}
  {writes : List (σ → Except Bytes σ)} {what : Bytes}

/-- A write in a transaction is not committed. -/
theorem committed_exec_write (h : s.working = some db) :
    (exec outcome (.write f) s).2.committed = s.committed := by
  simp only [exec, Stmt.apply, h]
  cases outcome s.sent with
  | failed what => rfl
  | aborted what => rfl
  | done => cases f db <;> rfl

/-- A write that does not fail. -/
theorem working_exec_write (h : s.working = some db)
    (hok : (exec outcome (.write f) s).1 = .ok ()) :
    ∃ db', f db = .ok db' ∧ (exec outcome (.write f) s).2.working = some db' := by
  simp only [exec, Stmt.apply, h] at hok ⊢
  cases hout : outcome s.sent with
  | failed what => simp [hout] at hok
  | aborted what => simp [hout] at hok
  | done =>
    cases hf : f db with
    | error what => simp [hout, hf, Except.map] at hok
    | ok db' => exact ⟨db', rfl, rfl⟩

/-- A `ROLLBACK` commits nothing. -/
theorem committed_exec_rollback : (exec outcome .rollback s).2.committed = s.committed := by
  simp only [exec, Stmt.apply]
  cases outcome s.sent <;> rfl

/-- A `COMMIT` that fails commits nothing. -/
theorem committed_exec_commit_of_error (h : (exec outcome .commit s).1 = .error what) :
    (exec outcome .commit s).2.committed = s.committed := by
  simp only [exec, Stmt.apply] at h ⊢
  cases hout : outcome s.sent with
  | failed what => rfl
  | aborted what => rfl
  | done => simp [hout] at h

/-- A `COMMIT` that does not fail. -/
theorem committed_exec_commit (h : s.working = some db)
    (hok : (exec outcome .commit s).1 = .ok ()) :
    (exec outcome .commit s).2.committed = db := by
  simp only [exec, Stmt.apply, h] at hok ⊢
  cases hout : outcome s.sent with
  | failed what => simp [hout] at hok
  | aborted what => simp [hout] at hok
  | done => rfl

/-- The writes and the `COMMIT` fail: nothing is committed. -/
theorem committed_execAll_of_error (h : s.working = some db)
    (herr : (execAll outcome (writes.map .write ++ [.commit]) s).1 = .error what) :
    (execAll outcome (writes.map .write ++ [.commit]) s).2.committed = s.committed := by
  induction writes generalizing s db with
  | nil =>
    simp only [List.map_nil, List.nil_append, execAll] at herr ⊢
    cases hx : exec outcome .commit s with
    | mk r s' =>
      rw [hx] at herr
      cases r with
      | ok => cases herr
      | error what' => simpa [hx] using committed_exec_commit_of_error (congrArg Prod.fst hx)
  | cons f writes ih =>
    simp only [List.map_cons, List.cons_append, execAll] at herr ⊢
    have hkept : (exec outcome (.write f) s).2.committed = s.committed := committed_exec_write h
    cases hx : exec outcome (.write f) s with
    | mk r s' =>
      rw [hx] at herr hkept
      cases r with
      | error what' => exact hkept
      | ok =>
        obtain ⟨db', -, hdb'⟩ := working_exec_write h (congrArg Prod.fst hx)
        rw [hx] at hdb'
        exact (ih hdb' herr).trans hkept

/-- The writes and the `COMMIT` succeed: what the writes make of the tables is committed. -/
theorem committed_execAll_of_ok (h : s.working = some db)
    (hok : (execAll outcome (writes.map .write ++ [.commit]) s).1 = .ok ()) :
    writeAll writes db =
      .ok (execAll outcome (writes.map .write ++ [.commit]) s).2.committed := by
  induction writes generalizing s db with
  | nil =>
    simp only [List.map_nil, List.nil_append, execAll] at hok ⊢
    cases hx : exec outcome .commit s with
    | mk r s' =>
      rw [hx] at hok
      cases r with
      | error what' => cases hok
      | ok =>
        have hdb := committed_exec_commit h (congrArg Prod.fst hx)
        rw [hx] at hdb
        exact congrArg Except.ok hdb.symm
  | cons f writes ih =>
    simp only [List.map_cons, List.cons_append, execAll] at hok ⊢
    cases hx : exec outcome (.write f) s with
    | mk r s' =>
      rw [hx] at hok
      cases r with
      | error what' => cases hok
      | ok =>
        obtain ⟨db', hf, hdb'⟩ := working_exec_write h (congrArg Prod.fst hx)
        rw [hx] at hdb'
        rw [writeAll, List.foldlM_cons, hf]
        exact ih hdb' hok

/-! ## All or nothing -/

/-- `START TRANSACTION` outside of a transaction. -/
theorem exec_begin (outcome : Nat → Outcome) (h : s.working = none) :
    (exec outcome .begin s).2.committed = s.committed ∧
      ((exec outcome .begin s).1 = .ok () →
        (exec outcome .begin s).2.working = some s.committed) := by
  simp only [exec, Stmt.apply, h]
  cases outcome s.sent <;> simp

/-- With an exception, what was committed stays as it was. -/
theorem transact_error (h : s.working = none)
    (herr : (transact outcome writes s).1 = .error what) :
    (transact outcome writes s).2.committed = s.committed := by
  obtain ⟨hkept, hworking⟩ := exec_begin outcome h
  rw [transact] at herr ⊢
  cases hx : exec outcome .begin s with
  | mk r s₁ =>
    rw [hx] at herr hkept hworking
    cases r with
    | error what' => exact hkept
    | ok =>
      dsimp only at herr ⊢
      cases hy : execAll outcome (writes.map .write ++ [.commit]) s₁ with
      | mk r s₂ =>
        rw [hy] at herr
        cases r with
        | ok => cases herr
        | error what' =>
          have hall := committed_execAll_of_error (hworking rfl) (congrArg Prod.fst hy)
          rw [hy] at hall
          exact committed_exec_rollback.trans (hall.trans hkept)

/-- Without an exception, all writes are committed. -/
theorem transact_ok (h : s.working = none) (hok : (transact outcome writes s).1 = .ok ()) :
    writeAll writes s.committed = .ok (transact outcome writes s).2.committed := by
  obtain ⟨hkept, hworking⟩ := exec_begin outcome h
  rw [transact] at hok ⊢
  cases hx : exec outcome .begin s with
  | mk r s₁ =>
    rw [hx] at hok hkept hworking
    cases r with
    | error what' => cases hok
    | ok =>
      dsimp only at hok ⊢
      cases hy : execAll outcome (writes.map .write ++ [.commit]) s₁ with
      | mk r s₂ =>
        rw [hy] at hok
        cases r with
        | error what' => cases hok
        | ok =>
          have hall := committed_execAll_of_ok (hworking rfl) (congrArg Prod.fst hy)
          rwa [hy] at hall

/-! ## Without failures -/

/-- When every statement is done, so is the transaction. -/
theorem execAll_done (hdone : ∀ n, outcome n = .done) (h : s.working = some db) {db' : σ}
    (hall : writeAll writes db = .ok db') :
    (execAll outcome (writes.map .write ++ [.commit]) s).1 = .ok () := by
  induction writes generalizing s db with
  | nil => simp only [List.map_nil, List.nil_append, execAll, exec, hdone, Stmt.apply]
  | cons f writes ih =>
    rw [writeAll, List.foldlM_cons] at hall
    cases hf : f db with
    | error what =>
      rw [hf] at hall
      cases hall
    | ok db₁ =>
      rw [hf] at hall
      simp only [List.map_cons, List.cons_append, execAll, exec, hdone, Stmt.apply, h, hf,
        Except.map]
      exact ih rfl hall

/-- If no statement fails, writes that the tables accept are made without an exception. -/
theorem transact_done (hdone : ∀ n, outcome n = .done) (h : s.working = none)
    (hall : writeAll writes s.committed = .ok db) : (transact outcome writes s).1 = .ok () := by
  have hbegin : exec outcome .begin s =
      (.ok (), { s with working := some s.committed, sent := s.sent + 1 }) := by
    simp only [exec, hdone, Stmt.apply, h, Option.getD_none]
  have hrest := execAll_done hdone (s := { s with working := some s.committed, sent := s.sent + 1 })
    rfl hall
  rw [transact, hbegin]
  dsimp only
  split
  · rfl
  · next heq =>
    rw [heq] at hrest
    cases hrest

end LiteCode.Transaction
