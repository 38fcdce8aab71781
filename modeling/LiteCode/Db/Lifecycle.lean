import LiteCode.Lib.System
import LiteCode.Db.SubmissionRepo

/-!
# The life of a submission row

Any number of scheduler workers and sweeper runs write the `submissions` table, in any order.
Every call is one statement, so an interleaving of the callers is a sequence of calls; `system`
is the table under all such sequences, with the database clock and the history of the calls and
of their answers.

What a call can do to one row is said once (`Change`, `row_call`): nothing, a claim, a finish or
a requeue, the second and third only with the answer `true`. From it:

* a row that is done stays as it is (`done_stable`);
* at most one `mark_finished` of a row answers true (`finishes_le_one`);
* the time `finished_at` is there exactly when the row is done.
-/

namespace LiteCode.SubmissionRepo

/-- The calls of the repository that write the table, with the outcome of their statement, and
    the passing of time. -/
inductive Call
  | create (db : Except Bytes Bool) (userId problemId : Int) (language code : Bytes)
  | markRunning (db : Sql) (id : Nat)
  | markFinished (db : Sql) (id : Nat) (status : Bytes) (time mem : Option Int) (err : Bytes)
  | requeueStuckRunning (db : Sql) (stuckAfterSeconds : Int)
  | tick (seconds : Nat)

/-- What a call answers. -/
inductive Answer
  | created (r : Except Bytes (Option Nat))
  | claimed (r : Except Bytes Bool)
  | finished (r : Except Bytes Bool)
  | requeued (r : Except Bytes Nat)
  | ticked

/-- The database: the table, its clock and the calls made so far with their answers. -/
structure Database where
  table : Table
  now : Nat
  history : List (Call × Answer)

namespace Database

/-- The answer of a call, and the table after it. -/
def exec (s : Database) : Call → Answer × Table
  | .create db userId problemId language code =>
    let (r, t) := create s.table s.now db userId problemId language code
    (.created r, t)
  | .markRunning db id =>
    let (r, t) := markRunning s.table db id
    (.claimed r, t)
  | .markFinished db id status time mem err =>
    let (r, t) := markFinished s.table s.now db id status time mem err
    (.finished r, t)
  | .requeueStuckRunning db secs =>
    let (r, t) := requeueStuckRunning s.table s.now db secs
    (.requeued r, t)
  | .tick _ => (.ticked, s.table)

/-- The clock after a call. -/
def clock (s : Database) : Call → Nat
  | .tick seconds => s.now + seconds
  | _ => s.now

/-- The database after a call. -/
def call (s : Database) (c : Call) : Database where
  table := (s.exec c).2
  now := s.clock c
  history := s.history ++ [(c, (s.exec c).1)]

/-- The row with a primary key. -/
def row (s : Database) (id : Nat) : Option SubmissionRow := s.table.row id

end Database

/-- Any sequence of calls, from an empty table. -/
def system : System Database Call where
  init s := s.table = Table.empty ∧ s.history = []
  step s c := some (s.call c)

/-- The call is a `mark_running` of the row `id` that answered true. -/
def claims (id : Nat) : Call × Answer → Bool
  | (.markRunning _ id', .claimed (.ok true)) => id' == id
  | _ => false

/-- The call is a `mark_finished` of the row `id` that answered true. -/
def finishes (id : Nat) : Call × Answer → Bool
  | (.markFinished _ id' _ _ _ _, .finished (.ok true)) => id' == id
  | _ => false

/-- A call for another row does not finish this one. -/
theorem finishes_of_ne {id id' : Nat} (h : id' ≠ id) (db : Sql) (status : Bytes)
    (time mem : Option Int) (err : Bytes) (a : Answer) :
    finishes id (.markFinished db id' status time mem err, a) = false := by
  unfold finishes
  split
  · next heq =>
    cases heq
    simpa using h
  · rfl

/-! ## What a call does to a row -/

/-- The changes of the row `id` by a call with its answer. -/
inductive Change (id : Nat) (e : Call × Answer) (r : SubmissionRow) : SubmissionRow → Prop
  /-- Nothing, and the call did not finish the row. -/
  | same : finishes id e = false → Change id e r r
  /-- A worker claims the row. -/
  | claim : claims id e → r.status = .pending → finishes id e = false →
      Change id e r (setRunning.set r)
  /-- A terminal status is written. -/
  | finish {now : Nat} {st : Status} {time mem : Option Int} {err : Bytes} : finishes id e →
      (r.status = .pending ∨ r.status = .running) → st.terminal →
      Change id e r ((setFinished now st time mem err).set r)
  /-- A sweeper gives the row back. -/
  | requeue : r.status = .running → finishes id e = false → Change id e r (setPending.set r)

variable {s s' : Database} {c : Call} {id : Nat} {r r' : SubmissionRow}

/-- What a call does to a row of the table. -/
theorem row_call (s : Database) (c : Call) {id : Nat} {r : SubmissionRow} (h : s.row id = some r) :
    ∃ r', (s.call c).row id = some r' ∧ Change id (c, (s.exec c).1) r r' := by
  cases c with
  | create db userId problemId language code =>
    refine ⟨r, ?_, .same rfl⟩
    -- an insert takes a key that no row has
    rcases create_spec s.table s.now db userId problemId language code id with hc | ⟨hc, -⟩
    · exact hc.trans h
    · exact absurd (hc.symm.trans h) (by simp)
  | markRunning db id' =>
    cases db with
    | error e => exact ⟨r, h, .same rfl⟩
    | ok u =>
      obtain ⟨ha, hr⟩ := markRunning_spec s.table id'
      refine ⟨_, (hr id).trans (congrArg _ h), ?_⟩
      dsimp only
      split_ifs with hc
      · obtain ⟨rfl, hp⟩ := hc
        refine .claim ?_ hp rfl
        have hex : ∃ r, s.table.row id = some r ∧ r.status = .pending := ⟨r, h, hp⟩
        simp [Database.exec, ha, hex, claims]
      · exact .same rfl
  | markFinished db id' status time mem err =>
    rcases markFinished_cases s.table s.now db id' status time mem err with
      ⟨e, he⟩ | ⟨st, ht, rfl, rfl⟩
    · exact ⟨r, by simpa [Database.row, Database.call, Database.exec, he] using h,
        .same (by simp [Database.exec, he, finishes])⟩
    · obtain ⟨ha, hr⟩ := markFinished_spec s.table s.now id' st time mem err ht
      refine ⟨_, (hr id).trans (congrArg _ h), ?_⟩
      dsimp only
      -- the answer is true iff the guard of the statement holds, which is on this row
      by_cases hid : id = id'
      · subst hid
        by_cases hp : r.status = .pending ∨ r.status = .running
        · have hex : ∃ r, s.table.row id = some r ∧ (r.status = .pending ∨ r.status = .running) :=
            ⟨r, h, hp⟩
          rw [if_pos ⟨rfl, hp⟩]
          exact .finish (by simp [Database.exec, ha, hex, finishes]) hp ht
        · have hex : ¬∃ r, s.table.row id = some r ∧
              (r.status = .pending ∨ r.status = .running) := by
            rintro ⟨r', hr', hp'⟩
            exact hp (Option.some_inj.1 (hr'.symm.trans h) ▸ hp')
          rw [if_neg fun hc => hp hc.2]
          exact .same (by simp [Database.exec, ha, hex, finishes])
      · rw [if_neg fun hc => hid hc.1]
        exact .same (finishes_of_ne (Ne.symm hid) _ _ _ _ _ _)
  | requeueStuckRunning db secs =>
    rcases requeueStuckRunning_spec s.table s.now db secs id with hr | ⟨r', hr', hp, hr⟩
    · exact ⟨r, hr.trans h, .same rfl⟩
    · obtain rfl := Option.some_inj.1 (hr'.symm.trans h)
      exact ⟨_, hr, .requeue hp rfl⟩
  | tick seconds => exact ⟨r, h, .same rfl⟩

/-- A row that is not there is not finished, and it only appears as a pending one. -/
theorem row_call_none (s : Database) (c : Call) {id : Nat} (h : s.row id = none) :
    finishes id (c, (s.exec c).1) = false ∧ ((s.call c).row id = none ∨
      ∃ r, (s.call c).row id = some r ∧ r.status = .pending ∧ r.finishedAt = none) := by
  cases c with
  | create db userId problemId language code =>
    refine ⟨rfl, ?_⟩
    rcases create_spec s.table s.now db userId problemId language code id with hc | ⟨-, hc⟩
    · exact .inl (hc.trans h)
    · exact .inr hc
  | markRunning db id' =>
    refine ⟨rfl, .inl ?_⟩
    cases db with
    | error e => exact h
    | ok u => exact ((markRunning_spec s.table id').2 id).trans (congrArg _ h)
  | markFinished db id' status time mem err =>
    rcases markFinished_cases s.table s.now db id' status time mem err with
      ⟨e, he⟩ | ⟨st, ht, rfl, rfl⟩
    · exact ⟨by simp [Database.exec, he, finishes],
        .inl (by simpa [Database.row, Database.call, Database.exec, he] using h)⟩
    · obtain ⟨ha, hr⟩ := markFinished_spec s.table s.now id' st time mem err ht
      refine ⟨?_, .inl ((hr id).trans (congrArg _ h))⟩
      by_cases hid : id' = id
      · subst hid
        have hn : s.table.row id' = none := h
        simp [Database.exec, ha, hn, finishes]
      · exact finishes_of_ne hid _ _ _ _ _ _
  | requeueStuckRunning db secs =>
    refine ⟨rfl, .inl ?_⟩
    rcases requeueStuckRunning_spec s.table s.now db secs id with hr | ⟨r', hr', -⟩
    · exact hr.trans h
    · exact absurd (hr'.symm.trans h) (by simp)
  | tick seconds => exact ⟨rfl, .inl h⟩

/-! ## Whole runs -/

/-- A row that is done is not changed by any call. -/
theorem Change.eq_of_terminal {e : Call × Answer} (h : Change id e r r') (ht : r.status.terminal) :
    r' = r ∧ finishes id e = false := by
  have hne := (Status.terminal_iff _).1 ht
  cases h with
  | same hf => exact ⟨rfl, hf⟩
  | claim _ hp _ => exact absurd hp hne.1
  | finish _ hp _ => exact absurd hp (not_or.2 hne)
  | requeue hp _ => exact absurd hp hne.2

/-- A row that is done keeps its status, and everything else, in every run. -/
theorem done_stable {G : Database → Call → Prop} {l : List Call} (h : system.Exec G s l s')
    (hr : s.row id = some r) (ht : r.status.terminal) : s'.row id = some r := by
  refine h.invariant (P := fun t => t.row id = some r) hr fun t c t' hrow _ hstep => ?_
  cases hstep
  obtain ⟨r', hr', hc⟩ := row_call t c hrow
  rw [hr', (hc.eq_of_terminal ht).1]

/-- The invariant of the row `id`: it has been finished once if it is done and never otherwise,
    and its finish time is there iff it is done. -/
def Inv (id : Nat) (s : Database) : Prop :=
  match s.row id with
  | none => s.history.countP (finishes id) = 0
  | some r => (r.finishedAt.isSome ↔ r.status.terminal) ∧
      s.history.countP (finishes id) = if r.status.terminal then 1 else 0

/-- The number of calls that finished a row, after one more call. -/
theorem countP_call (s : Database) (c : Call) (id : Nat) :
    (s.call c).history.countP (finishes id) =
      s.history.countP (finishes id) + if finishes id (c, (s.exec c).1) then 1 else 0 := by
  rw [Database.call, List.countP_append, List.countP_singleton]

theorem inv_call (s : Database) (c : Call) (h : Inv id s) : Inv id (s.call c) := by
  have hn := countP_call s c id
  -- one more call counts iff it finishes the row, and then the row was not done before
  cases hr : s.row id with
  | none =>
    rw [Inv, hr] at h
    obtain ⟨hf, hr' | ⟨r', hr', hp, hfin⟩⟩ := row_call_none s c hr
    · rw [Inv, hr']
      simpa [hf] using hn.trans (congrArg (· + _) h)
    · have ht : r'.status.terminal = false := by rw [hp]; decide
      rw [Inv, hr']
      refine ⟨by simp [hfin, ht], ?_⟩
      simpa [hf, ht] using hn.trans (congrArg (· + _) h)
  | some r =>
    rw [Inv, hr] at h
    obtain ⟨hfin, hcount⟩ := h
    obtain ⟨r', hr', hc⟩ := row_call s c hr
    rw [Inv, hr']
    rw [hcount] at hn
    cases hc with
    | same hf => exact ⟨hfin, by simpa [hf] using hn⟩
    | claim _ hp hf =>
      refine ⟨by simpa [hp] using hfin, ?_⟩
      simp only [hp, hf, Status.terminal_pending] at hn
      simpa using hn
    | finish hf hp ht' =>
      have ht : r.status.terminal = false := by rcases hp with hp | hp <;> simp [hp]
      exact ⟨by simp [ht'], by simpa [hf, ht, ht'] using hn⟩
    | requeue hp hf =>
      refine ⟨by simpa [hp] using hfin, ?_⟩
      simp only [hp, hf, Status.terminal_running] at hn
      simpa using hn

theorem reachable_inv {G : Database → Call → Prop} (h : system.Reach G s) : Inv id s := by
  refine h.invariant (fun s ⟨ht, hh⟩ => ?_) fun t c t' hi _ hstep => ?_
  · simp [Inv, Database.row, ht, hh, Table.empty, Table.row]
  · cases hstep
    exact inv_call t c hi

theorem finishes_le_one {G : Database → Call → Prop} (h : system.Reach G s) :
    s.history.countP (finishes id) ≤ 1 := by
  have hi : Inv id s := reachable_inv h
  unfold Inv at hi
  split at hi
  · omega
  · split_ifs at hi with ht <;> omega

/-- In every reachable state of the table and for every row of it: if the row is done, no run
    changes its status; at most one `mark_finished` of it has answered true; a call that takes it
    out of `pending` is a `mark_running` or a `mark_finished` of it that answers true; and its
    finish time is there exactly when it is done. -/
theorem row_lifecycle {s : Database} (h : system.Reach System.Always s) {id : Nat}
    {r : SubmissionRow} (hr : s.row id = some r) :
    (r.status.terminal → ∀ l s', system.Exec System.Always s l s' →
      ∃ r', s'.row id = some r' ∧ r'.status = r.status) ∧
    s.history.countP (finishes id) ≤ 1 ∧
    (r.status = .pending → ∀ c r', (s.call c).row id = some r' → r'.status ≠ .pending →
      claims id (c, (s.exec c).1) ∨ finishes id (c, (s.exec c).1)) ∧
    (r.finishedAt.isSome ↔ r.status.terminal) := by
  refine ⟨fun ht l s' hl => ⟨r, done_stable hl hr ht, rfl⟩, finishes_le_one h, ?_, ?_⟩
  · intro hp c r' hr' hne
    obtain ⟨r'', hr'', hc⟩ := row_call s c hr
    obtain rfl := Option.some_inj.1 (hr'.symm.trans hr'')
    cases hc with
    | same _ => exact absurd hp hne
    | claim hc _ _ => exact .inl hc
    | finish hf _ _ => exact .inr hf
    | requeue hrun _ => rw [hp] at hrun; cases hrun
  · have hi : Inv id s := reachable_inv h
    rw [Inv, hr] at hi
    exact hi.1

/-- A submission that is created, claimed, and judged after three seconds. -/
def judgedCalls : List Call :=
  [.create (.ok true) 7 3 (bytes "cpp") (bytes "int main()\x7b\x7d"), .markRunning (.ok ()) 1,
    .tick 3,
    .markFinished (.ok ()) 1 (bytes "ac") (some 12) (some 1024) []]

/-- The database after these calls. -/
def judged : Database := judgedCalls.foldl Database.call ⟨Table.empty, 100, []⟩

/-- Every call is possible in every state. -/
theorem run_calls (s : Database) (l : List Call) :
    system.run s l = some (l.foldl Database.call s) := by
  induction l generalizing s with
  | nil => rfl
  | cons c l ih => exact ih (s.call c)

theorem reach_judged : system.Reach System.Always judged :=
  System.reach_of_run (.init ⟨rfl, rfl⟩) (run_calls _ judgedCalls)

/-- The judged row: no run changes its verdict, and one call has finished it. -/
theorem row_lifecycle_judged :
    (∀ l s', system.Exec System.Always judged l s' →
      ∃ r, s'.row 1 = some r ∧ r.status = .ac) ∧
    judged.history.countP (finishes 1) ≤ 1 := by
  have hrow : judged.row 1 = some ⟨1, 7, 3, bytes "cpp", bytes "int main()\x7b\x7d", .ac, some 12,
      some 1024, none, 100, some 103⟩ := by decide +kernel
  have h := row_lifecycle reach_judged hrow
  exact ⟨h.1 (by decide), h.2.1⟩

end LiteCode.SubmissionRepo
