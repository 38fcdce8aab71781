import Mathlib.Logic.Function.Basic
import LiteCode.Db.Lifecycle
import LiteCode.Lib.ListIndex
import LiteCode.Scheduler.RunOneTask

/-!
# Waiting for a verdict

`sse_submission_handler` of `src/routes/submission_routes.h` with `JudgeNotifier::wait_for`, any
number of times at once, and the workers that store a verdict and then publish it. A handler reads
the row twice, registers a callback and waits until the callback has been called or the deadline has
passed; then it unregisters and sends one event. A step is a statement, a section of the lock of
the notifier, one callback, or what a thread does on its own; the time passes in steps of its own.

A callback is known by the handler whose variables it writes. It holds the lock of these variables
while it writes them, and so does the handler from the end of the wait to its return; after that
they are gone, and a call of the callback has no meaning (`undefined`).

A publication that is over before the deadline of a handler should make it send the verdict, and an
event `result` should always carry a verdict (`Served`). There are these ways for it to go wrong:
the second read throws, and the row of the first one is sent as the result; the publication falls
between the second read and the registration, and is missed; a handler that unregisters drops the
callback that was added last, which may be that of another one; a callback is called after its
handler has returned. In every run without such a step it goes right (`served_of_reach`).
-/

namespace LiteCode.Sse

open SubmissionRepo

/-! ## The handlers and the workers -/

/-- What a handler sends. -/
inductive Event
  | result (row : SubmissionRow)
  | pending
  | error (status : Nat) (message : Bytes)
  deriving DecidableEq, Repr

/-- The points of a handler. -/
inductive Pc
  /-- It has read this row, which is not done, and is to read it again. -/
  | reading (row : SubmissionRow)
  /-- It is to register its callback. -/
  | subscribing
  /-- In the wait; the row that the callback has been called with. -/
  | waiting (result : Option SubmissionRow)
  /-- The wait is over, and the lock of its variables is held: it is to unregister. -/
  | leaving (result : Option SubmissionRow)
  | served (event : Event)
  deriving DecidableEq, Repr

/-- The handler has returned. -/
def Pc.over : Pc → Bool
  | .served _ => true
  | _ => false

/-- A call of the handler. -/
structure Stream where
  id : Nat
  /-- When the wait ends, once that is set. -/
  deadline : Option Nat
  pc : Pc
  deriving DecidableEq, Repr

/-- A worker whose `mark_finished` has changed a row. -/
inductive Worker
  /-- It is to publish the row. -/
  | finished (row : SubmissionRow)
  /-- In `publish`, after its locked section: these callbacks are to be called. -/
  | publishing (row : SubmissionRow) (rest : List Nat)
  /-- `publish` has returned at this time. -/
  | published (row : SubmissionRow) (time : Nat)
  deriving DecidableEq, Repr

namespace Worker

/-- The row that a worker publishes. -/
def row : Worker → SubmissionRow
  | .finished row => row
  | .publishing row _ => row
  | .published row _ => row

/-- The callbacks that it is to call. -/
def rest : Worker → List Nat
  | .publishing _ rest => rest
  | _ => []

/-- It has taken the callbacks out of the table. -/
def taken : Worker → Bool
  | .finished _ => false
  | _ => true

end Worker

/-- The state: the clock is in milliseconds. -/
structure State where
  db : Database
  clock : Nat
  /-- The callbacks that wait for a submission, in the order in which they were added. -/
  subs : Nat → List Nat
  streams : List Stream
  workers : List Worker
  undefined : Bool

/-- The steps. -/
inductive Action
  | tick (ms : Nat)
  /-- A statement of another caller. -/
  | statement (c : Call)
  /-- A handler up to the second read: its first read, and the check of the user. -/
  | open (id : Nat) (db : Sql) (userId : Int) (admin : Bool)
  /-- The second read. -/
  | reread (k : Nat) (db : Sql)
  | subscribe (k : Nat)
  | setDeadline (k : Nat)
  /-- The wait ends. -/
  | wake (k : Nat)
  | leave (k : Nat)
  /-- The `mark_finished` of a worker. -/
  | finish (task : JudgeScheduler.JudgeTask) (result : Judge.JudgeResult) (db : Sql)
  /-- The locked section of `publish`. -/
  | publish (w : Nat)
  /-- The next callback. -/
  | callback (w : Nat)
  /-- `publish` returns. -/
  | done (w : Nat)

/-- `kSseWaitTimeoutMs`. -/
def sseWaitTimeoutMs : Nat := 25000

/-- The row that the worker builds from the task and the result. -/
def publishedRow (task : JudgeScheduler.JudgeTask) (result : Judge.JudgeResult)
    (status : Status) : SubmissionRow where
  id := task.submissionId
  userId := task.userId
  problemId := task.problemId
  language := task.language
  code := task.code
  status
  timeUsed := if result.timeUsedMs > 0 then some result.timeUsedMs else none
  memoryUsed := if result.memoryUsedKb > 0 then some result.memoryUsedKb else none
  errorMessage := if result.errorMessage.isEmpty then none else some result.errorMessage
  createdAt := 0
  finishedAt := none

namespace State

/-- Set a handler. -/
def setStream (s : State) (k : Nat) (st : Stream) : State :=
  { s with streams := s.streams.set k st }

/-- Set a worker. -/
def setWorker (s : State) (w : Nat) (wk : Worker) : State :=
  { s with workers := s.workers.set w wk }

/-- Set the callbacks for a submission. -/
def setSubs (s : State) (id : Nat) (l : List Nat) : State :=
  { s with subs := Function.update s.subs id l }

/-- Where a handler is after its first read. -/
def opened (s : State) (id : Nat) (db : Sql) (userId : Int) (admin : Bool) : Pc :=
  match db, s.db.row id with
  | .error e, _ => .served (.error 500 (bytes "internal error: " ++ e))
  | .ok (), none => .served (.error 404 (bytes "submission not found"))
  | .ok (), some row =>
    if !admin && row.userId != userId then
      .served (.error 403 (bytes "you can only view your own submissions"))
    else if row.status.terminal then .served (.result row)
    else .reading row

/-- Where it is after its second read. An exception is caught, and the first row is sent. A row
    that is done is returned by `wait_for` without waiting. -/
def refetched (s : State) (id : Nat) (row : SubmissionRow) (db : Sql) : Pc :=
  match db with
  | .error _ => .served (.result row)
  | .ok () =>
    let final := (s.db.row id).getD row
    if final.status.terminal then .served (.result final) else .subscribing

def reread (s : State) (k : Nat) (db : Sql) : Option State :=
  match s.streams[k]? with
  | some ⟨id, deadline, .reading row⟩ => some (s.setStream k ⟨id, deadline, s.refetched id row db⟩)
  | _ => none

def subscribe (s : State) (k : Nat) : Option State :=
  match s.streams[k]? with
  | some ⟨id, deadline, .subscribing⟩ =>
    some ((s.setSubs id (s.subs id ++ [k])).setStream k ⟨id, deadline, .waiting none⟩)
  | _ => none

def setDeadline (s : State) (k : Nat) : Option State :=
  match s.streams[k]? with
  | some ⟨id, none, .waiting result⟩ =>
    some (s.setStream k ⟨id, some (s.clock + sseWaitTimeoutMs), .waiting result⟩)
  | _ => none

/-- The end of `wait_until`: the callback has been called, or the deadline has passed. -/
def wake (s : State) (k : Nat) : Option State :=
  match s.streams[k]? with
  | some ⟨id, some d, .waiting result⟩ =>
    if result.isSome ∨ d ≤ s.clock then some (s.setStream k ⟨id, some d, .leaving result⟩)
    else none
  | _ => none

/-- What the result of the wait makes the handler send. -/
def sent : Option SubmissionRow → Event
  | some row => .result row
  | none => .pending

/-- The end of `wait_for`: `unsubscribe` drops the callback that was added last. -/
def leave (s : State) (k : Nat) : Option State :=
  match s.streams[k]? with
  | some ⟨id, deadline, .leaving result⟩ =>
    some ((s.setSubs id (s.subs id).dropLast).setStream k ⟨id, deadline, .served (sent result)⟩)
  | _ => none

/-- The `mark_finished` of a worker: it goes on to publish if that has changed the row. -/
def finish (s : State) (task : JudgeScheduler.JudgeTask) (result : Judge.JudgeResult) (db : Sql) :
    State :=
  let c := Call.markFinished db task.submissionId result.status (some result.timeUsedMs)
    (some result.memoryUsedKb) result.errorMessage
  let s' := { s with db := s.db.call c }
  match (s.db.exec c).1, Status.ofName? result.status with
  | .finished (.ok true), some st =>
    { s' with workers := s.workers ++ [.finished (publishedRow task result st)] }
  | _, _ => s'

/-- `publish`, its locked section. -/
def publish (s : State) (w : Nat) : Option State :=
  match s.workers[w]? with
  | some (.finished row) =>
    some ((s.setSubs row.id []).setWorker w (.publishing row (s.subs row.id)))
  | _ => none

/-- The next callback of a worker: it writes the variables of its handler. -/
def callback (s : State) (w : Nat) : Option State :=
  match s.workers[w]? with
  | some (.publishing row (k :: rest)) =>
    match s.streams[k]? with
    | some ⟨id, deadline, .waiting _⟩ =>
      some ((s.setStream k ⟨id, deadline, .waiting (some row)⟩).setWorker w (.publishing row rest))
    -- the handler holds the lock
    | some ⟨_, _, .leaving _⟩ => none
    | _ => some { s with undefined := true }
  | _ => none

def done (s : State) (w : Nat) : Option State :=
  match s.workers[w]? with
  | some (.publishing row []) => some (s.setWorker w (.published row s.clock))
  | _ => none

end State

/-- One step of one thread. -/
def step (s : State) (a : Action) : Option State :=
  if s.undefined then none else
    match a with
    | .tick ms => some { s with clock := s.clock + ms }
    | .statement c => some { s with db := s.db.call c }
    | .open id db userId admin =>
      some { s with streams := s.streams ++ [⟨id, none, s.opened id db userId admin⟩] }
    | .reread k db => s.reread k db
    | .subscribe k => s.subscribe k
    | .setDeadline k => s.setDeadline k
    | .wake k => s.wake k
    | .leave k => s.leave k
    | .finish task result db => some (s.finish task result db)
    | .publish w => s.publish w
    | .callback w => s.callback w
    | .done w => s.done w

/-- The service, from its start on, with any database. -/
def system : System State Action where
  init s := s.subs = (fun _ => []) ∧ s.streams = [] ∧ s.workers = [] ∧ s.undefined = false
  step := step

/-- The step is none of those that go wrong: a second read succeeds; a publication does not fall
    between the second read of a handler and its registration; a handler that unregisters drops its
    own callback, or none; a callback is not called after its handler has returned. -/
def Smooth (s : State) : Action → Prop
  | .reread _ db => db.toOption.isSome
  | .publish w => ∀ wk ∈ s.workers[w]?, ∀ st ∈ s.streams, st.id = wk.row.id → st.pc ≠ .subscribing
  | .leave k => ∀ st ∈ s.streams[k]?, s.subs st.id = [] ∨ (s.subs st.id).getLast? = some k
  | .callback w => ∀ wk ∈ s.workers[w]?, ∀ k ∈ wk.rest.head?, ∀ st ∈ s.streams[k]?, !st.pc.over
  | _ => True

instance (s : State) : (a : Action) → Decidable (Smooth s a)
  | .reread _ db => inferInstanceAs (Decidable (db.toOption.isSome = true))
  | .publish w => inferInstanceAs (Decidable (∀ wk ∈ s.workers[w]?, ∀ st ∈ s.streams,
      st.id = wk.row.id → st.pc ≠ .subscribing))
  | .leave k => inferInstanceAs (Decidable (∀ st ∈ s.streams[k]?,
      s.subs st.id = [] ∨ (s.subs st.id).getLast? = some k))
  | .callback w => inferInstanceAs (Decidable (∀ wk ∈ s.workers[w]?, ∀ k ∈ wk.rest.head?,
      ∀ st ∈ s.streams[k]?, (!st.pc.over) = true))
  | .tick _ | .statement _ | .open .. | .subscribe _ | .setDeadline _ | .wake _ | .finish ..
  | .done _ => isTrue trivial

/-- The step is one of the handler `k`. -/
def Action.own (k : Nat) : Action → Bool
  | .reread j _ | .subscribe j | .setDeadline j | .wake j | .leave j => j == k
  | _ => false

/-- The row is done, with this status. -/
def Stored (db : Database) (id : Nat) (status : Status) : Prop :=
  status.terminal ∧ ∃ r, db.row id = some r ∧ r.status = status

/-- The handler `k` comes to its end by steps of its own, and sends a row with this status. -/
def Delivers (s : State) (k : Nat) (status : Status) : Prop :=
  ∃ l s', (∀ a ∈ l, a.own k) ∧ system.Exec Smooth s l s' ∧
    ∃ st row, s'.streams[k]? = some st ∧ st.pc = .served (.result row) ∧ row.status = status

/-- What the handlers are for. -/
structure Served (s : State) : Prop where
  defined : s.undefined = false
  /-- A row that is sent as a result is done. -/
  verdict : ∀ (k : Nat) st row, s.streams[k]? = some st → st.pc = .served (.result row) →
    row.status.terminal
  /-- A handler that finds the row sends the verdict whose publication is over before its
      deadline. -/
  delivered : ∀ (k : Nat) st (w : Nat) row t, s.streams[k]? = some st →
    (∀ c m, st.pc ≠ .served (.error c m)) → s.workers[w]? = some (.published row t) →
    row.id = st.id → (∀ d ∈ st.deadline, t < d) → row.status.terminal ∧ Delivers s k row.status

/-! ## The stored status -/

variable {s s' : State} {a : Action} {id k w : Nat} {st st' : Stream} {wk wk' : Worker}

/-- No statement changes a row that is done. -/
theorem Stored.call {db : Database} {status : Status} (h : Stored db id status) (c : Call) :
    Stored (db.call c) id status := by
  obtain ⟨ht, r, hr, rfl⟩ := h
  obtain ⟨r', hr', hc⟩ := row_call db c hr
  obtain ⟨rfl, -⟩ := hc.eq_of_terminal ht
  exact ⟨ht, r', hr', rfl⟩

/-- A row has one status. -/
theorem Stored.eq {db : Database} {status status' : Status} (h : Stored db id status)
    (h' : Stored db id status') : status = status' := by
  obtain ⟨-, r, hr, rfl⟩ := h
  obtain ⟨-, r', hr', rfl⟩ := h'
  rw [hr, Option.some_inj] at hr'
  rw [hr']

/-- A `mark_finished` that answers true ends a row that was not done. -/
theorem stored_markFinished {db : Database} {sql : Sql} {status err : Bytes}
    {time mem : Option Int}
    (h : (db.exec (.markFinished sql id status time mem err)).1 = .finished (.ok true)) :
    (∀ st, ¬ Stored db id st) ∧ ∃ st, Status.ofName? status = some st ∧
      Stored (db.call (.markFinished sql id status time mem err)) id st := by
  rcases markFinished_cases db.table db.now sql id status time mem err with
    ⟨e, he⟩ | ⟨st, ht, rfl, rfl⟩
  · simp [Database.exec, he] at h
  · obtain ⟨ha, hrow⟩ := markFinished_spec db.table db.now id st time mem err ht
    simp only [Database.exec, ha, Answer.finished.injEq, Except.ok.injEq, decide_eq_true_eq] at h
    obtain ⟨r, hr, hopen⟩ := h
    have hset := hrow id
    rw [hr, Option.map_some, if_pos ⟨rfl, hopen⟩] at hset
    refine ⟨?_, st, Status.ofName?_name st, ht, _, hset, setFinished_status⟩
    rintro st' ⟨ht', r', hr', rfl⟩
    rw [Database.row, hr, Option.some_inj] at hr'
    rw [← hr', Status.terminal_iff] at ht'
    exact hopen.elim ht'.1 ht'.2

/-! ## The invariant -/

/-- The callback of the handler `k` is about to be called by a worker. -/
def Due (s : State) (id k : Nat) : Prop :=
  ∃ (w : Nat) (wk : Worker), s.workers[w]? = some wk ∧ wk.row.id = id ∧ k ∈ wk.rest

/-- The callback of the handler `k` is in the table, or about to be called. -/
def Called (s : State) (id k : Nat) : Prop := k ∈ s.subs id ∨ Due s id k

/-- The callbacks for a submission have been taken out of the table. -/
def Taken (s : State) (id : Nat) : Prop :=
  ∃ (w : Nat) (wk : Worker), s.workers[w]? = some wk ∧ wk.row.id = id ∧ wk.taken

namespace Pc

/-- The callback has been registered. -/
def Registered : Pc → Prop
  | .reading _ | .subscribing => False
  | _ => True

/-- The callback has been registered, and not been called yet. -/
def Unfired : Pc → Prop
  | .waiting none | .leaving none => True
  | _ => False

end Pc

/-- What is known at the points of a handler. -/
def StreamOk (s : State) (st : Stream) : Prop :=
  match st.pc with
  | .reading row => ¬ row.status.terminal
  | .subscribing => True
  | .waiting result => ∀ row ∈ result, Stored s.db st.id row.status
  | .leaving result => (∀ row ∈ result, Stored s.db st.id row.status) ∧
      (result = none → ∃ d ∈ st.deadline, d ≤ s.clock)
  | .served (.result row) => Stored s.db st.id row.status
  | .served .pending => ∃ d ∈ st.deadline, d ≤ s.clock ∧ ∀ (w : Nat) row t,
      s.workers[w]? = some (.published row t) → row.id = st.id → d ≤ t
  | .served (.error _ _) => True

/-- The invariant of the service, without the steps that go wrong. -/
structure Inv (s : State) : Prop where
  defined : s.undefined = false
  stream : ∀ (k : Nat) st, s.streams[k]? = some st → StreamOk s st
  /-- What a worker publishes is stored. -/
  worker : ∀ (w : Nat) wk, s.workers[w]? = some wk → Stored s.db wk.row.id wk.row.status
  unique : ∀ (w w' : Nat) wk wk', s.workers[w]? = some wk → s.workers[w']? = some wk' →
    wk.row.id = wk'.row.id → w = w'
  /-- No callback is added after the publication. -/
  taken : ∀ id, Taken s id → s.subs id = [] ∧ ∀ st ∈ s.streams, st.id = id → st.pc ≠ .subscribing
  registered : ∀ id k, Called s id k → ∃ st, s.streams[k]? = some st ∧ st.id = id ∧
    st.pc.Registered
  /-- No callback is lost. -/
  placed : ∀ (k : Nat) st, s.streams[k]? = some st → st.pc.Unfired → Called s st.id k

/-- The state has grown: what is stored stays so, and publications are over now or later. -/
structure Later (s s' : State) : Prop where
  stored : ∀ id status, Stored s.db id status → Stored s'.db id status
  clock : s.clock ≤ s'.clock
  published : ∀ (w : Nat) row t, s'.workers[w]? = some (.published row t) →
    s.workers[w]? = some (.published row t) ∨ s.clock ≤ t

theorem StreamOk.later (h : StreamOk s st) (hl : Later s s') : StreamOk s' st := by
  obtain ⟨id, deadline, pc⟩ := st
  match pc with
  | .reading _ | .subscribing | .served (.error _ _) => exact h
  | .waiting result => exact fun row hrow => hl.stored _ _ (h row hrow)
  | .leaving result =>
    refine ⟨fun row hrow => hl.stored _ _ (h.1 row hrow), fun hn => ?_⟩
    obtain ⟨d, hd, hc⟩ := h.2 hn
    exact ⟨d, hd, hc.trans hl.clock⟩
  | .served (.result row) => exact hl.stored _ _ h
  | .served .pending =>
    obtain ⟨d, hd, hc, hp⟩ := h
    refine ⟨d, hd, hc.trans hl.clock, fun w row t hw hid => ?_⟩
    rcases hl.published w row t hw with hw | ht
    · exact hp w row t hw hid
    · exact hc.trans ht

theorem setSubs_eq {l : List Nat} (h : s.subs id = l) : s.setSubs id l = s := by
  rw [State.setSubs, ← h, Function.update_eq_self]

/-- A callback in the table after the list of a submission has been set. -/
theorem mem_setSubs {id' j : Nat} {l : List Nat} :
    j ∈ (s.setSubs id l).subs id' ↔ (id' = id ∧ j ∈ l) ∨ (id' ≠ id ∧ j ∈ s.subs id') := by
  by_cases hi : id' = id
  · subst hi
    simp [State.setSubs]
  · simp [State.setSubs, hi]

/-- A step of the handler `k`, which leaves the callbacks of the others where they are. -/
theorem Inv.move (h : Inv s) (hk : s.streams[k]? = some st) (hid : st'.id = st.id)
    (hok : StreamOk s st') {l : List Nat} (hl : ∀ j, j ≠ k → (j ∈ l ↔ j ∈ s.subs st.id))
    (hreg : k ∈ l ∨ st.pc.Registered → st'.pc.Registered)
    (hplaced : st'.pc.Unfired → k ∈ l ∨ Due s st.id k)
    (htaken : Taken s st.id → l = [] ∧ st'.pc ≠ .subscribing) :
    Inv ((s.setSubs st.id l).setStream k st') where
  defined := h.defined
  stream j x hj := by
    have hlater : Later s ((s.setSubs st.id l).setStream k st') :=
      ⟨fun _ _ h => h, le_refl _, fun _ _ _ hw => .inl hw⟩
    rcases getElem?_set_cases hj with ⟨-, rfl⟩ | ⟨-, hj⟩
    · exact hok.later hlater
    · exact (h.stream j x hj).later hlater
  worker := h.worker
  unique := h.unique
  taken id ht := by
    obtain ⟨hsubs, hsub⟩ := h.taken id ht
    constructor
    · by_cases hi : id = st.id
      · subst hi
        exact (Function.update_self ..).trans (htaken ht).1
      · exact (Function.update_of_ne hi ..).trans hsubs
    · intro x hx hxid
      rcases List.mem_or_eq_of_mem_set hx with hx | rfl
      · exact hsub x hx hxid
      · rw [← hxid, hid] at ht
        exact (htaken ht).2
  registered id j hj := by
    -- The handler itself is registered by `hreg`; the others are where they were.
    by_cases hjk : j = k
    · subst hjk
      refine ⟨st', getElem?_set_of_some hk, ?_⟩
      rcases hj with hj | hj
      · rcases mem_setSubs.1 hj with ⟨rfl, hin⟩ | ⟨hi, hin⟩
        · exact ⟨hid, hreg (.inl hin)⟩
        · obtain ⟨x, hx, hxid, -⟩ := h.registered id j (.inl hin)
          rw [hk, Option.some_inj] at hx
          rw [hx] at hi
          exact absurd hxid.symm hi
      · obtain ⟨x, hx, hxid, hxreg⟩ := h.registered id j (.inr hj)
        rw [hk, Option.some_inj] at hx
        rw [← hx] at hxid hxreg
        exact ⟨hid.trans hxid, hreg (.inr hxreg)⟩
    · have hcalled : Called s id j := by
        refine hj.imp_left fun hj => ?_
        rcases mem_setSubs.1 hj with ⟨rfl, hin⟩ | ⟨-, hin⟩
        · exact (hl j hjk).1 hin
        · exact hin
      obtain ⟨x, hx, hx'⟩ := h.registered id j hcalled
      exact ⟨x, (List.getElem?_set_ne (Ne.symm hjk)).trans hx, hx'⟩
  placed j x hj hun := by
    rcases getElem?_set_cases hj with ⟨rfl, rfl⟩ | ⟨hjk, hj⟩
    · rw [hid]
      exact (hplaced hun).imp_left fun hjl => mem_setSubs.2 (.inl ⟨rfl, hjl⟩)
    · refine (h.placed j x hj hun).imp_left fun hjs => mem_setSubs.2 ?_
      by_cases hi : x.id = st.id
      · exact .inl ⟨hi, (hl j hjk).2 (hi ▸ hjs)⟩
      · exact .inr ⟨hi, hjs⟩

/-- A step of a handler that leaves the table of callbacks as it is. -/
theorem Inv.setStream (h : Inv s) (hk : s.streams[k]? = some st) (hid : st'.id = st.id)
    (hok : StreamOk s st') (hreg : st.pc.Registered → st'.pc.Registered)
    (hun : st'.pc.Unfired → st.pc.Unfired)
    (hsub : st'.pc = .subscribing → ¬ Taken s st.id) : Inv (s.setStream k st') := by
  have hself : s.setSubs st.id (s.subs st.id) = s := setSubs_eq rfl
  rw [← hself]
  refine h.move hk hid hok (fun _ _ => Iff.rfl) ?_ ?_ ?_
  · rintro (hin | hr)
    · obtain ⟨x, hx, -, hxreg⟩ := h.registered st.id k (.inl hin)
      rw [hk, Option.some_inj] at hx
      exact hreg (hx ▸ hxreg)
    · exact hreg hr
  · exact fun hu => h.placed k st hk (hun hu)
  · exact fun ht => ⟨(h.taken _ ht).1, fun hpc => hsub hpc ht⟩

/-- A step of a worker that has taken the callbacks. -/
theorem Inv.setWorker (h : Inv s) (hw : s.workers[w]? = some wk) (hrow : wk'.row = wk.row)
    (hrest : ∀ j ∈ wk'.rest, j ∈ s.subs wk.row.id ∨ j ∈ wk.rest)
    (hplaced : ∀ (j : Nat) st, s.streams[j]? = some st → st.pc.Unfired →
      j ∈ s.subs wk.row.id ∨ j ∈ wk.rest → j ∈ wk'.rest)
    (hsub : ∀ st ∈ s.streams, st.id = wk.row.id → st.pc ≠ .subscribing)
    (hpub : ∀ row t, wk' = .published row t → s.clock ≤ t) :
    Inv ((s.setSubs wk.row.id []).setWorker w wk') where
  defined := h.defined
  stream j x hj := by
    refine (h.stream j x hj).later ⟨fun _ _ h => h, le_refl _, fun v row t hv => ?_⟩
    rcases getElem?_set_cases hv with ⟨-, he⟩ | ⟨-, hv⟩
    · exact .inr (hpub row t he.symm)
    · exact .inl hv
  worker v x hv := by
    rcases getElem?_set_cases hv with ⟨-, rfl⟩ | ⟨-, hv⟩
    · rw [hrow]
      exact h.worker w wk hw
    · exact h.worker v x hv
  unique v v' x x' hv hv' he := by
    -- The worker keeps its row, so two workers with one row are still the same one.
    rcases getElem?_set_cases hv with ⟨rfl, rfl⟩ | ⟨-, hx⟩
    · rcases getElem?_set_cases hv' with ⟨rfl, -⟩ | ⟨-, hx'⟩
      · rfl
      · exact h.unique v v' wk x' hw hx' (hrow ▸ he)
    · rcases getElem?_set_cases hv' with ⟨rfl, rfl⟩ | ⟨-, hx'⟩
      · exact h.unique v v' x wk hx hw (hrow ▸ he)
      · exact h.unique v v' x x' hx hx' he
  taken id ht := by
    by_cases hi : id = wk.row.id
    · subst hi
      exact ⟨Function.update_self .., hsub⟩
    · obtain ⟨v, x, hv, hxid, hx⟩ := ht
      rcases getElem?_set_cases hv with ⟨-, rfl⟩ | ⟨-, hv⟩
      · rw [hrow] at hxid
        exact absurd hxid.symm hi
      · obtain ⟨hsubs, hsub'⟩ := h.taken id ⟨v, x, hv, hxid, hx⟩
        exact ⟨(Function.update_of_ne hi ..).trans hsubs, hsub'⟩
  registered id j hj := by
    refine h.registered id j ?_
    rcases hj with hj | ⟨v, x, hv, rfl, hx⟩
    · rcases mem_setSubs.1 hj with ⟨-, hin⟩ | ⟨-, hin⟩
      · exact absurd hin List.not_mem_nil
      · exact .inl hin
    · rcases getElem?_set_cases hv with ⟨-, rfl⟩ | ⟨-, hv⟩
      · rw [hrow]
        exact (hrest j hx).imp_right fun hx => ⟨w, wk, hw, rfl, hx⟩
      · exact .inr ⟨v, x, hv, rfl, hx⟩
  placed j x hj hun := by
    -- What was due for the row of this worker is in its rest by now.
    have hnow : x.id = wk.row.id → j ∈ s.subs wk.row.id ∨ j ∈ wk.rest →
        Called ((s.setSubs wk.row.id []).setWorker w wk') x.id j := fun hi hc =>
      .inr ⟨w, wk', getElem?_set_of_some hw, hrow ▸ hi.symm, hplaced j x hj hun hc⟩
    rcases h.placed j x hj hun with hin | ⟨v, y, hv, hyid, hy⟩
    · by_cases hi : x.id = wk.row.id
      · exact hnow hi (.inl (hi ▸ hin))
      · exact .inl (mem_setSubs.2 (.inr ⟨hi, hin⟩))
    · by_cases hvw : v = w
      · subst hvw
        rw [hw, Option.some_inj] at hv
        subst hv
        exact hnow hyid.symm (.inr hy)
      · exact .inr ⟨v, y, (List.getElem?_set_ne (Ne.symm hvw)).trans hv, hyid, hy⟩

/-! ## Every step keeps it -/

theorem Inv.init (h : system.init s) : Inv s := by
  obtain ⟨hsubs, hstreams, hworkers, hdef⟩ := h
  have hdue : ∀ id k, ¬ Called s id k := by
    simp [Called, Due, hsubs, hworkers]
  refine ⟨hdef, ?_, ?_, ?_, ?_, fun id k hc => absurd hc (hdue id k), ?_⟩
  all_goals simp [hstreams, hworkers, Taken]

theorem Inv.tick (h : Inv s) (ms : Nat) : Inv { s with clock := s.clock + ms } where
  defined := h.defined
  stream k st hk := (h.stream k st hk).later
    ⟨fun _ _ h => h, Nat.le_add_right .., fun _ _ _ hw => .inl hw⟩
  worker := h.worker
  unique := h.unique
  taken := h.taken
  registered := h.registered
  placed := h.placed

theorem Inv.statement (h : Inv s) (c : Call) : Inv { s with db := s.db.call c } where
  defined := h.defined
  stream k st hk := (h.stream k st hk).later
    ⟨fun _ _ h => h.call c, le_refl _, fun _ _ _ hw => .inl hw⟩
  worker w wk hw := (h.worker w wk hw).call c
  unique := h.unique
  taken := h.taken
  registered := h.registered
  placed := h.placed

/-- A handler that starts is to read the row again, or has returned. -/
theorem streamOk_opened (s : State) (id : Nat) (db : Sql) (userId : Int) (admin : Bool) :
    StreamOk s ⟨id, none, s.opened id db userId admin⟩ ∧
      ¬ (s.opened id db userId admin).Unfired ∧ s.opened id db userId admin ≠ .subscribing := by
  unfold State.opened
  cases db with
  | error e => exact ⟨trivial, nofun, nofun⟩
  | ok u =>
    cases hr : s.db.row id with
    | none => exact ⟨trivial, nofun, nofun⟩
    | some row =>
      dsimp only
      split_ifs with hu ht
      · exact ⟨trivial, nofun, nofun⟩
      · exact ⟨⟨ht, row, hr, rfl⟩, nofun, nofun⟩
      · exact ⟨ht, nofun, nofun⟩

theorem Inv.opened (h : Inv s) (db : Sql) (userId : Int) (admin : Bool) :
    Inv { s with streams := s.streams ++ [⟨id, none, s.opened id db userId admin⟩] } where
  defined := h.defined
  stream k x hk := by
    rcases getElem?_concat_cases hk with hk | ⟨-, rfl⟩
    · exact h.stream k x hk
    · exact (streamOk_opened s id db userId admin).1
  worker := h.worker
  unique := h.unique
  taken id' ht := by
    obtain ⟨hsubs, hsub⟩ := h.taken id' ht
    refine ⟨hsubs, fun x hx hid => ?_⟩
    rcases List.mem_append.1 hx with hx | hx
    · exact hsub x hx hid
    · rw [List.mem_singleton.1 hx]
      exact (streamOk_opened s id db userId admin).2.2
  registered id' k hk := by
    obtain ⟨x, hx, hx'⟩ := h.registered id' k hk
    exact ⟨x, getElem?_append_of_some hx, hx'⟩
  placed k x hk hun := by
    rcases getElem?_concat_cases hk with hk | ⟨-, rfl⟩
    · exact h.placed k x hk hun
    · exact absurd hun (streamOk_opened s id db userId admin).2.1

/-- The second read of a handler finds the row done, or is followed by the registration. -/
theorem refetched_cases (s : State) (id : Nat) {row : SubmissionRow}
    (hrow : ¬ row.status.terminal) :
    (∃ r, s.refetched id row (.ok ()) = .served (.result r) ∧ Stored s.db id r.status) ∨
    (s.refetched id row (.ok ()) = .subscribing ∧ ∀ status, ¬ Stored s.db id status) := by
  unfold State.refetched
  cases hr : s.db.row id with
  | none =>
    refine .inr ⟨if_neg hrow, ?_⟩
    rintro status ⟨-, r, hr', -⟩
    rw [hr] at hr'
    cases hr'
  | some r =>
    by_cases ht : r.status.terminal
    · exact .inl ⟨r, if_pos ht, ht, r, hr, rfl⟩
    · refine .inr ⟨if_neg ht, ?_⟩
      rintro status ⟨ht', r', hr', rfl⟩
      rw [hr, Option.some_inj] at hr'
      exact ht (hr' ▸ ht')

/-- The row of callbacks that have been taken is stored. -/
theorem Inv.stored_of_taken (h : Inv s) (ht : Taken s id) : ∃ status, Stored s.db id status := by
  obtain ⟨w, wk, hw, rfl, -⟩ := ht
  exact ⟨_, h.worker w wk hw⟩

theorem Inv.reread (h : Inv s) (hs : s.reread k (.ok ()) = some s') : Inv s' := by
  unfold State.reread at hs
  split at hs
  · next id deadline row hk =>
    cases hs
    have hrow : ¬ row.status.terminal := h.stream k _ hk
    rcases refetched_cases s id hrow with ⟨r, hr, hst⟩ | ⟨hr, hst⟩
    · rw [hr]
      exact h.setStream hk rfl hst (fun _ => trivial) nofun nofun
    · rw [hr]
      refine h.setStream hk rfl trivial nofun nofun fun _ ht => ?_
      obtain ⟨status, hstored⟩ := h.stored_of_taken ht
      exact hst status hstored
  · cases hs

theorem Inv.subscribe (h : Inv s) (hs : s.subscribe k = some s') : Inv s' := by
  unfold State.subscribe at hs
  split at hs
  · next id deadline hk =>
    cases hs
    refine h.move hk ?_ ?_ ?_ ?_ ?_ fun ht => ?_
    · rfl
    · rintro _ ⟨⟩
    · intro j hj
      simp [hj]
    · exact fun _ => trivial
    · exact fun _ => .inl (by simp)
    · exact absurd rfl ((h.taken id ht).2 _ (List.mem_of_getElem? hk) rfl)
  · cases hs

theorem Inv.setDeadline (h : Inv s) (hs : s.setDeadline k = some s') : Inv s' := by
  unfold State.setDeadline at hs
  split at hs
  · next id result hk =>
    cases hs
    have hok : ∀ row ∈ result, Stored s.db id row.status := h.stream k _ hk
    exact h.setStream hk rfl hok (fun _ => trivial) (fun hu => hu) nofun
  · cases hs

theorem Inv.wake (h : Inv s) (hs : s.wake k = some s') : Inv s' := by
  unfold State.wake at hs
  split at hs
  · next id d result hk =>
    split_ifs at hs with hd
    cases hs
    refine h.setStream hk rfl ⟨h.stream k _ hk, ?_⟩ (fun _ => trivial) ?_ nofun
    · rintro rfl
      exact ⟨d, rfl, hd.resolve_left (by simp)⟩
    · intro hu
      cases result with
      | none => trivial
      | some row => exact hu
  · cases hs

/-- A callback that was registered and not called is with no publication that is over. -/
theorem Inv.not_published (h : Inv s) (hk : s.streams[k]? = some st) (hun : st.pc.Unfired)
    {row : SubmissionRow} {t : Nat} (hw : s.workers[w]? = some (.published row t)) :
    row.id ≠ st.id := by
  intro hid
  rcases h.placed k st hk hun with hin | ⟨v, wk, hv, hvid, hrest⟩
  · rw [(h.taken st.id ⟨w, _, hw, hid, rfl⟩).1] at hin
    exact absurd hin List.not_mem_nil
  · obtain rfl := h.unique w v _ wk hw hv (hid.trans hvid.symm)
    rw [hw, Option.some_inj] at hv
    subst hv
    exact absurd hrest List.not_mem_nil

theorem Inv.leave (h : Inv s) (hg : Smooth s (.leave k)) (hs : s.leave k = some s') : Inv s' := by
  unfold State.leave at hs
  split at hs
  · next id deadline result hk =>
    cases hs
    have hok := h.stream k _ hk
    refine h.move hk ?_ ?_ ?_ ?_ ?_ fun ht => ?_
    · rfl
    · cases result with
      | some row => exact hok.1 row rfl
      | none =>
        obtain ⟨d, hd, hc⟩ := hok.2 rfl
        exact ⟨d, hd, hc, fun w row t hw hid => absurd hid (h.not_published hk trivial hw)⟩
    · -- what is dropped is the callback of this handler
      intro j hj
      rcases hg _ hk with he | hlast
      · rw [show s.subs id = [] from he]
        rfl
      · have hcat := List.dropLast_append_getLast? k hlast
        constructor
        · exact fun hin => (List.dropLast_sublist _).subset hin
        · intro hin
          rw [← hcat] at hin
          exact (List.mem_append.1 hin).resolve_right fun hin => hj (List.mem_singleton.1 hin)
    · exact fun _ => trivial
    · cases result <;> exact nofun
    · refine ⟨?_, nofun⟩
      rw [(h.taken id ht).1]
      rfl
  · cases hs

/-- A worker starts to publish a row that it has stored. -/
theorem Inv.addWorker (h : Inv s) {row : SubmissionRow} (hst : Stored s.db row.id row.status)
    (hnew : ∀ (w : Nat) wk, s.workers[w]? = some wk → wk.row.id ≠ row.id) :
    Inv { s with workers := s.workers ++ [.finished row] } where
  defined := h.defined
  stream k x hk := by
    refine (h.stream k x hk).later ⟨fun _ _ h => h, le_refl _, fun w row t hw => ?_⟩
    rcases getElem?_concat_cases hw with hw | ⟨-, he⟩
    · exact .inl hw
    · cases he
  worker w wk hw := by
    rcases getElem?_concat_cases hw with hw | ⟨-, rfl⟩
    · exact h.worker w wk hw
    · exact hst
  unique w w' wk wk' hw hw' hid := by
    rcases getElem?_concat_cases hw with hx | ⟨rfl, rfl⟩
    · rcases getElem?_concat_cases hw' with hx' | ⟨-, rfl⟩
      · exact h.unique w w' wk wk' hx hx' hid
      · exact absurd hid (hnew w wk hx)
    · rcases getElem?_concat_cases hw' with hx' | ⟨rfl, -⟩
      · exact absurd hid.symm (hnew w' wk' hx')
      · rfl
  taken id ht := by
    refine h.taken id ?_
    obtain ⟨w, wk, hw, hwk⟩ := ht
    rcases getElem?_concat_cases hw with hw | ⟨-, rfl⟩
    · exact ⟨w, wk, hw, hwk⟩
    · cases hwk.2
  registered id k hk := by
    refine h.registered id k (hk.imp_right ?_)
    rintro ⟨w, wk, hw, hwk⟩
    rcases getElem?_concat_cases hw with hw | ⟨-, rfl⟩
    · exact ⟨w, wk, hw, hwk⟩
    · exact absurd hwk.2 List.not_mem_nil
  placed k x hk hun := by
    refine (h.placed k x hk hun).imp_right ?_
    rintro ⟨w, wk, hw, hwk⟩
    exact ⟨w, wk, getElem?_append_of_some hw, hwk⟩

theorem Inv.finish (h : Inv s) (task : JudgeScheduler.JudgeTask) (result : Judge.JudgeResult)
    (db : Sql) : Inv (s.finish task result db) := by
  have hcall := h.statement (.markFinished db task.submissionId result.status
    (some result.timeUsedMs) (some result.memoryUsedKb) result.errorMessage)
  unfold State.finish
  dsimp only
  split
  · next st hans hname =>
    obtain ⟨hnot, st', hname', hst⟩ := stored_markFinished hans
    rw [hname, Option.some_inj] at hname'
    subst hname'
    refine hcall.addWorker hst fun w wk hw hid => ?_
    -- a row that another worker publishes was done before
    exact hnot _ (hid ▸ h.worker w wk hw)
  · exact hcall

theorem Inv.publish (h : Inv s) (hg : Smooth s (.publish w)) (hs : s.publish w = some s') :
    Inv s' := by
  unfold State.publish at hs
  split at hs
  · next row hw =>
    cases hs
    refine h.setWorker hw ?_ ?_ ?_ ?_ ?_
    · rfl
    · exact fun j hj => .inl hj
    · exact fun j st hj hun hin => hin.resolve_right List.not_mem_nil
    · exact hg _ hw
    · rintro _ _ ⟨⟩
  · cases hs

/-- A step of a worker that has taken the callbacks before. -/
theorem Inv.setTaken (h : Inv s) (hw : s.workers[w]? = some wk) (hrow : wk'.row = wk.row)
    (ht : wk.taken) (hrest : ∀ j ∈ wk'.rest, j ∈ wk.rest)
    (hplaced : ∀ (j : Nat) st, s.streams[j]? = some st → st.pc.Unfired → j ∈ wk.rest →
      j ∈ wk'.rest)
    (hpub : ∀ row t, wk' = .published row t → s.clock ≤ t) : Inv (s.setWorker w wk') := by
  obtain ⟨hsubs, hsub⟩ := h.taken wk.row.id ⟨w, wk, hw, rfl, ht⟩
  rw [← setSubs_eq hsubs]
  refine h.setWorker hw hrow (fun j hj => .inr (hrest j hj)) ?_ hsub hpub
  intro j st hj hun hin
  refine hplaced j st hj hun (hin.resolve_left ?_)
  rw [hsubs]
  exact List.not_mem_nil

theorem Inv.callback (h : Inv s) (hg : Smooth s (.callback w)) (hs : s.callback w = some s') :
    Inv s' := by
  unfold State.callback at hs
  split at hs
  · next row k rest hw =>
    obtain ⟨st, hk, hid, hreg⟩ := h.registered row.id k
      (.inr ⟨w, _, hw, rfl, List.mem_cons_self⟩)
    have hover := hg _ hw k rfl st hk
    obtain ⟨id, deadline, pc⟩ := st
    rw [hk] at hs
    match pc with
    | .waiting result =>
      cases hs
      have hst : ∀ r ∈ some row, Stored s.db id r.status := by
        rintro r ⟨⟩
        rw [show id = row.id from hid]
        exact h.worker w _ hw
      have hset : Inv (s.setStream k ⟨id, deadline, .waiting (some row)⟩) :=
        h.setStream hk rfl hst (fun _ => trivial) nofun nofun
      refine hset.setTaken hw ?_ ?_ ?_ ?_ ?_
      · rfl
      · rfl
      · exact fun j hj => List.mem_cons_of_mem k hj
      · -- the handler that was called does not wait any more
        intro j x hj hun hin
        rcases List.mem_cons.1 hin with rfl | hin
        · rw [State.setStream, getElem?_set_of_some hk, Option.some_inj] at hj
          subst hj
          exact hun.elim
        · exact hin
      · rintro _ _ ⟨⟩
    | .leaving result => cases hs
    | .reading _ => exact hreg.elim
    | .subscribing => exact hreg.elim
    | .served e => cases hover
  · cases hs

theorem Inv.done (h : Inv s) (hs : s.done w = some s') : Inv s' := by
  unfold State.done at hs
  split at hs
  · next row hw =>
    cases hs
    refine h.setTaken hw ?_ ?_ ?_ ?_ ?_
    · rfl
    · rfl
    · exact nofun
    · exact fun _ _ _ _ hin => hin
    · rintro _ _ ⟨⟩
      exact le_refl _
  · cases hs

theorem Inv.step (h : Inv s) (hg : Smooth s a) (hs : step s a = some s') : Inv s' := by
  have hdef : ¬ s.undefined = true := by simp [h.defined]
  unfold Sse.step at hs
  rw [if_neg hdef] at hs
  cases a with
  | tick ms =>
    cases hs
    exact h.tick ms
  | statement c =>
    cases hs
    exact h.statement c
  | «open» id db userId admin =>
    cases hs
    exact h.opened db userId admin
  | reread k db =>
    cases db with
    | error e => cases hg
    | ok u => exact h.reread hs
  | subscribe k => exact h.subscribe hs
  | setDeadline k => exact h.setDeadline hs
  | wake k => exact h.wake hs
  | leave k => exact h.leave hg hs
  | finish task result db =>
    cases hs
    exact h.finish task result db
  | publish w => exact h.publish hg hs
  | callback w => exact h.callback hg hs
  | done w => exact h.done hs

theorem inv_of_reach (h : system.Reach Smooth s) : Inv s :=
  h.invariant (fun _ h₀ => .init h₀) fun _ _ _ hi hg hs => hi.step hg hs

/-! ## What a handler sends -/

section Delivers

variable {deadline : Option Nat} {row : SubmissionRow} {status : Status}

theorem delivers_of_served (hk : s.streams[k]? = some st) (hpc : st.pc = .served (.result row)) :
    Delivers s k row.status :=
  ⟨[], s, by simp, .nil s, st, row, hk, hpc, rfl⟩

theorem Delivers.cons (hs : step s a = some s') (hown : a.own k) (hg : Smooth s a)
    (h : Delivers s' k status) : Delivers s k status := by
  obtain ⟨l, s₁, hl, hexec, hst⟩ := h
  exact ⟨a :: l, s₁, by simpa [hown] using hl, .cons hg hs hexec, hst⟩

/-- A handler that has returned takes no step. -/
theorem step_eq_none {e : Event} (hk : s.streams[k]? = some st) (hpc : st.pc = .served e)
    (hown : a.own k) : step s a = none := by
  obtain ⟨id, deadline, pc⟩ := st
  subst hpc
  unfold step
  split_ifs with hdef
  · rfl
  · cases a with
    | reread j db =>
      obtain rfl : j = k := by simpa [Action.own] using hown
      simp [State.reread, hk]
    | subscribe j =>
      obtain rfl : j = k := by simpa [Action.own] using hown
      simp [State.subscribe, hk]
    | setDeadline j =>
      obtain rfl : j = k := by simpa [Action.own] using hown
      simp [State.setDeadline, hk]
    | wake j =>
      obtain rfl : j = k := by simpa [Action.own] using hown
      simp [State.wake, hk]
    | leave j =>
      obtain rfl : j = k := by simpa [Action.own] using hown
      simp [State.leave, hk]
    | _ => cases hown

/-- What a handler that has returned delivers is what it has sent. -/
theorem Delivers.sent {e : Event} (h : Delivers s k status) (hk : s.streams[k]? = some st)
    (hpc : st.pc = .served e) : ∃ row, e = .result row ∧ row.status = status := by
  obtain ⟨l, s₁, hl, hexec, st₁, row, hk₁, hpc₁, hrow⟩ := h
  have hsame : s₁.streams[k]? = some st := by
    clear hk₁
    induction hexec with
    | nil => exact hk
    | @snoc _ _ _ a _ _ hs ih =>
      have hpre := ih fun a ha => hl a (List.mem_append_left _ ha)
      have hnone := step_eq_none hpre hpc (hl a List.mem_concat_self)
      exact absurd (hnone.symm.trans hs) nofun
  rw [hk₁, Option.some_inj] at hsame
  subst hsame
  rw [hpc₁, Pc.served.injEq] at hpc
  exact ⟨row, hpc.symm, hrow⟩

theorem delivers_leaving (hdef : s.undefined = false)
    (hk : s.streams[k]? = some ⟨id, deadline, .leaving (some row)⟩) (hsubs : s.subs id = []) :
    Delivers s k row.status := by
  have hstep : step s (.leave k) = some ((s.setSubs id (s.subs id).dropLast).setStream k
      ⟨id, deadline, .served (.result row)⟩) := by
    simp [step, hdef, State.leave, hk, State.sent]
  refine .cons hstep (by simp [Action.own]) ?_ (delivers_of_served (getElem?_set_of_some hk) rfl)
  intro st hst
  rw [hk, Option.mem_some] at hst
  exact .inl (hst ▸ hsubs)

theorem delivers_waiting (hdef : s.undefined = false)
    (hk : s.streams[k]? = some ⟨id, deadline, .waiting (some row)⟩) (hsubs : s.subs id = []) :
    Delivers s k row.status := by
  -- with a deadline, it wakes up and leaves
  have hwake : ∀ {s : State} {d : Nat}, s.undefined = false →
      s.streams[k]? = some ⟨id, some d, .waiting (some row)⟩ → s.subs id = [] →
      Delivers s k row.status := by
    intro s d hdef hk hsubs
    have hstep : step s (.wake k) =
        some (s.setStream k ⟨id, some d, .leaving (some row)⟩) := by
      simp [step, hdef, State.wake, hk]
    exact .cons hstep (by simp [Action.own]) trivial
      (delivers_leaving hdef (getElem?_set_of_some hk) hsubs)
  cases deadline with
  | some d => exact hwake hdef hk hsubs
  | none =>
    have hstep : step s (.setDeadline k) = some (s.setStream k
        ⟨id, some (s.clock + sseWaitTimeoutMs), .waiting (some row)⟩) := by
      simp [step, hdef, State.setDeadline, hk]
    exact .cons hstep (by simp [Action.own]) trivial
      (hwake hdef (getElem?_set_of_some hk) hsubs)

theorem delivers_reading (h : Inv s) (hk : s.streams[k]? = some ⟨id, deadline, .reading row⟩)
    (hst : Stored s.db id status) : Delivers s k status := by
  rcases refetched_cases s id (h.stream k _ hk) with ⟨r, hr, hst'⟩ | ⟨-, hnot⟩
  · have hstep : step s (.reread k (.ok ())) =
        some (s.setStream k ⟨id, deadline, .served (.result r)⟩) := by
      simp [step, h.defined, State.reread, hk, hr]
    rw [hst.eq hst']
    exact .cons hstep (by simp [Action.own]) rfl
      (delivers_of_served (getElem?_set_of_some hk) rfl)
  · exact absurd hst (hnot status)

end Delivers

/-- In every run without a step that goes wrong, a row that is sent as a result is done, and a
    handler sends the verdict whose publication is over before its deadline. -/
theorem served_of_reach (h : system.Reach Smooth s) : Served s := by
  have hi := inv_of_reach h
  refine ⟨hi.defined, fun k st row hk hpc => ?_, fun k st w row t hk herr hw hid hd => ?_⟩
  · have hok := hi.stream k st hk
    rw [StreamOk, hpc] at hok
    exact hok.1
  · have hst : Stored s.db st.id row.status := hid ▸ hi.worker w _ hw
    have htaken := hi.taken st.id ⟨w, _, hw, hid, rfl⟩
    refine ⟨hst.1, ?_⟩
    have hok := hi.stream k st hk
    obtain ⟨id, deadline, pc⟩ := st
    match pc with
    | .reading r => exact delivers_reading hi hk hst
    | .subscribing => exact absurd rfl (htaken.2 _ (List.mem_of_getElem? hk) rfl)
    | .waiting none => exact absurd hid (hi.not_published hk trivial hw)
    | .waiting (some r) =>
      rw [hst.eq (hok r rfl)]
      exact delivers_waiting hi.defined hk htaken.1
    | .leaving none => exact absurd hid (hi.not_published hk trivial hw)
    | .leaving (some r) =>
      rw [hst.eq (hok.1 r rfl)]
      exact delivers_leaving hi.defined hk htaken.1
    | .served (.result r) =>
      rw [hst.eq hok]
      exact delivers_of_served hk rfl
    | .served .pending =>
      -- the deadline had passed when the publication was over
      obtain ⟨d, hd', -, hp⟩ := hok
      exact absurd (hp w row t hw hid) (Nat.not_le.2 (hd d hd'))
    | .served (.error c m) => exact absurd rfl (herr c m)

/-- The service with one pending submission, the first one. -/
def idle : State := ⟨⟨JudgeScheduler.oneRow, 100, []⟩, 0, fun _ => [], [], [], false⟩

theorem idle_init : system.init idle := ⟨rfl, rfl, rfl, rfl⟩

/-- Its owner asks for it. -/
def asks : Action := .open 1 (.ok ()) 7 false

/-- The verdict of its worker. -/
def accepted : Judge.JudgeResult := { status := bytes "ac" }

/-- The worker stores it. -/
def accepts : Action := .finish JudgeScheduler.oneTask accepted (.ok ())

/-- The row that it publishes. -/
def acceptedRow : SubmissionRow := publishedRow JudgeScheduler.oneTask accepted .ac

/-- Two handlers wait for the submission, and the verdict wakes them up: the first one has sent it,
    and the second one will. -/
theorem served_of_reach_two : ∃ s, system.Exec Smooth idle [asks, .reread 0 (.ok ()), .subscribe 0,
      .setDeadline 0, asks, .reread 1 (.ok ()), .subscribe 1, .tick 20000, accepts, .publish 0,
      .callback 0, .callback 0, .done 0, .wake 0, .leave 0] s ∧
    s.workers = [.published acceptedRow 20000] ∧
    s.streams = [⟨1, some 25000, .served (.result acceptedRow)⟩,
      ⟨1, none, .waiting (some acceptedRow)⟩] ∧ Served s := by
  obtain ⟨s, hs, hp⟩ := System.exists_exec_of_runGuarded (S := system) (G := Smooth) (s := idle)
    (l := [asks, .reread 0 (.ok ()), .subscribe 0, .setDeadline 0, asks, .reread 1 (.ok ()),
      .subscribe 1, .tick 20000, accepts, .publish 0, .callback 0, .callback 0, .done 0, .wake 0,
      .leave 0])
    (p := fun s => s.workers == [.published acceptedRow 20000] &&
      s.streams == [⟨1, some 25000, .served (.result acceptedRow)⟩,
        ⟨1, none, .waiting (some acceptedRow)⟩]) (by decide +kernel)
  simp only [Bool.and_eq_true, beq_iff_eq] at hp
  exact ⟨s, hs, hp.1, hp.2, served_of_reach ⟨idle, _, idle_init, hs⟩⟩

/-- The publication falls between the second read and the registration: the handler waits for
    25 seconds, and sends no verdict. The second read fails: the handler sends the pending row as
    a result. A first handler leaves at its deadline and drops the callback of a second one: the
    verdict goes to the first one, which has returned, and the second one waits on. -/
theorem publication_missed :
    (∃ s, system.Exec System.Always idle [asks, .reread 0 (.ok ()), accepts, .publish 0, .done 0,
        .subscribe 0, .setDeadline 0, .tick 25000, .wake 0, .leave 0] s ∧
      s.workers = [.published acceptedRow 0] ∧
      s.streams = [⟨1, some 25000, .served .pending⟩] ∧ ¬ Served s) ∧
    (∃ s row, system.Exec System.Always idle [asks, .reread 0 (.error [])] s ∧
      s.streams = [⟨1, none, .served (.result row)⟩] ∧ row.status = .pending ∧ ¬ Served s) ∧
    (∃ s, system.Exec System.Always idle [asks, .reread 0 (.ok ()), .subscribe 0, .setDeadline 0,
        .tick 10000, asks, .reread 1 (.ok ()), .subscribe 1, .setDeadline 1, .tick 15000, .wake 0,
        .leave 0, accepts, .publish 0, .callback 0] s ∧ s.undefined = true ∧
      s.streams = [⟨1, some 25000, .served .pending⟩, ⟨1, some 35000, .waiting none⟩] ∧
      ¬ Served s) := by
  refine ⟨?_, ?_, ?_⟩
  · obtain ⟨s, hs, hp⟩ := System.exists_exec_of_run (S := system) (s := idle)
      (l := [asks, .reread 0 (.ok ()), accepts, .publish 0, .done 0, .subscribe 0, .setDeadline 0,
        .tick 25000, .wake 0, .leave 0])
      (p := fun s => s.workers == [.published acceptedRow 0] &&
        s.streams == [⟨1, some 25000, .served .pending⟩]) (by decide +kernel)
    simp only [Bool.and_eq_true, beq_iff_eq] at hp
    obtain ⟨hw, hk⟩ := hp
    refine ⟨s, hs, hw, hk, fun h => ?_⟩
    obtain ⟨-, hdel⟩ := h.delivered 0 ⟨1, some 25000, .served .pending⟩ 0 acceptedRow 0
      (by rw [hk]; rfl) nofun (by rw [hw]; rfl) rfl (by simp)
    obtain ⟨row, he, -⟩ := hdel.sent (by rw [hk]; rfl) rfl
    cases he
  · obtain ⟨s, hs, hp⟩ := System.exists_exec_of_run (S := system) (s := idle)
      (l := [asks, .reread 0 (.error [])])
      (p := fun s => s.streams == [⟨1, none, .served (.result
        ⟨1, 7, 3, bytes "cpp", bytes "x", .pending, none, none, none, 100, none⟩)⟩])
      (by decide +kernel)
    rw [beq_iff_eq] at hp
    refine ⟨s, _, hs, hp, rfl, fun h => ?_⟩
    have := h.verdict 0 _ _ (by rw [hp]; rfl) rfl
    cases this
  · obtain ⟨s, hs, hp⟩ := System.exists_exec_of_run (S := system) (s := idle)
      (l := [asks, .reread 0 (.ok ()), .subscribe 0, .setDeadline 0, .tick 10000, asks,
        .reread 1 (.ok ()), .subscribe 1, .setDeadline 1, .tick 15000, .wake 0, .leave 0, accepts,
        .publish 0, .callback 0])
      (p := fun s => s.undefined && s.streams == [⟨1, some 25000, .served .pending⟩,
        ⟨1, some 35000, .waiting none⟩]) (by decide +kernel)
    simp only [Bool.and_eq_true, beq_iff_eq] at hp
    refine ⟨s, hs, hp.1, hp.2, fun h => ?_⟩
    rw [h.defined] at hp
    cases hp.1

end LiteCode.Sse
