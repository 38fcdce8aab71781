import LiteCode.Lib.Bytes
import LiteCode.Lib.CondVar
import LiteCode.Lib.System

/-!
# The pool of warm containers

`WarmPool` of `src/judge/warm_pool.h`: `start` creates containers up to a target, `acquire` takes
one from the pool, and the refill thread creates new ones when `release` or `start` notifies it.
As in `Scheduler.Queue`, one action is one atomic step of one thread.

The wait predicate of the refill thread is two steps, as only the second one takes the mutex of
the pool: it loads `shutting_down_`, then compares the size of the pool with the target. The
thread evaluates it under `cv_mu_`, which nobody else takes.

A `start` or `shutdown` while another one is in progress races with it on `refill_thread_`, and
a `start` while a refill thread is there ends the process when it assigns the new one: the state
is then `undefined`.
-/

namespace LiteCode.WarmPool

/-- `WarmPoolConfig`: what the pool reads of it besides the template. -/
structure PoolConfig where
  targetSize : Int
  refillRetryAttempts : Int
  deriving DecidableEq, Repr

/-- The points of `refill_loop` outside the wait. `cur` and `tgt` are its local variables. -/
inductive RefillPc
  /-- At the head of the outer loop. -/
  | head
  /-- About to load `shutting_down_` in the wait predicate. -/
  | ready
  /-- In the wait predicate, `shutting_down_` was not set: about to compare the sizes. -/
  | sizing
  /-- The predicate was true. -/
  | woken
  /-- At the head of the inner loop. -/
  | gap
  /-- The pool is below its target. -/
  | below (cur tgt : Nat)
  /-- `refill_once`: before the attempt `i`. -/
  | attempt (cur tgt i : Nat)
  /-- `refill_once`: in the `create` call of the attempt `i`. -/
  | creating (cur tgt i : Nat)
  /-- `refill_once` returned `false`. -/
  | gaveUp (cur tgt : Nat)
  | exited
  deriving DecidableEq, Repr

/-- The refill thread. -/
abbrev Refill := Waiter RefillPc

/-- `IdleContainer`. -/
structure IdleContainer where
  id : Bytes
  fromPool : Bool
  deriving DecidableEq, Repr

/-- The points of an `acquire` call. -/
inductive Acquire
  /-- `running_` was true. -/
  | checked
  /-- The pool was empty: about to create a container. -/
  | fallback
  | returned (c : Option IdleContainer)
  deriving DecidableEq, Repr

/-- The points of the `start` or `shutdown` call in progress. -/
inductive Control
  | idle
  /-- `start`: `i` containers were tried, `created` of them are in the pool. -/
  | precreating (i created : Nat)
  /-- `start`: about to set `running_`. -/
  | starting (created : Nat)
  /-- `start`: about to assign `refill_thread_`. -/
  | spawning (created : Nat)
  /-- `start`: about to notify the refill thread of a partial start. -/
  | nudging
  /-- `shutdown`: about to set `shutting_down_`. -/
  | flagging
  /-- `shutdown`: about to notify the refill thread. -/
  | notifying
  /-- `shutdown`: in the join of the refill thread. -/
  | joining
  /-- `shutdown`: about to take the idle containers. -/
  | draining
  /-- `shutdown`: about to reset `running_`. -/
  | stopping
  deriving DecidableEq, Repr

/-- The pool with its threads. -/
structure State where
  running : Bool
  shuttingDown : Bool
  cfg : PoolConfig
  /-- `target_`. -/
  target : Nat
  /-- `idle_`. -/
  idle : List Bytes
  /-- `refill_thread_`, if it is joinable. -/
  refill : Option Refill
  control : Control
  acquires : List Acquire
  /-- The number of `release` calls that are about to notify. -/
  releasing : Nat
  /-- The containers that `start` and the refill thread put into the pool. -/
  pooled : List Bytes
  /-- The containers that `shutdown` took for removal. -/
  removed : List Bytes
  /-- The program has no meaning any more. -/
  undefined : Bool
  deriving DecidableEq, Repr

/-- A pool just constructed. -/
def State.new : State :=
  ⟨false, false, ⟨2, 2⟩, 0, [], none, .idle, [], 0, [], [], false⟩

/-- The atomic steps. A `create` call gives an id, or `none` if it throws. -/
inductive Action
  /-- A call of `acquire`: the load of `running_`. -/
  | acquire
  /-- The section of the `acquire` call `p` under the mutex. -/
  | take (p : Nat)
  /-- The `create` of the `acquire` call `p`. -/
  | fallback (p : Nat) (r : Option Bytes)
  /-- A call of `release`: the load of `running_`. -/
  | release
  /-- The notification of a `release`. -/
  | nudge
  /-- The next step of the refill thread. -/
  | refill (r : Option Bytes)
  | start (cfg : PoolConfig)
  | shutdown
  /-- The next step of the `start` or `shutdown` in progress. -/
  | next (r : Option Bytes)
  /-- The refill thread cannot be spawned. -/
  | spawnFails
  deriving DecidableEq, Repr

/-! ## The steps -/

/-- The id of a created container: an empty one counts as a failure. -/
def made (r : Option Bytes) : Option Bytes := r.filter fun id => !id.isEmpty

/-- A container goes into the pool. -/
def State.put (s : State) (id : Bytes) : State :=
  { s with idle := s.idle ++ [id], pooled := s.pooled ++ [id] }

/-- `cv_.notify_all`. -/
def State.notifyAll (s : State) : State := { s with refill := s.refill.map (Waiter.wake .ready) }

/-- `acquire` up to the load of `running_`. -/
def acquire (s : State) : State :=
  { s with acquires := s.acquires ++ [if s.running then .checked else .returned none] }

/-- `acquire` under the mutex. -/
def take (s : State) (p : Nat) : Option State :=
  match s.acquires[p]? with
  | some .checked =>
    match s.idle with
    | [] => some { s with acquires := s.acquires.set p .fallback }
    | id :: idle => some { s with
        idle
        acquires := s.acquires.set p (.returned (some ⟨id, true⟩)) }
  | _ => none

/-- `acquire` when the pool is empty. -/
def fallback (hasClient : Bool) (s : State) (p : Nat) (r : Option Bytes) : Option State :=
  match s.acquires[p]? with
  | some .fallback =>
    let c := if hasClient then (made r).map (⟨·, false⟩) else none
    some { s with acquires := s.acquires.set p (.returned c) }
  | _ => none

/-- `release` up to the load of `running_`. -/
def release (s : State) : State :=
  if s.running then { s with releasing := s.releasing + 1 } else s

/-- The notification of `release`. -/
def nudge (s : State) : Option State :=
  if s.releasing = 0 then none else some { s.notifyAll with releasing := s.releasing - 1 }

/-- The number of attempts of `refill_once`. -/
def attempts (cfg : PoolConfig) : Nat := cfg.refillRetryAttempts.toNat + 1

/-- The refill thread goes on at `pc`. -/
def State.goto (s : State) (pc : RefillPc) : Option State :=
  some { s with refill := some (.awake pc) }

/-- `refill_loop`, with `refill_once`. -/
def refillLoop (hasClient : Bool) (s : State) (r : Option Bytes) : Option State :=
  match s.refill with
  | none => none
  | some .blocked => none
  | some .holding => some { s with refill := some .blocked }
  | some (.awake pc) =>
    match pc with
    | .head => s.goto (if s.shuttingDown then .exited else .ready)
    | .ready => s.goto (if s.shuttingDown then .woken else .sizing)
    | .sizing =>
      if s.idle.length < s.target then s.goto .woken
      else some { s with refill := some .holding }
    -- `wait` returned; `lk` stays locked in the inner loop, but nobody else takes `cv_mu_`
    | .woken => s.goto (if s.shuttingDown then .exited else .gap)
    | .gap =>
      s.goto (if s.target ≤ s.idle.length then .head else .below s.idle.length s.target)
    | .below cur tgt =>
      s.goto (if s.shuttingDown then .head
        else if hasClient then .attempt cur tgt 0 else .gaveUp cur tgt)
    | .attempt cur tgt i =>
      s.goto (if s.shuttingDown then .gaveUp cur tgt else .creating cur tgt i)
    | .creating cur tgt i =>
      match made r with
      -- the `create` and the push are one step: the call changes nothing that is shared
      | some id => (s.put id).goto .gap
      | none => s.goto (if i + 1 < attempts s.cfg then .attempt cur tgt (i + 1)
          else .gaveUp cur tgt)
    | .gaveUp cur tgt => s.goto (if tgt ≤ cur + 1 then .head else .gap)
    | .exited => none

/-- A call of `start` or `shutdown` goes on to `pc`, unless another one is in progress. -/
def enter (s : State) (pc : Control) : State :=
  if s.control = .idle then { s with control := pc } else { s with undefined := true }

/-- `start` up to the first `create`. -/
def start (hasClient : Bool) (s : State) (cfg : PoolConfig) : State :=
  if cfg.targetSize < 0 then s
  else
    let s := { s with cfg, target := cfg.targetSize.toNat }
    if s.target = 0 then { s with running := true }
    else if hasClient then enter s (.precreating 0 0) else s

/-- `shutdown` up to its first write. -/
def shutdown (s : State) : State := enter s .flagging

/-- The rest of `start` and of `shutdown`. -/
def next (s : State) (r : Option Bytes) : Option State :=
  match s.control with
  | .idle => none
  | .precreating i created =>
    if i < s.target then
      match made r with
      | some id => some { s.put id with control := .precreating (i + 1) (created + 1) }
      | none => some { s with control := .precreating (i + 1) created }
    -- without any container the pool is not started
    else some { s with control := if created = 0 then .idle else .starting created }
  | .starting created => some { s with running := true, control := .spawning created }
  | .spawning created =>
    match s.refill with
    -- the assignment to a joinable thread terminates the process
    | some _ => some { s with undefined := true }
    | none => some { s with
        refill := some (.awake .head)
        control := if created < s.target then .nudging else .idle }
  | .nudging => some { s.notifyAll with control := .idle }
  | .flagging => some { s with shuttingDown := true, control := .notifying }
  | .notifying => some { s.notifyAll with control := .joining }
  | .joining =>
    match s.refill with
    | none => some { s with control := .draining }
    | some (.awake .exited) => some { s with refill := none, control := .draining }
    | some _ => none
  | .draining => some { s with
      idle := []
      removed := s.removed ++ s.idle
      control := .stopping }
  | .stopping => some { s with running := false, control := .idle }

/-- `start` when the refill thread cannot be spawned: the exception leaves it. -/
def spawnFails (s : State) : Option State :=
  match s.control with
  | .spawning _ => some { s with control := .idle }
  | _ => none

/-- One step of one thread. -/
def step (hasClient : Bool) (s : State) (a : Action) : Option State :=
  if s.undefined then none else
    match a with
    | .acquire => some (acquire s)
    | .take p => take s p
    | .fallback p r => fallback hasClient s p r
    | .release => some (release s)
    | .nudge => nudge s
    | .refill r => refillLoop hasClient s r
    | .start cfg => some (start hasClient s cfg)
    | .shutdown => some (shutdown s)
    | .next r => next s r
    | .spawnFails => spawnFails s

/-- The pool, from its construction on. -/
def system (hasClient : Bool) : System State Action where
  init s := s = .new
  step := step hasClient

end LiteCode.WarmPool
