import LiteCode.Config.LoadConfig
import LiteCode.Lib.Cut
import LiteCode.Lib.ListIndex
import LiteCode.Lib.System

/-!
# The connection pool

`src/db/connection_pool.h`: handles on the sessions of a `mysqlx::Client`, which are moved between
variables and return their session when they are destroyed or assigned to, and the statistics that
they keep. The client and the mutex of the statistics are shared by all threads, a variable belongs
to one call at a time. An action is what a call does between two accesses to what is shared, so
that an execution is one interleaving of the calls.

The sessions come from the client (`getSession`): it hands out a session that nobody has, and no
more than `POOL_MAX_SIZE` of them. A call that fails there throws, with the text of the client.

* `step`: acquisition, moves, assignments and destruction of handles, and `ping`;
* `Accounted`: who has the sessions that are out, and what the statistics count;
* `Accounted.step`: every action keeps it;
* `safe_of_reach`: in every execution no session is lost or has two owners, and the count of active
  handles is that of the valid ones.
-/

namespace LiteCode.ConnectionPool

open Config (DatabaseConfig)

/-! ## The configuration -/

/-- `PoolConfig`. -/
structure PoolConfig where
  host : Bytes := bytes "127.0.0.1"
  port : Int := 33060
  user : Bytes := bytes "litecode"
  password : Bytes := []
  database : Bytes := []
  socketPath : Bytes := []
  minSize : Int := 1
  maxSize : Int := 8
  acquireTimeoutMs : Int := 5000
  maxIdleTimeMs : Int := 60000
  connectTimeoutMs : Int := 10000
  deriving DecidableEq, Repr

/-- `PoolConfig::from_database_config`. The milliseconds wrap around in an `int`. -/
def PoolConfig.fromDatabaseConfig (db : DatabaseConfig) : PoolConfig :=
  { host := db.host
    port := db.port
    user := db.user
    password := db.password
    database := db.database
    socketPath := db.socketPath
    minSize := db.poolMinSize
    maxSize := db.poolMaxSize
    connectTimeoutMs := (db.connectionTimeoutSeconds * 1000).bmod (2 ^ 32) }

/-- `ConnectionPool::validate`: the text of the error, if there is one. -/
def validate (cfg : PoolConfig) : Except Bytes Unit :=
  if cfg.host = [] ∧ cfg.socketPath = [] then
    .error (bytes "pool: host or socket_path must be set")
  else if cfg.user = [] then .error (bytes "pool: user must be set")
  else if cfg.database = [] then .error (bytes "pool: database must be set")
  else if cfg.minSize < 0 then .error (bytes "pool: min_size must be >= 0")
  else if cfg.maxSize < 1 then .error (bytes "pool: max_size must be >= 1")
  else if cfg.maxSize < cfg.minSize then .error (bytes "pool: min_size must be <= max_size")
  else if cfg.acquireTimeoutMs < 0 then .error (bytes "pool: acquire_timeout_ms must be >= 0")
  else if cfg.connectTimeoutMs < 0 then .error (bytes "pool: connect_timeout_ms must be >= 0")
  else .ok ()

open Config (Env loadDatabase throwIf_eq_ok_iff)
open ErrorHandler (bind_eq_ok)

/-- A database section that the service accepts makes a pool, as long as its timeout is still
    positive in milliseconds. -/
theorem validate_fromDatabaseConfig {env : Env} {db : DatabaseConfig}
    (h : loadDatabase env = .ok db) (hms : db.connectionTimeoutSeconds * 1000 < 2 ^ 31) :
    validate (.fromDatabaseConfig db) = .ok () := by
  simp only [loadDatabase, bind_eq_ok, throwIf_eq_ok_iff, exists_const, pure, Except.pure,
    Except.ok.injEq, Int.not_lt] at h
  obtain ⟨hhost, huser, hname, hmin, hmax, htimeout, rfl⟩ := h
  dsimp only at hhost huser hname hmin hmax htimeout hms
  have hbmod : (env.intOr .int "DB_CONN_TIMEOUT_SECONDS" 10 * 1000).bmod (2 ^ 32) =
      env.intOr .int "DB_CONN_TIMEOUT_SECONDS" 10 * 1000 :=
    Int.bmod_eq_of_le (by omega) (by omega)
  rw [PoolConfig.fromDatabaseConfig, validate]
  dsimp only
  rw [hbmod, if_neg hhost, if_neg huser, if_neg hname, if_neg (by omega), if_neg (by omega),
    if_neg (by omega), if_neg (by decide), if_neg (by omega)]

/-! ## The handles -/

/-- A `std::optional<mysqlx::Session>`: without a value, with a session that was moved from, or
    with one of the client's. -/
inductive SessionSlot
  | empty
  | moved
  | live (id : Nat)
  deriving DecidableEq, Repr

/-- What a move leaves behind: the optional keeps its value. -/
def SessionSlot.afterMove : SessionSlot → SessionSlot
  | .empty => .empty
  | .moved => .moved
  | .live _ => .moved

/-- The session of the client, if there is one. -/
def SessionSlot.ids : SessionSlot → List Nat
  | .live id => [id]
  | _ => []

/-- `PooledConnection`. `pool` says whether `pool_` is set. -/
structure PooledConnection where
  pool : Bool := false
  session : SessionSlot := .empty
  valid : Bool := false
  deriving DecidableEq, Repr

namespace PooledConnection

/-- `PooledConnection(ConnectionPool*, mysqlx::Session)`. -/
def ofSession (id : Nat) : PooledConnection := ⟨true, .live id, true⟩

/-- What both moves leave behind. -/
def afterMove (other : PooledConnection) : PooledConnection :=
  { pool := false, session := other.session.afterMove, valid := false }

/-- `PooledConnection(PooledConnection&&)`. -/
def moveConstruct (other : PooledConnection) : PooledConnection :=
  { pool := other.pool, session := other.session, valid := other.valid }

/-- What `operator=` leaves in the handle it assigns to. Its own session is gone by then. -/
def moveAssign (other : PooledConnection) : PooledConnection :=
  { pool := other.pool
    session := if other.session = .empty then .empty else other.session
    valid := other.valid }

/-- The handle counts as released when it goes away. -/
def releases (x : PooledConnection) : Bool := x.pool && x.valid

end PooledConnection

/-! ## The pool -/

/-- `PoolStats`. -/
structure Stats where
  totalAcquired : Nat := 0
  acquireTimeouts : Nat := 0
  active : Nat := 0
  deriving DecidableEq, Repr

/-- `on_acquire`. -/
def Stats.onAcquire (s : Stats) : Stats :=
  { s with totalAcquired := s.totalAcquired + 1, active := s.active + 1 }

/-- `on_release`. -/
def Stats.onRelease (s : Stats) : Stats :=
  if 0 < s.active then { s with active := s.active - 1 } else s

/-- `on_acquire_timeout`. -/
def Stats.onAcquireTimeout (s : Stats) : Stats :=
  { s with acquireTimeouts := s.acquireTimeouts + 1 }

/-- The exceptions of `acquire`. -/
inductive Failure
  /-- `ConnectionAcquireTimeout`. -/
  | timeout (what : Bytes)
  /-- `ConnectionPoolError`. -/
  | error (what : Bytes)
  deriving DecidableEq, Repr

/-- The `catch` clause of `acquire`, for the text of a `mysqlx::Error`. -/
def acquireFailure (cfg : PoolConfig) (what : Bytes) : Failure :=
  if (cutAt (bytes "timeout") what).isSome || (cutAt (bytes "Timeout") what).isSome ||
      (cutAt (bytes "timed out") what).isSome then
    .timeout (bytes "pool: acquire timed out after " ++ decimalInt cfg.acquireTimeoutMs ++
      bytes "ms")
  else .error (bytes "pool: acquire failed: " ++ what)

/-- A variable for a handle, with the call that is at work on it. -/
inductive Place
  /-- Nothing is there. -/
  | free
  /-- A handle, with no call at work on it. -/
  | handle (x : PooledConnection)
  /-- `acquire`, which has a session; `on_acquire` comes next. -/
  | acquired (id : Nat)
  /-- `acquire`, in its `catch` clause. -/
  | refused (what : Bytes)
  /-- `operator=` from the handle at `src`, after the release of what was there. -/
  | assigning (src : Nat) (x : PooledConnection)
  /-- The other handle of `operator=`. -/
  | source (x : PooledConnection)
  /-- The destructor, after the release; the members come next. -/
  | destroying (x : PooledConnection)
  /-- `ping`, which has a session. -/
  | pinging (id : Nat)
  deriving DecidableEq, Repr

/-- The pool, the sessions that the client has given out, and the variables. -/
structure State where
  stats : Stats
  out : List Nat
  places : List Place
  deriving DecidableEq, Repr

/-- The steps of the calls. Those of a call that goes on name the place it works on. -/
inductive Action
  /-- A variable is defined without a session. -/
  | define (l : Nat)
  /-- `acquire` into a variable, with the answer of `getSession`. -/
  | acquire (l : Nat) (answer : Except Bytes Nat)
  /-- `on_acquire`, and the handle is there. -/
  | acquired (l : Nat)
  /-- The `catch` clause of `acquire`. -/
  | refused (l : Nat)
  /-- A variable is defined by a move. -/
  | moveConstruct (l src : Nat)
  /-- `operator=`, up to the release. -/
  | moveAssign (l src : Nat)
  /-- The rest of `operator=`. -/
  | assigned (l : Nat)
  /-- The destructor, up to the release. -/
  | destroy (l : Nat)
  /-- The rest of the destructor. -/
  | destroyed (l : Nat)
  /-- `ping`, with the answer of `getSession`. -/
  | ping (l : Nat) (answer : Except Bytes Nat)
  /-- `ping` is done with its session. -/
  | pinged (l : Nat)
  deriving DecidableEq

variable (cfg : PoolConfig)

/-- The client may hand out the session. -/
def Available (s : State) (id : Nat) : Prop := id ∉ s.out ∧ (s.out.length : Int) < cfg.maxSize

instance (s : State) (id : Nat) : Decidable (Available cfg s id) :=
  inferInstanceAs (Decidable (_ ∧ _))

/-- The sessions that are out when that of a slot is returned. -/
def closeSession (out : List Nat) : SessionSlot → List Nat
  | .live id => out.erase id
  | _ => out

/-- `on_release`, if the handle counts. -/
def releaseOf (x : PooledConnection) (s : Stats) : Stats := if x.releases then s.onRelease else s

/-- One step of a call. -/
def step (s : State) : Action → Option State
  | .define l =>
    match s.places[l]? with
    | some .free => some { s with places := s.places.set l (.handle {}) }
    | _ => none
  | .acquire l answer =>
    match s.places[l]?, answer with
    | some .free, .ok id =>
      if Available cfg s id then
        some { s with out := s.out ++ [id], places := s.places.set l (.acquired id) }
      else none
    | some .free, .error what => some { s with places := s.places.set l (.refused what) }
    | _, _ => none
  | .acquired l =>
    match s.places[l]? with
    | some (.acquired id) =>
      some { s with stats := s.stats.onAcquire, places := s.places.set l (.handle (.ofSession id)) }
    | _ => none
  | .refused l =>
    match s.places[l]? with
    | some (.refused what) =>
      let stats :=
        match acquireFailure cfg what with
        | .timeout _ => s.stats.onAcquireTimeout
        | .error _ => s.stats
      some { s with stats, places := s.places.set l .free }
    | _ => none
  | .moveConstruct l src =>
    match s.places[l]?, s.places[src]? with
    | some .free, some (.handle y) =>
      some { s with
        places := (s.places.set l (.handle y.moveConstruct)).set src (.handle y.afterMove) }
    | _, _ => none
  | .moveAssign l src =>
    match s.places[l]?, s.places[src]? with
    | some (.handle x), some (.handle y) =>
      if l = src then some s
      else
        some { s with
          stats := releaseOf x s.stats
          places := (s.places.set l (.assigning src x)).set src (.source y) }
    | _, _ => none
  | .assigned l =>
    match s.places[l]? with
    | some (.assigning src x) =>
      match s.places[src]? with
      | some (.source y) =>
        some { s with
          out := closeSession s.out x.session
          places := (s.places.set l (.handle y.moveAssign)).set src (.handle y.afterMove) }
      | _ => none
    | _ => none
  | .destroy l =>
    match s.places[l]? with
    | some (.handle x) =>
      some { s with stats := releaseOf x s.stats, places := s.places.set l (.destroying x) }
    | _ => none
  | .destroyed l =>
    match s.places[l]? with
    | some (.destroying x) =>
      some { s with out := closeSession s.out x.session, places := s.places.set l .free }
    | _ => none
  | .ping l answer =>
    match s.places[l]?, answer with
    | some .free, .ok id =>
      if Available cfg s id then
        some { s with out := s.out ++ [id], places := s.places.set l (.pinging id) }
      else none
    | some .free, .error _ => some s
    | _, _ => none
  | .pinged l =>
    match s.places[l]? with
    | some (.pinging id) => some { s with out := s.out.erase id, places := s.places.set l .free }
    | _ => none

/-- The pool of a configuration that passed `validate`, and any number of variables. -/
def system : System State Action where
  init s := validate cfg = .ok () ∧ s.stats = {} ∧ s.out = [] ∧ ∀ p ∈ s.places, p = .free
  step := step cfg

/-! ## The accounts -/

/-- A handle is valid exactly if it has a session, and the pool that it came from. -/
def PooledConnection.Sound (x : PooledConnection) : Prop :=
  x.pool = x.valid ∧ (x.valid = true ↔ ∃ id, x.session = .live id)

namespace Place

/-- The handle that is there, whatever call is at work on it. -/
def connection : Place → Option PooledConnection
  | .handle x => some x
  | .assigning _ x => some x
  | .source x => some x
  | .destroying x => some x
  | _ => none

/-- The session that is there. -/
def ids : Place → List Nat
  | .handle x => x.session.ids
  | .assigning _ x => x.session.ids
  | .source x => x.session.ids
  | .destroying x => x.session.ids
  | .acquired id => [id]
  | .pinging id => [id]
  | _ => []

/-- The place has a valid handle that is not being released. -/
def counted : Place → Bool
  | .handle x => x.valid
  | .source x => x.valid
  | _ => false

/-- What is there is a sound handle, if it is one. -/
def Sound (p : Place) : Prop := ∀ x, p.connection = some x → x.Sound

end Place

/-- The accounts of the pool: every session that is out is at one place, no more are out than the
    client has, and as many handles are active as are valid. -/
structure Accounted (s : State) : Prop where
  sound : ∀ p ∈ s.places, p.Sound
  owned : s.out.Perm (s.places.flatMap Place.ids)
  nodup : s.out.Nodup
  bound : (s.out.length : Int) ≤ cfg.maxSize
  active : s.stats.active = s.places.countP Place.counted

variable {cfg} {s s' : State} {l src : Nat} {p p' q q' : Place} {x y : PooledConnection}
  {stats : Stats} {out : List Nat}

/-- One place changes: what comes in and goes out is what it holds. -/
theorem Accounted.set (h : Accounted cfg s) (hl : s.places[l]? = some p) (hp' : p'.Sound)
    (hids : ∀ id, out.count id + p.ids.count id = s.out.count id + p'.ids.count id)
    (hnodup : out.Nodup) (hbound : (out.length : Int) ≤ cfg.maxSize)
    (hactive : stats.active + (if p.counted then 1 else 0) =
      s.stats.active + if p'.counted then 1 else 0) :
    Accounted cfg { stats, out, places := s.places.set l p' } where
  sound := by
    intro r hr
    rcases List.mem_or_eq_of_mem_set hr with hr | rfl
    · exact h.sound r hr
    · exact hp'
  owned := by
    refine List.perm_iff_count.2 fun id => ?_
    have hset := (flatMap_set_perm (f := Place.ids) (y := p') hl).count_eq id
    have howned := h.owned.count_eq id
    have := hids id
    rw [List.count_append, List.count_append] at hset
    dsimp only
    omega
  nodup := hnodup
  bound := hbound
  active := by
    have hset := countP_set_add (p := Place.counted) (y := p') hl
    have := h.active
    dsimp only
    omega

/-- Two places change together. -/
theorem Accounted.set_set (h : Accounted cfg s) (hl : s.places[l]? = some p)
    (hsrc : s.places[src]? = some q) (hne : l ≠ src) (hp' : p'.Sound) (hq' : q'.Sound)
    (hids : ∀ id, out.count id + p.ids.count id + q.ids.count id =
      s.out.count id + p'.ids.count id + q'.ids.count id)
    (hnodup : out.Nodup) (hbound : (out.length : Int) ≤ cfg.maxSize)
    (hactive : stats.active + (if p.counted then 1 else 0) + (if q.counted then 1 else 0) =
      s.stats.active + (if p'.counted then 1 else 0) + if q'.counted then 1 else 0) :
    Accounted cfg { stats, out, places := (s.places.set l p').set src q' } := by
  have hsrc' : (s.places.set l p')[src]? = some q := by rw [List.getElem?_set_ne hne, hsrc]
  constructor
  case sound =>
    intro r hr
    rcases List.mem_or_eq_of_mem_set hr with hr | rfl
    · rcases List.mem_or_eq_of_mem_set hr with hr | rfl
      · exact h.sound r hr
      · exact hp'
    · exact hq'
  case owned =>
    refine List.perm_iff_count.2 fun id => ?_
    have hset := (flatMap_set_perm (f := Place.ids) (y := p') hl).count_eq id
    have hset' := (flatMap_set_perm (f := Place.ids) (y := q') hsrc').count_eq id
    have howned := h.owned.count_eq id
    have := hids id
    rw [List.count_append, List.count_append] at hset hset'
    dsimp only
    omega
  case nodup => exact hnodup
  case bound => exact hbound
  case active =>
    have hset := countP_set_add (p := Place.counted) (y := p') hl
    have hset' := countP_set_add (p := Place.counted) (y := q') hsrc'
    have := h.active
    dsimp only
    omega

/-! ## The handles after a move -/

namespace PooledConnection

theorem sound_default : Sound {} := ⟨rfl, iff_of_false Bool.false_ne_true fun ⟨_, h⟩ => by cases h⟩

theorem sound_ofSession (id : Nat) : (ofSession id).Sound := ⟨rfl, iff_of_true rfl ⟨id, rfl⟩⟩

/-- A handle that was moved from has no session. -/
theorem sound_afterMove (x : PooledConnection) : x.afterMove.Sound := by
  refine ⟨rfl, iff_of_false Bool.false_ne_true fun ⟨id, h⟩ => ?_⟩
  rw [afterMove] at h
  cases hx : x.session with
  | empty => rw [hx] at h; cases h
  | moved => rw [hx] at h; cases h
  | live _ => rw [hx] at h; cases h

theorem ids_afterMove (x : PooledConnection) : x.afterMove.session.ids = [] := by
  rw [afterMove]
  cases x.session with
  | empty => rfl
  | moved => rfl
  | live _ => rfl

theorem moveAssign_eq (x : PooledConnection) : x.moveAssign = x := by
  obtain ⟨pool, session, valid⟩ := x
  cases session with
  | empty => rfl
  | moved => rfl
  | live _ => rfl

/-- A sound handle counts as released exactly if it is valid. -/
theorem Sound.releases_eq (h : x.Sound) : x.releases = x.valid := by
  rw [releases, h.1, Bool.and_self]

end PooledConnection

/-! ## What a step keeps -/

/-- The session of a place is out. -/
theorem Accounted.mem_out (h : Accounted cfg s) (hl : s.places[l]? = some p) {id : Nat}
    (hid : id ∈ p.ids) : id ∈ s.out :=
  h.owned.mem_iff.2 (List.mem_flatMap.2 ⟨p, List.mem_of_getElem? hl, hid⟩)

theorem Accounted.sound_of (h : Accounted cfg s) (hl : s.places[l]? = some p)
    (hx : p.connection = some x) : x.Sound :=
  h.sound p (List.mem_of_getElem? hl) x hx

/-- A valid handle is counted, so that its release is. -/
theorem Accounted.active_pos (h : Accounted cfg s) (hl : s.places[l]? = some p)
    (hp : p.counted = true) : 0 < s.stats.active := by
  rw [h.active]
  exact List.countP_pos_iff.2 ⟨p, List.mem_of_getElem? hl, hp⟩

/-- The release of a handle takes it out of the count, if it is in it. -/
theorem Accounted.active_releaseOf (h : Accounted cfg s) (hl : s.places[l]? = some (.handle x)) :
    (releaseOf x s.stats).active + (if x.valid then 1 else 0) = s.stats.active := by
  rw [releaseOf, (h.sound_of hl rfl).releases_eq]
  by_cases hv : x.valid = true
  · have hpos : 0 < s.stats.active := h.active_pos hl hv
    rw [if_pos hv, if_pos hv, Stats.onRelease, if_pos hpos]
    exact Nat.sub_add_cancel hpos
  · rw [if_neg hv, if_neg hv, Nat.add_zero]

/-- What the client gets back is what the slot held. -/
theorem count_closeSession {slot : SessionSlot} (h : ∀ id ∈ slot.ids, id ∈ out) (id : Nat) :
    (closeSession out slot).count id + slot.ids.count id = out.count id := by
  cases slot with
  | empty => rfl
  | moved => rfl
  | live k =>
    have hk : 0 < out.count k := List.count_pos_iff.2 (h k (List.mem_singleton.2 rfl))
    rw [closeSession, SessionSlot.ids, List.count_erase, List.count_singleton]
    by_cases hid : k = id
    · subst hid
      rw [if_pos (beq_self_eq_true k)]
      exact Nat.sub_add_cancel hk
    · rw [if_neg (by simpa using hid)]
      rfl

theorem closeSession_sublist (out : List Nat) (slot : SessionSlot) :
    (closeSession out slot).Sublist out := by
  cases slot with
  | empty => exact .refl _
  | moved => exact .refl _
  | live k => exact List.erase_sublist

theorem bound_of_sublist {out' : List Nat} (h : out'.Sublist out)
    (hbound : (out.length : Int) ≤ cfg.maxSize) : (out'.length : Int) ≤ cfg.maxSize :=
  Int.le_trans (Int.ofNat_le.2 h.length_le) hbound

/-- A session that the client may hand out is one more that is out. -/
theorem Accounted.getSession (h : Accounted cfg s) {id : Nat} (ha : Available cfg s id)
    (hl : s.places[l]? = some .free) (hp' : p'.Sound) (hids : p'.ids = [id])
    (hc : p'.counted = false) :
    Accounted cfg { s with out := s.out ++ [id], places := s.places.set l p' } := by
  have hnodup : (s.out ++ [id]).Nodup := by
    rw [← List.concat_eq_append]
    exact h.nodup.concat ha.1
  refine h.set hl hp' (fun k => ?_) hnodup ?_ ?_
  · rw [List.count_append, hids]
    rfl
  · have := ha.2
    rw [List.length_append, List.length_singleton]
    omega
  · rw [hc]
    rfl

theorem sound_of_connection_eq_none (h : p.connection = none) : p.Sound := fun x hx => by
  rw [h] at hx
  cases hx

/-- A variable without a session. -/
theorem Accounted.define (h : Accounted cfg s) (hl : s.places[l]? = some .free) :
    Accounted cfg { s with places := s.places.set l (.handle {}) } := by
  have hsound : (Place.handle {}).Sound := fun x hx =>
    Option.some.inj hx ▸ PooledConnection.sound_default
  exact h.set hl hsound (fun _ => rfl) h.nodup h.bound rfl

/-- The client has refused a session. -/
theorem Accounted.refuse (h : Accounted cfg s) {what : Bytes} (hl : s.places[l]? = some .free) :
    Accounted cfg { s with places := s.places.set l (.refused what) } :=
  h.set hl (sound_of_connection_eq_none rfl) (fun _ => rfl) h.nodup h.bound rfl

/-- `on_acquire` counts the handle that comes to be. -/
theorem Accounted.onAcquire (h : Accounted cfg s) {id : Nat}
    (hl : s.places[l]? = some (.acquired id)) :
    Accounted cfg { s with
      stats := s.stats.onAcquire, places := s.places.set l (.handle (.ofSession id)) } := by
  have hsound : (Place.handle (.ofSession id)).Sound := fun x hx =>
    Option.some.inj hx ▸ PooledConnection.sound_ofSession id
  exact h.set hl hsound (fun _ => rfl) h.nodup h.bound rfl

/-- The `catch` clause leaves the count of the active handles alone. -/
theorem Accounted.caught (h : Accounted cfg s) {what : Bytes}
    (hl : s.places[l]? = some (.refused what)) (hstats : stats.active = s.stats.active) :
    Accounted cfg { s with stats, places := s.places.set l .free } :=
  h.set hl (sound_of_connection_eq_none rfl) (fun _ => rfl) h.nodup h.bound hstats

/-- A session goes on to a handle that was not there. -/
theorem Accounted.moveConstruct (h : Accounted cfg s) (hl : s.places[l]? = some .free)
    (hsrc : s.places[src]? = some (.handle y)) :
    Accounted cfg { s with
      places := (s.places.set l (.handle y.moveConstruct)).set src (.handle y.afterMove) } := by
  have hne : l ≠ src := by
    rintro rfl
    cases hl.symm.trans hsrc
  have hsound : (Place.handle y.moveConstruct).Sound := fun x hx =>
    Option.some.inj hx ▸ h.sound_of hsrc rfl
  have hmoved : (Place.handle y.afterMove).Sound := fun x hx =>
    Option.some.inj hx ▸ y.sound_afterMove
  refine h.set_set hl hsrc hne hsound hmoved (fun id => ?_) h.nodup h.bound ?_
  · simp only [Place.ids, y.ids_afterMove, List.count_nil]
    rfl
  · simp only [Place.counted]
    rfl

/-- `operator=` up to the release: the handle that is assigned to is no longer counted. -/
theorem Accounted.moveAssign (h : Accounted cfg s) (hl : s.places[l]? = some (.handle x))
    (hsrc : s.places[src]? = some (.handle y)) (hne : l ≠ src) :
    Accounted cfg { s with
      stats := releaseOf x s.stats
      places := (s.places.set l (.assigning src x)).set src (.source y) } := by
  have hsound : (Place.assigning src x).Sound := fun z hz =>
    Option.some.inj hz ▸ h.sound_of hl rfl
  have hsource : (Place.source y).Sound := fun z hz => Option.some.inj hz ▸ h.sound_of hsrc rfl
  refine h.set_set hl hsrc hne hsound hsource (fun _ => rfl) h.nodup h.bound ?_
  exact congrArg (· + if y.valid then 1 else 0) (h.active_releaseOf hl)

/-- The rest of `operator=`: the client gets the old session back. -/
theorem Accounted.assigned (h : Accounted cfg s) (hl : s.places[l]? = some (.assigning src x))
    (hsrc : s.places[src]? = some (.source y)) :
    Accounted cfg { s with
      out := closeSession s.out x.session
      places := (s.places.set l (.handle y.moveAssign)).set src (.handle y.afterMove) } := by
  have hne : l ≠ src := by
    rintro rfl
    cases hl.symm.trans hsrc
  have hclose := closeSession_sublist s.out x.session
  have hsound : (Place.handle y.moveAssign).Sound := fun z hz => by
    rw [← Option.some.inj hz, y.moveAssign_eq]
    exact h.sound_of hsrc rfl
  have hmoved : (Place.handle y.afterMove).Sound := fun z hz =>
    Option.some.inj hz ▸ y.sound_afterMove
  refine h.set_set hl hsrc hne hsound hmoved (fun id => ?_) (h.nodup.sublist hclose)
    (bound_of_sublist hclose h.bound) ?_
  · have hcount := count_closeSession (fun k hk => h.mem_out hl hk) id
    simp only [Place.ids, y.ids_afterMove, y.moveAssign_eq, List.count_nil]
    omega
  · simp only [Place.counted, y.moveAssign_eq]
    rfl

/-- The destructor up to the release. -/
theorem Accounted.destroy (h : Accounted cfg s) (hl : s.places[l]? = some (.handle x)) :
    Accounted cfg { s with
      stats := releaseOf x s.stats, places := s.places.set l (.destroying x) } := by
  have hsound : (Place.destroying x).Sound := fun z hz =>
    Option.some.inj hz ▸ h.sound_of hl rfl
  exact h.set hl hsound (fun _ => rfl) h.nodup h.bound (h.active_releaseOf hl)

/-- A call ends with a session that it does not count: the client gets it back. -/
theorem Accounted.close (h : Accounted cfg s) {slot : SessionSlot} (hl : s.places[l]? = some p)
    (hids : p.ids = slot.ids) (hcounted : p.counted = false) :
    Accounted cfg { s with out := closeSession s.out slot, places := s.places.set l .free } := by
  have hclose := closeSession_sublist s.out slot
  refine h.set hl (sound_of_connection_eq_none rfl) (fun id => ?_) (h.nodup.sublist hclose)
    (bound_of_sublist hclose h.bound) ?_
  · rw [hids]
    exact count_closeSession (fun k hk => h.mem_out hl (hids ▸ hk)) id
  · rw [hcounted]
    rfl

/-- Every step keeps the accounts. -/
theorem Accounted.step (h : Accounted cfg s) {a : Action} (hs : step cfg s a = some s') :
    Accounted cfg s' := by
  cases a with
  | define l =>
    simp only [ConnectionPool.step] at hs
    split at hs
    · next hl => cases hs; exact h.define hl
    · cases hs
  | acquire l answer =>
    simp only [ConnectionPool.step] at hs
    split at hs
    · next id hl =>
      split_ifs at hs with ha
      cases hs
      exact h.getSession ha hl (sound_of_connection_eq_none rfl) rfl rfl
    · next what hl => cases hs; exact h.refuse hl
    · cases hs
  | acquired l =>
    simp only [ConnectionPool.step] at hs
    split at hs
    · next id hl => cases hs; exact h.onAcquire hl
    · cases hs
  | refused l =>
    simp only [ConnectionPool.step] at hs
    split at hs
    · next what hl =>
      cases hs
      refine h.caught hl ?_
      split <;> rfl
    · cases hs
  | moveConstruct l src =>
    simp only [ConnectionPool.step] at hs
    split at hs
    · next y hl hsrc => cases hs; exact h.moveConstruct hl hsrc
    · cases hs
  | moveAssign l src =>
    simp only [ConnectionPool.step] at hs
    split at hs
    · next x y hl hsrc =>
      split_ifs at hs with hne
      · cases hs; exact h
      · cases hs; exact h.moveAssign hl hsrc hne
    · cases hs
  | assigned l =>
    simp only [ConnectionPool.step] at hs
    split at hs
    · next src x hl =>
      split at hs
      · next y hsrc => cases hs; exact h.assigned hl hsrc
      · cases hs
    · cases hs
  | destroy l =>
    simp only [ConnectionPool.step] at hs
    split at hs
    · next x hl => cases hs; exact h.destroy hl
    · cases hs
  | destroyed l =>
    simp only [ConnectionPool.step] at hs
    split at hs
    · next x hl => cases hs; exact h.close hl rfl rfl
    · cases hs
  | ping l answer =>
    simp only [ConnectionPool.step] at hs
    split at hs
    · next id hl =>
      split_ifs at hs with ha
      cases hs
      exact h.getSession ha hl (sound_of_connection_eq_none rfl) rfl rfl
    · cases hs; exact h
    · cases hs
  | pinged l =>
    simp only [ConnectionPool.step] at hs
    split at hs
    · next id hl =>
      cases hs
      have hids : (Place.pinging id).ids = (SessionSlot.live id).ids := rfl
      exact h.close hl hids rfl
    · cases hs

/-! ## Executions -/

/-- The accounts of a pool without sessions. -/
theorem accounted_of_init (hi : (system cfg).init s) : Accounted cfg s := by
  obtain ⟨hcfg, hstats, hout, hfree⟩ := hi
  have hids : s.places.flatMap Place.ids = [] :=
    List.flatMap_eq_nil_iff.2 fun p hp => by rw [hfree p hp]; rfl
  have hcounted : s.places.countP Place.counted = 0 :=
    List.countP_eq_zero.2 fun p hp => by rw [hfree p hp]; exact Bool.false_ne_true
  have hmax : 1 ≤ cfg.maxSize := by
    rw [validate] at hcfg
    split_ifs at hcfg
    omega
  refine ⟨fun p hp => ?_, ?_, ?_, ?_, ?_⟩
  · rw [hfree p hp]
    exact sound_of_connection_eq_none rfl
  · rw [hout, hids]
  · rw [hout]
    exact List.nodup_nil
  · rw [hout]
    exact Int.le_trans (by decide) hmax
  · rw [hstats, hcounted]

theorem Accounted.of_reach (h : (system cfg).Reach System.Always s) : Accounted cfg s :=
  h.invariant (fun _ => accounted_of_init) fun _ _ _ ht _ hs => ht.step hs

/-- No session is at two places. -/
theorem Accounted.eq_of_mem (h : Accounted cfg s) {id : Nat} (hl : s.places[l]? = some p)
    (hsrc : s.places[src]? = some q) (hp : id ∈ p.ids) (hq : id ∈ q.ids) : l = src := by
  have hpairs := (List.nodup_flatMap.1 (h.owned.nodup_iff.1 h.nodup)).2
  rw [List.pairwise_iff_getElem] at hpairs
  obtain ⟨hlt, rfl⟩ := List.getElem?_eq_some_iff.1 hl
  obtain ⟨hlt', rfl⟩ := List.getElem?_eq_some_iff.1 hsrc
  rcases Nat.lt_trichotomy l src with hless | heq | hless
  · exact absurd hq (List.disjoint_left.1 (hpairs l src hlt hlt' hless) hp)
  · exact heq
  · exact absurd hp (List.disjoint_left.1 (hpairs src l hlt' hlt hless) hq)

/-- A counted place has a session. -/
theorem length_ids_of_counted (hp : p.Sound) (hc : p.counted = true) : p.ids.length = 1 := by
  have hlive {x : PooledConnection} (hx : x.Sound) (hv : x.valid = true) :
      x.session.ids.length = 1 := by
    obtain ⟨id, hid⟩ := hx.2.1 hv
    rw [hid]
    rfl
  cases p with
  | handle x => exact hlive (hp x rfl) hc
  | source x => exact hlive (hp x rfl) hc
  | free => cases hc
  | acquired id => cases hc
  | refused what => cases hc
  | assigning src x => cases hc
  | destroying x => cases hc
  | pinging id => cases hc

theorem countP_le_length_flatMap {l : List Place} (hl : ∀ p ∈ l, p.Sound) :
    l.countP Place.counted ≤ (l.flatMap Place.ids).length := by
  induction l with
  | nil => exact Nat.le_refl _
  | cons p l ih =>
    have hrest := ih fun q hq => hl q (List.mem_cons_of_mem _ hq)
    rw [List.countP_cons, List.flatMap_cons, List.length_append]
    by_cases hc : p.counted = true
    · rw [if_pos hc, length_ids_of_counted (hl p List.mem_cons_self) hc]
      omega
    · rw [if_neg hc]
      omega

/-- What holds of the pool at any time. -/
structure Safe (cfg : PoolConfig) (s : State) : Prop where
  /-- The active handles are the valid ones that are not being released. -/
  active : s.stats.active = s.places.countP Place.counted
  /-- They are no more than the sessions that are out, and these no more than the pool may have. -/
  bound : s.stats.active ≤ s.out.length ∧ (s.out.length : Int) ≤ cfg.maxSize
  /-- A session that is out is at exactly one place. -/
  owner : ∀ id ∈ s.out, ∃! l : Nat, ∃ p, s.places[l]? = some p ∧ id ∈ p.ids
  /-- A handle is valid exactly if it has a session, which is out. -/
  valid : ∀ (l : Nat) (x), s.places[l]? = some (.handle x) →
    (x.valid = true ↔ ∃ id ∈ s.out, x.session = .live id)
  /-- A release is never left out because the count is at zero. -/
  release : ∀ (l : Nat) (x), s.places[l]? = some (.handle x) → x.releases = true →
    0 < s.stats.active
  /-- Without valid handles and calls at work, the client has all its sessions back. -/
  idle : (∀ p ∈ s.places, p = .free ∨ ∃ x, p = .handle x ∧ x.valid = false) →
    s.stats.active = 0 ∧ s.out = []

/-- In every execution, whatever the interleaving of the calls, no session is lost and none has
    two owners, and the statistics count the valid handles. -/
theorem safe_of_reach (s : State) (hr : (system cfg).Reach System.Always s) : Safe cfg s := by
  have h := Accounted.of_reach hr
  refine ⟨h.active, ⟨?_, h.bound⟩, fun id hid => ?_, fun l x hl => ?_, fun l x hl hx => ?_,
    fun hidle => ?_⟩
  · rw [h.active, h.owned.length_eq]
    exact countP_le_length_flatMap h.sound
  · obtain ⟨p, hp, hpid⟩ := List.mem_flatMap.1 (h.owned.mem_iff.1 hid)
    obtain ⟨l, hl⟩ := List.mem_iff_getElem?.1 hp
    refine ⟨l, ⟨p, hl, hpid⟩, ?_⟩
    rintro k ⟨q, hk, hq⟩
    exact h.eq_of_mem hk hl hq hpid
  · have hx := (h.sound_of hl rfl).2
    refine hx.trans ⟨?_, fun ⟨id, _, hid⟩ => ⟨id, hid⟩⟩
    rintro ⟨id, hid⟩
    have hmem : id ∈ (Place.handle x).ids := by
      rw [Place.ids, hid]
      exact List.mem_singleton.2 rfl
    exact ⟨id, h.mem_out hl hmem, hid⟩
  · rw [(h.sound_of hl rfl).releases_eq] at hx
    exact h.active_pos hl hx
  · have hnone : ∀ p ∈ s.places, p.ids = [] ∧ p.counted = false := by
      intro p hp
      rcases hidle p hp with rfl | ⟨x, rfl, hx⟩
      · exact ⟨rfl, rfl⟩
      · refine ⟨?_, hx⟩
        have hsound := (h.sound _ hp x rfl).2
        rw [hx] at hsound
        cases hs : x.session with
        | empty => rw [Place.ids, hs]; rfl
        | moved => rw [Place.ids, hs]; rfl
        | live id => exact absurd (hsound.2 ⟨id, hs⟩) Bool.false_ne_true
    constructor
    · rw [h.active]
      exact List.countP_eq_zero.2 fun p hp => by rw [(hnone p hp).2]; exact Bool.false_ne_true
    · have hempty : s.places.flatMap Place.ids = [] :=
        List.flatMap_eq_nil_iff.2 fun p hp => (hnone p hp).1
      have howned := h.owned
      rw [hempty] at howned
      exact howned.eq_nil

/-- Two acquisitions with a `ping` in between; a handle is moved, another one is assigned to it,
    and what is left is destroyed. -/
def twoHandles : List Action :=
  [.acquire 0 (.ok 7), .acquire 1 (.ok 8), .acquired 1, .ping 2 (.ok 9), .acquired 0,
    .moveConstruct 3 0, .pinged 2, .moveAssign 3 1, .acquire 2 (.error (bytes "timed out")),
    .assigned 3, .refused 2, .destroy 0, .destroyed 0]

/-- The pool of the run: its configuration names a database. -/
def testPool : PoolConfig := { database := bytes "litecode" }

/-- After the run one session is out, with the handle that was assigned to. -/
theorem safe_twoHandles : ∃ s, s.stats = ⟨2, 1, 1⟩ ∧ s.out = [8] ∧
    s.places[3]? = some (.handle (.ofSession 8)) ∧ Safe testPool s := by
  obtain ⟨s, hl, hs⟩ := System.exists_exec_of_run (S := system testPool)
    (s := ⟨{}, [], List.replicate 4 .free⟩) (l := twoHandles) (p := fun s =>
      s.stats = ⟨2, 1, 1⟩ ∧ s.out = [8] ∧ s.places[3]? = some (.handle (.ofSession 8)))
    (by decide +kernel)
  obtain ⟨hstats, hout, hplace⟩ := of_decide_eq_true hs
  refine ⟨s, hstats, hout, hplace, safe_of_reach s ⟨_, twoHandles, ?_, hl⟩⟩
  exact ⟨rfl, rfl, rfl, fun p hp => List.eq_of_mem_replicate hp⟩

end LiteCode.ConnectionPool
