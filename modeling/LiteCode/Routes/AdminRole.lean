import LiteCode.Db.UserRepo
import LiteCode.Lib.ListIndex
import LiteCode.Lib.Stoi
import LiteCode.Lib.System
import LiteCode.Routes.ErrorHandler

/-!
# Changing the role of a user

`change_user_role_handler` of `src/routes/admin_user_routes.h`, any number of times at once. A
request is checked, and is then four statements: it reads the row of the user, updates the role,
writes a row of the audit log, and reads the row again. A statement may fail.

The role of the caller is the one of the access token, which stays valid when the role of its
account changes. The only guard of the last admin is that nobody can take the role from the own
account: two admins can take it from each other. With callers that are still admins when they take
the role from somebody, an admin remains (`exists_admin_of_reach`).

A request for the role that the user has already is answered without a write. So a request that
failed after its update is answered with success when it is repeated, and the change is not in the
audit log. With audit rows that can be written, every change is there (`recorded_of_reach`).
-/

namespace LiteCode.AdminUserRoutes

open UserRepo ErrorHandler

/-! ## The checks of a request -/

/-- `Claims`: what the handler reads of an access token. -/
structure Claims where
  userId : Bytes
  username : Bytes
  role : Role
  deriving DecidableEq, Repr

/-- A response. -/
inductive Answer
  | error (e : Envelope)
  | user (row : UserRow)
  deriving DecidableEq, Repr

/-- The status of a response. -/
def Answer.status : Answer → Nat
  | .error e => e.status
  | .user _ => 200

/-- A request with an access token that was verified, and what the rate limit answers if it refuses
    the request. -/
structure Request where
  claims : Claims
  limited : Option Envelope
  path : Bytes
  body : Bytes
  /-- The text of the exception of the JSON reader. -/
  parseError : Bytes
  ip : Bytes
  deriving DecidableEq, Repr

/-- `parse_id_param`. -/
def parseIdParam (raw : Bytes) : Option Int :=
  if raw.isEmpty || decide (11 < raw.length) || !raw.all Json.isDigit then none
  else
    let v := Json.digitsVal raw
    if v < 1 ∨ 2147483647 < v then none else some v

/-- `extract_id_from_path`. -/
def extractIdFromPath (path : Bytes) : Option Bytes :=
  let start := bytes "/api/v1/admin/users/"
  let suffix := bytes "/role"
  let body := (path.drop start.length).take (path.length - start.length - suffix.length)
  if path.length ≤ start.length + suffix.length then none
  else if path.take start.length ≠ start then none
  else if path.drop (path.length - suffix.length) ≠ suffix then none
  else if body.isEmpty || body.contains 0x2F then none
  else some body

/-- The role of a name. -/
def roleOfName (name : Bytes) : Option Role :=
  if name = Role.name .user then some .user
  else if name = Role.name .admin then some .admin
  else none

/-- The id in the path. -/
def parseTarget (req : Request) : Except Envelope Int :=
  match extractIdFromPath req.path with
  | none => .error (invalidInput (bytes "user id path component is invalid") [field (bytes "id")])
  | some raw =>
    match parseIdParam raw with
    | none => .error (invalidInput (bytes "user id must be a positive integer")
        [field (bytes "id"), .text (bytes "value") (truncateForEnvelope raw)])
    | some id => .ok id

/-- The role in the body. -/
def parseRole (j : Json) : Except Envelope Role :=
  match j.get? (bytes "role") with
  | some (.str name) =>
    match roleOfName name with
    | some role => .ok role
    | none => .error (invalidInput (bytes "role must be one of: user, admin")
        [field (bytes "role"), .text (bytes "value") (truncateForEnvelope name)])
  | _ => .error (invalidInput (bytes "missing or non-string field 'role'") [field (bytes "role")])

/-- The steps 1 to 4: the user and the role that a request asks for. -/
def parseRequest (req : Request) : Except Envelope (Int × Role) := do
  if req.claims.role ≠ .admin then
    throw ⟨403, .forbidden, bytes "insufficient privileges", []⟩
  if let some e := req.limited then
    throw e
  let target ← parseTarget req
  let j ← parseJsonBody req.body req.parseError
  let role ← parseRole j
  pure (target, role)

/-- The id of the caller: a text that is no number counts as `-1`. -/
def adminUserId (claims : Claims) : Int := (stoi claims.userId).getD (-1)

/-- Nobody can take the role of an admin from the own account. -/
def checkRequest (req : Request) : Except Envelope (Int × Role) :=
  match parseRequest req with
  | .error e => .error e
  | .ok (target, role) =>
    if role = .user ∧ target = adminUserId req.claims then
      .error ⟨403, .forbidden, Utf8.ofString "管理员账户不可自降为普通用户",
        [.text (bytes "reason") (bytes "admin_self_demote_forbidden"),
          .text (bytes "admin_id") (decimalInt (adminUserId req.claims))]⟩
    else .ok (target, role)

/-! ## The statements of a request -/

/-- `AuditEntry`: the row that the handler writes to the audit log. -/
structure AuditRow where
  adminId : Int
  action : Bytes
  targetType : Bytes
  targetId : Bytes
  username : Bytes
  oldRole : Role
  newRole : Role
  ip : Bytes
  deriving DecidableEq, Repr

/-- The statement that comes next. -/
inductive Pc
  | finding
  /-- The row that was read has another role. -/
  | updating (old : UserRow)
  /-- The role was updated. -/
  | auditing (old : UserRow)
  | refetching
  | answered (answer : Answer)
  deriving DecidableEq, Repr

/-- A request in progress. -/
structure Call where
  claims : Claims
  ip : Bytes
  target : Int
  role : Role
  pc : Pc
  deriving DecidableEq, Repr

/-- The request has its answer. -/
def Call.over (c : Call) : Bool :=
  match c.pc with
  | .answered _ => true
  | _ => false

/-- The tables, the requests, and the changes of roles, the last one first. -/
structure State (weight : Bytes → Bytes) where
  tables : Tables weight
  audits : List AuditRow
  calls : List Call
  /-- The user, the role before and the role after. -/
  changes : List (Int × Role × Role)

/-- The steps: a new request, and the next statement of the request `p` with its outcome. -/
inductive Action
  | request (req : Request)
  | statement (p : Nat) (db : Except Bytes Unit)
  deriving DecidableEq

variable {weight : Bytes → Bytes}

/-- The answer when there is no such user. -/
def userNotFound (target : Int) : Answer :=
  .error ⟨404, .notFound, bytes "user not found", [.number (bytes "user_id") target]⟩

/-- The call of a request. -/
def begin (req : Request) : Call :=
  match checkRequest req with
  | .error e => ⟨req.claims, req.ip, 0, .user, .answered (.error e)⟩
  | .ok (target, role) => ⟨req.claims, req.ip, target, role, .finding⟩

/-- The row of the audit log; `stoi` throws on a text that is no number. -/
def auditRow (c : Call) (old : UserRow) : Option AuditRow :=
  (stoi c.claims.userId).map fun adminId =>
    ⟨adminId, bytes "user.role_change", bytes "user", decimalInt c.target, old.username, old.role,
      c.role, c.ip⟩

/-- The request `p` goes on at `pc`. -/
def State.goto (s : State weight) (p : Nat) (c : Call) (pc : Pc) : State weight :=
  { s with calls := s.calls.set p { c with pc } }

/-- A statement with its outcome: an exception is answered with a `500`. -/
def State.try (s : State weight) (p : Nat) (c : Call) (db : Except Bytes Unit) (text : Bytes)
    (next : State weight) : Option (State weight) :=
  match db with
  | .error e => some (s.goto p c (.answered (.error (internalError (text ++ e)))))
  | .ok () => some next

/-- `find_by_id`, and the answer to a role that the user has already. -/
def find (s : State weight) (p : Nat) (c : Call) : State weight :=
  match s.tables.findById c.target with
  | none => s.goto p c (.answered (userNotFound c.target))
  | some row =>
    if row.role = c.role then s.goto p c (.answered (.user row))
    else s.goto p c (.updating row)

/-- `update_role`. -/
def update (s : State weight) (p : Nat) (c : Call) (old : UserRow) : State weight :=
  let (updated, tables) := s.tables.updateRole c.target c.role
  let changes := match s.tables.findById c.target with
    | some row => if updated then (c.target, row.role, c.role) :: s.changes else s.changes
    | none => s.changes
  let s := { s with tables, changes }
  if updated then s.goto p c (.auditing old) else s.goto p c (.answered (userNotFound c.target))

/-- `audit_log_repo::record`, unless the id of the caller is no number. -/
def audit (s : State weight) (p : Nat) (c : Call) (db : Except Bytes Unit) (old : UserRow) :
    Option (State weight) :=
  match auditRow c old with
  | some row => s.try p c db (bytes "audit log write failed: ")
      ({ s with audits := s.audits ++ [row] }.goto p c .refetching)
  | none =>
    some (s.goto p c (.answered (.error (internalError (bytes "audit log write failed: stoi")))))

/-- The second `find_by_id`. -/
def refetch (s : State weight) (p : Nat) (c : Call) : State weight :=
  match s.tables.findById c.target with
  | some row => s.goto p c (.answered (.user row))
  | none => s.goto p c (.answered (.error (internalError
      (bytes "internal error: admin_users_role: row " ++ decimalInt c.target ++
        bytes " missing after update"))))

/-- The next statement of a request. -/
def statement (s : State weight) (p : Nat) (c : Call) (db : Except Bytes Unit) :
    Option (State weight) :=
  match c.pc with
  | .finding => s.try p c db (bytes "internal error: ") (find s p c)
  | .updating old => s.try p c db (bytes "internal error: ") (update s p c old)
  | .auditing old => audit s p c db old
  | .refetching => s.try p c db (bytes "internal error: ") (refetch s p c)
  | .answered _ => none

/-- One step. -/
def step (s : State weight) : Action → Option (State weight)
  | .request req => some { s with calls := s.calls ++ [begin req] }
  | .statement p db => s.calls[p]?.bind fun c => statement s p c db

/-- The handlers, from any database on. -/
def system (weight : Bytes → Bytes) : System (State weight) Action where
  init s := s.calls = [] ∧ s.changes = []
  step := step

variable {s s' : State weight} {a : Action} {c : Call} {p : Nat} {db : Except Bytes Unit}

theorem try_eq_some {text : Bytes} {next : State weight} (h : s.try p c db text next = some s') :
    (∃ answer, s' = s.goto p c (.answered answer) ∧ db ≠ .ok ()) ∨ db = .ok () ∧ s' = next := by
  cases db with
  | error e =>
    cases h
    exact .inl ⟨_, rfl, by simp⟩
  | ok u =>
    cases h
    exact .inr ⟨rfl, rfl⟩

/-- What a statement can do. -/
inductive Moves (s : State weight) (p : Nat) (c : Call) (db : Except Bytes Unit) :
    State weight → Prop
  /-- The request is answered, and nothing is written: after an update, this is a failure of the
      audit log. -/
  | answer (answer : Answer) (hover : c.over = false)
      (hfail : ∀ old, c.pc = .auditing old → db = .ok () → auditRow c old = none) :
      Moves s p c db (s.goto p c (.answered answer))
  /-- The user is found with another role. -/
  | found (row : UserRow) (hpc : c.pc = .finding) (hrow : s.tables.findById c.target = some row)
      (hrole : row.role ≠ c.role) : Moves s p c db (s.goto p c (.updating row))
  /-- The role is changed. -/
  | updated (old row : UserRow) (hpc : c.pc = .updating old) (hdb : db = .ok ())
      (hrow : s.tables.findById c.target = some row) (hrole : row.role ≠ c.role) :
      Moves s p c db ({ s with
        tables := (s.tables.updateRole c.target c.role).2
        changes := (c.target, row.role, c.role) :: s.changes }.goto p c (.auditing old))
  /-- There is nothing to change, and the answer is a `404`. -/
  | unchanged (old : UserRow) (hpc : c.pc = .updating old) (hdb : db = .ok ())
      (hrow : ∀ row, s.tables.findById c.target = some row → row.role = c.role) :
      Moves s p c db ({ s with tables := (s.tables.updateRole c.target c.role).2 }.goto p c
        (.answered (userNotFound c.target)))
  /-- The change is written to the audit log. -/
  | audited (old : UserRow) (row : AuditRow) (hpc : c.pc = .auditing old)
      (hrow : auditRow c old = some row) :
      Moves s p c db ({ s with audits := s.audits ++ [row] }.goto p c .refetching)

theorem over_eq_false {pc : Pc} (h : c.pc = pc) (hpc : ∀ answer, pc ≠ .answered answer) :
    c.over = false := by
  rw [Call.over]
  split
  · next answer ha => exact absurd (h.symm.trans ha) (hpc answer)
  · rfl

theorem moves_update {old : UserRow} (hpc : c.pc = .updating old) :
    Moves s p c (.ok ()) (update s p c old) := by
  have hfst : (s.tables.updateRole c.target c.role).1 =
      (s.tables.findById c.target).any fun r => r.role ≠ c.role := rfl
  simp only [update]
  cases hrow : s.tables.findById c.target with
  | none =>
    rw [hfst, hrow]
    refine .unchanged old hpc rfl fun row h => ?_
    rw [hrow] at h
    cases h
  | some row =>
    by_cases hrole : row.role = c.role
    · have hsame : (s.tables.updateRole c.target c.role).1 = false := by simp [hfst, hrow, hrole]
      simp only [hsame, Bool.false_eq_true, if_false]
      refine .unchanged old hpc rfl fun row' h => ?_
      rw [hrow] at h
      cases h
      exact hrole
    · have hdiff : (s.tables.updateRole c.target c.role).1 = true := by simp [hfst, hrow, hrole]
      simp only [hdiff, if_true]
      exact .updated old row hpc rfl hrow hrole

theorem moves_statement (h : statement s p c db = some s') : Moves s p c db s' := by
  rw [statement] at h
  -- A statement that fails does nothing but answer.
  have herror : ∀ {pc : Pc}, c.pc = pc → (∀ answer, pc ≠ .answered answer) →
      (∃ answer, s' = s.goto p c (.answered answer) ∧ db ≠ .ok ()) → Moves s p c db s' := by
    rintro pc hpc hne ⟨answer, rfl, hdb⟩
    exact .answer answer (over_eq_false hpc hne) fun _ _ hok => absurd hok hdb
  cases hpc : c.pc with
  | finding =>
    simp only [hpc] at h
    rcases try_eq_some h with h | ⟨rfl, rfl⟩
    · exact herror hpc (by simp) h
    · rw [find]
      split
      · exact .answer _ (over_eq_false hpc (by simp)) (by simp [hpc])
      · next row hrow =>
        split_ifs with hrole
        · exact .answer _ (over_eq_false hpc (by simp)) (by simp [hpc])
        · exact .found row hpc hrow hrole
  | updating old =>
    simp only [hpc] at h
    rcases try_eq_some h with h | ⟨rfl, rfl⟩
    · exact herror hpc (by simp) h
    · exact moves_update hpc
  | auditing old =>
    simp only [hpc, audit] at h
    split at h
    · next row hrow =>
      rcases try_eq_some h with h | ⟨rfl, rfl⟩
      · exact herror hpc (by simp) h
      · exact .audited old row hpc hrow
    · next hrow =>
      obtain rfl := Option.some.inj h
      refine .answer _ (over_eq_false hpc (by simp)) fun old' hpc' _ => ?_
      cases hpc.symm.trans hpc'
      exact hrow
  | refetching =>
    simp only [hpc] at h
    rcases try_eq_some h with h | ⟨rfl, rfl⟩
    · exact herror hpc (by simp) h
    · rw [refetch]
      split <;> exact .answer _ (over_eq_false hpc (by simp)) (by simp [hpc])
  | answered answer => simp [hpc] at h

/-- A statement moves its own request on, which had no answer. -/
theorem Moves.calls (h : Moves s p c db s') :
    c.over = false ∧ ∃ pc, s'.calls = s.calls.set p { c with pc } := by
  cases h with
  | answer answer hover _ => exact ⟨hover, _, rfl⟩
  | found row hpc => exact ⟨over_eq_false hpc (by simp), _, rfl⟩
  | updated old row hpc => exact ⟨over_eq_false hpc (by simp), _, rfl⟩
  | unchanged old hpc => exact ⟨over_eq_false hpc (by simp), _, rfl⟩
  | audited old row hpc => exact ⟨over_eq_false hpc (by simp), _, rfl⟩

theorem step_cases (h : step s a = some s') :
    (∃ req, a = .request req ∧ s' = { s with calls := s.calls ++ [begin req] }) ∨
    ∃ p db c, a = .statement p db ∧ s.calls[p]? = some c ∧ Moves s p c db s' := by
  cases a with
  | request req =>
    cases h
    exact .inl ⟨req, rfl, rfl⟩
  | statement p db =>
    obtain ⟨c, hc, h⟩ := Option.bind_eq_some_iff.1 h
    exact .inr ⟨p, db, c, rfl, hc, moves_statement h⟩

/-! ## The last admin -/

/-- There is an admin. -/
def HasAdmin (s : State weight) : Prop := ∃ r ∈ s.tables.users, r.role = .admin

/-- An update that takes the role of an admin from somebody is made for a caller whose own account
    is an admin. -/
def CallerIsAdmin (s : State weight) : Action → Prop
  | .statement p (.ok ()) => ∀ c ∈ s.calls[p]?, (∃ old, c.pc = .updating old) → c.role = .user →
      ∃ r ∈ s.tables.users, stoi c.claims.userId = some r.id ∧ r.role = .admin
  | _ => True

instance (c : Call) : Decidable (∃ old, c.pc = .updating old) :=
  match hpc : c.pc with
  | .updating old => isTrue ⟨old, rfl⟩
  | .finding => isFalse (by simp)
  | .auditing _ => isFalse (by simp)
  | .refetching => isFalse (by simp)
  | .answered _ => isFalse (by simp)

instance (s : State weight) (a : Action) : Decidable (CallerIsAdmin s a) :=
  match a with
  | .request _ => isTrue trivial
  | .statement _ (.error _) => isTrue trivial
  | .statement p (.ok ()) => inferInstanceAs (Decidable (∀ c ∈ s.calls[p]?, _))

/-- No request that takes a role is for the account of its caller. -/
def Guarded (s : State weight) : Prop :=
  ∀ c ∈ s.calls, c.over = false → c.role = .user → stoi c.claims.userId ≠ some c.target

theorem checkRequest_ok {req : Request} {target : Int} {role : Role}
    (h : checkRequest req = .ok (target, role)) :
    ¬ (role = .user ∧ target = adminUserId req.claims) := by
  rw [checkRequest] at h
  split at h
  · cases h
  · split_ifs at h with hself
    cases h
    exact hself

theorem begin_cases (req : Request) : (begin req).over = true ∨
    ∃ target role, checkRequest req = .ok (target, role) ∧
      begin req = ⟨req.claims, req.ip, target, role, .finding⟩ := by
  rw [begin]
  split
  · exact .inl rfl
  · next target role h => exact .inr ⟨target, role, h, rfl⟩

theorem Guarded.step (h : Guarded s) (hs : step s a = some s') : Guarded s' := by
  rcases step_cases hs with ⟨req, rfl, rfl⟩ | ⟨p, db, c, rfl, hp, hm⟩
  · intro c hc hover hrole hself
    rcases List.mem_append.1 hc with hc | hc
    · exact h c hc hover hrole hself
    · obtain rfl := List.mem_singleton.1 hc
      rcases begin_cases req with hb | ⟨target, role, hreq, hb⟩
      · rw [hover] at hb
        cases hb
      · rw [hb] at hrole hself
        exact checkRequest_ok hreq ⟨hrole, by simp [adminUserId, hself]⟩
  · obtain ⟨hover, pc, hcalls⟩ := hm.calls
    intro c' hc'
    rw [hcalls] at hc'
    rcases List.mem_or_eq_of_mem_set hc' with hc' | rfl
    · exact h c' hc'
    · exact fun _ => h c (List.mem_of_getElem? hp) hover

/-- The update of a role leaves every other admin. -/
theorem hasAdmin_updateRole {t : Tables weight} {r : UserRow} {target : Int} {role : Role}
    (hr : r ∈ t.users) (hadmin : r.role = .admin) (h : role = .user → r.id ≠ target) :
    ∃ r ∈ (t.updateRole target role).2.users, r.role = .admin := by
  refine ⟨_, Tables.mem_updateRow.2 ⟨r, hr, rfl⟩, ?_⟩
  split_ifs with hid
  · cases role with
    | user => exact absurd hid (h rfl)
    | admin => rfl
  · exact hadmin

theorem HasAdmin.step (h : HasAdmin s) (hguard : Guarded s) (hg : CallerIsAdmin s a)
    (hs : step s a = some s') : HasAdmin s' := by
  have hupdate : ∀ (c : Call) (p : Nat) old, s.calls[p]? = some c → c.pc = .updating old →
      a = .statement p (.ok ()) →
      ∃ r ∈ (s.tables.updateRole c.target c.role).2.users, r.role = .admin := by
    rintro c p old hp hpc rfl
    cases hrole : c.role with
    | admin =>
      obtain ⟨r, hr, hadmin⟩ := h
      exact hasAdmin_updateRole hr hadmin (by simp)
    | user =>
      -- the caller is an admin, and is not the user whose role is taken
      obtain ⟨r, hr, hid, hadmin⟩ := hg c hp ⟨old, hpc⟩ hrole
      refine hasAdmin_updateRole hr hadmin fun _ hself => ?_
      have hover := over_eq_false hpc (by simp)
      exact hguard c (List.mem_of_getElem? hp) hover hrole (hself ▸ hid)
  rcases step_cases hs with ⟨req, rfl, rfl⟩ | ⟨p, db, c, rfl, hp, hm⟩
  · exact h
  · cases hm with
    | answer => exact h
    | found => exact h
    | updated old row hpc hdb => exact hupdate c p old hp hpc (by rw [hdb])
    | unchanged old hpc hdb => exact hupdate c p old hp hpc (by rw [hdb])
    | audited => exact h

/-- From a database with an admin on, in every interleaving of requests in which the role of an
    admin is taken from somebody only for a caller whose own account is an admin at that time,
    there is always an admin. -/
theorem exists_admin_of_reach (weight : Bytes → Bytes) (s₀ s : State weight) (l : List Action)
    (hinit : (system weight).init s₀) (hadmin : HasAdmin s₀)
    (h : (system weight).Exec CallerIsAdmin s₀ l s) : HasAdmin s := by
  have hinv : Guarded s ∧ HasAdmin s := by
    refine h.invariant (P := fun s => Guarded s ∧ HasAdmin s) ⟨?_, hadmin⟩ ?_
    · intro c hc
      rw [hinit.1] at hc
      cases hc
    · rintro t a t' ⟨hguard, ht⟩ hg hs
      exact ⟨hguard.step hs, ht.step hguard hg hs⟩
  exact hinv.2

/-- Two admins and a user. -/
def threeUsers : Tables id where
  users := [⟨1, bytes "admin", [], .admin, none, none⟩, ⟨2, bytes "bob", [], .admin, none, none⟩,
    ⟨3, bytes "carol", [], .user, none, none⟩]
  history := []
  nextId := 4
  ids := by decide
  ids_lt := by decide
  nextId_le := by decide
  names := by decide
  oldNames := by decide
  owners := by decide

/-- No request yet. -/
def start : State id := ⟨threeUsers, [], [], []⟩

/-- The request of an admin, by the text of the own id, for the role of the user in the path. -/
def roleRequest (userId target : String) (role : Role) : Request where
  claims := ⟨bytes userId, bytes "someone", .admin⟩
  limited := none
  path := bytes "/api/v1/admin/users/" ++ bytes target ++ bytes "/role"
  body := bytes "\x7b\"role\":\"" ++ role.name ++ bytes "\"\x7d"
  parseError := []
  ip := bytes "127.0.0.1"

/-- The statements of two requests in turn. -/
def inTurn : List Action :=
  [.statement 0 (.ok ()), .statement 1 (.ok ()), .statement 0 (.ok ()), .statement 1 (.ok ()),
    .statement 0 (.ok ()), .statement 1 (.ok ()), .statement 0 (.ok ()), .statement 1 (.ok ())]

/-- An admin takes the role from another one while the other one gives it to a third user. -/
theorem exists_admin_inTurn : ∃ s : State id, s.calls.all Call.over = true ∧
    s.tables.users.map UserRow.role = [.admin, .user, .admin] ∧ HasAdmin s := by
  obtain ⟨s, hl, hs⟩ := System.exists_exec_of_runGuarded (S := system id) (G := CallerIsAdmin)
    (s := start) (l := .request (roleRequest "1" "2" .user) ::
      .request (roleRequest "2" "3" .admin) :: inTurn)
    (p := fun s => s.calls.all Call.over ∧
      s.tables.users.map UserRow.role = [.admin, .user, .admin]) (by decide +kernel)
  obtain ⟨hover, hroles⟩ := of_decide_eq_true hs
  exact ⟨s, hover, hroles, exists_admin_of_reach id start s _ ⟨rfl, rfl⟩
    ⟨_, List.mem_cons_self, rfl⟩ hl⟩

/-- Two admins take the role from each other, at the same time or one after the other. -/
theorem no_admin_left :
    (∃ s l, (system id).Exec System.Always start ([.request (roleRequest "1" "2" .user),
      .request (roleRequest "2" "1" .user)] ++ l) s ∧ HasAdmin start ∧ ¬ HasAdmin s) ∧
    ∃ s l, (system id).Exec System.Always start ([.request (roleRequest "1" "2" .user),
      .statement 0 (.ok ()), .statement 0 (.ok ()), .statement 0 (.ok ()), .statement 0 (.ok ()),
      .request (roleRequest "2" "1" .user)] ++ l) s ∧ HasAdmin start ∧ ¬ HasAdmin s := by
  have hrun : ∀ l, ((system id).run start l).any (fun s => ∀ r ∈ s.tables.users, r.role ≠ .admin) =
      true → ∃ s, (system id).Exec System.Always start l s ∧ HasAdmin start ∧ ¬ HasAdmin s := by
    intro l h
    obtain ⟨s, hl, hs⟩ := System.exists_exec_of_run h
    refine ⟨s, hl, ⟨_, List.mem_cons_self, rfl⟩, ?_⟩
    rintro ⟨r, hr, hadmin⟩
    exact of_decide_eq_true hs r hr hadmin
  constructor
  · obtain ⟨s, hs⟩ := hrun ([.request (roleRequest "1" "2" .user),
      .request (roleRequest "2" "1" .user)] ++ inTurn) (by decide +kernel)
    exact ⟨s, _, hs⟩
  · obtain ⟨s, hs⟩ := hrun ([.request (roleRequest "1" "2" .user),
      .statement 0 (.ok ()), .statement 0 (.ok ()), .statement 0 (.ok ()), .statement 0 (.ok ()),
      .request (roleRequest "2" "1" .user)] ++ [.statement 1 (.ok ()), .statement 1 (.ok ()),
      .statement 1 (.ok ()), .statement 1 (.ok ())]) (by decide +kernel)
    exact ⟨s, _, hs⟩

/-! ## The audit log -/

/-- A request is made when the ones before have their answers. -/
def Sequential (s : State weight) : Action → Prop
  | .request _ => ∀ c ∈ s.calls, c.over = true
  | .statement _ _ => True

/-- The row that was read by a request whose update is done. -/
def Pc.audits : Pc → Option UserRow
  | .auditing old => some old
  | _ => none

/-- After an update, the row of the audit log is written. -/
def Audited (s : State weight) : Action → Prop
  | .request _ => True
  | .statement p db => ∀ c ∈ s.calls[p]?, ∀ old ∈ c.pc.audits,
      db = .ok () ∧ auditRow c old ≠ none

/-- The last change of the role of a user. -/
def lastChange (s : State weight) (target : Int) : Option (Int × Role × Role) :=
  s.changes.find? fun x => x.1 == target

/-- The last row of the audit log about a user. -/
def lastAudit (s : State weight) (target : Int) : Option AuditRow :=
  s.audits.reverse.find? fun row => row.targetId == decimalInt target

/-- The last change of the role of a user, if there was one, led to the role that the user has,
    and the last row of the audit log about the user has the role before and the role after. -/
def Recorded (s : State weight) (target : Int) : Prop :=
  ∀ old new, lastChange s target = some (target, old, new) →
    (s.tables.findById target).map UserRow.role = some new ∧
    ∃ row, lastAudit s target = some row ∧ row.action = bytes "user.role_change" ∧
      row.oldRole = old ∧ row.newRole = new

/-- When a request was answered with success, the last change of the role of its user is in the
    audit log. -/
def SuccessRecorded (s : State weight) : Prop :=
  ∀ c answer, s.calls.getLast? = some c → c.pc = .answered answer → answer.status = 200 →
    Recorded s c.target

/-- What holds at the statements of the request in progress. -/
def Phase (s : State weight) (c : Call) : Prop :=
  match c.pc with
  | .updating old => (∀ target, Recorded s target) ∧ s.tables.findById c.target = some old
  | .auditing old => (∀ target, target ≠ c.target → Recorded s target) ∧
      lastChange s c.target = some (c.target, old.role, c.role) ∧
      (s.tables.findById c.target).map UserRow.role = some c.role
  | _ => ∀ target, Recorded s target

/-- At most one request is in progress. -/
inductive Inv (s : State weight) : Prop
  | idle (hcalls : s.calls = []) (h : ∀ target, Recorded s target)
  | busy (l : List Call) (c : Call) (hcalls : s.calls = l ++ [c])
      (hover : ∀ c ∈ l, c.over = true) (h : Phase s c)

theorem recorded_of_over (hover : c.over = true) (h : Phase s c) (target : Int) :
    Recorded s target := by
  rw [Call.over] at hover
  split at hover
  · next answer hpc =>
    simp only [Phase, hpc] at h
    exact h target
  · cases hover

theorem Inv.recorded (h : Inv s) (hover : ∀ c ∈ s.calls, c.over = true) (target : Int) :
    Recorded s target := by
  cases h with
  | idle _ h => exact h target
  | busy l c hcalls _ h =>
    have hc : c ∈ s.calls := by simp [hcalls]
    exact recorded_of_over (hover c hc) h target

theorem phase_begin (req : Request) (h : ∀ target, Recorded s target) : Phase s (begin req) := by
  rw [begin]
  split <;> exact h

/-- The request in progress is the last one. -/
theorem eq_last {l : List Call} {c' : Call} (hover : ∀ c ∈ l, c.over = true)
    (hp : (l ++ [c])[p]? = some c') (hc' : c'.over = false) : p = l.length ∧ c' = c := by
  rw [List.getElem?_append] at hp
  split_ifs at hp with hlt
  · rw [hover c' (List.mem_of_getElem? hp)] at hc'
    cases hc'
  · obtain ⟨hi, hc⟩ := List.getElem?_eq_some_iff.1 hp
    simp only [List.length_cons, List.length_nil] at hi
    exact ⟨by omega, by simpa using hc.symm⟩

theorem lastAudit_audited (row : AuditRow) (target : Int) :
    lastAudit { s with audits := s.audits ++ [row] } target =
      if row.targetId = decimalInt target then some row else lastAudit s target := by
  rw [lastAudit, List.reverse_append, List.reverse_singleton, List.singleton_append]
  split_ifs with h
  · exact List.find?_cons_of_pos (by simpa using h)
  · exact List.find?_cons_of_neg (by simpa using h)

theorem role_updateRole (t : Tables weight) (id target : Int) (role : Role) :
    ((t.updateRole id role).2.findById target).map UserRow.role =
      (t.findById target).map fun r => if target = id then role else r.role := by
  rw [Tables.findById_updateRole]
  cases hrow : t.findById target with
  | none => rfl
  | some r =>
    obtain ⟨_, rfl⟩ := Tables.findById_eq_some_iff.1 hrow
    simp only [Option.map_some, Option.some.injEq]
    split_ifs <;> rfl

/-- The next statement, if the row of the audit log is written after an update. -/
theorem Moves.phase (hm : Moves s p c db s') (h : Phase s c)
    (hg : ∀ old ∈ c.pc.audits, db = .ok () ∧ auditRow c old ≠ none) :
    ∃ pc, s'.calls = s.calls.set p { c with pc } ∧ Phase s' { c with pc } := by
  cases hm with
  | answer answer hover hfail =>
    refine ⟨_, rfl, ?_⟩
    rw [Phase] at h
    split at h
    · exact h.1
    · next old hpc =>
      obtain ⟨hdb, hrow⟩ := hg old (by rw [hpc]; rfl)
      exact absurd (hfail old hpc hdb) hrow
    · exact h
  | found row hpc hrow hrole =>
    simp only [Phase, hpc] at h
    exact ⟨_, rfl, h, hrow⟩
  | updated old row hpc hdb hrow hrole =>
    simp only [Phase, hpc] at h
    obtain ⟨h, hold⟩ := h
    obtain rfl := Option.some.inj (hrow.symm.trans hold)
    refine ⟨_, rfl, ?_, ?_, ?_⟩
    · -- the row, the changes and the audit log of another user are the same
      intro target hne o n hlast
      have hlast' : lastChange s target = some (target, o, n) := by
        rw [← hlast]
        exact (List.find?_cons_of_neg (by simpa using hne.symm)).symm
      obtain ⟨hrole', haudit⟩ := h target o n hlast'
      refine ⟨?_, haudit⟩
      rw [← hrole']
      refine (role_updateRole _ _ _ _).trans ?_
      simp [hne]
    · exact List.find?_cons_of_pos (by simp)
    · refine (role_updateRole _ _ _ _).trans ?_
      simp [hrow]
  | unchanged old hpc hdb hrow =>
    simp only [Phase, hpc] at h
    obtain ⟨h, hold⟩ := h
    refine ⟨_, rfl, ?_⟩
    intro target o n hlast
    obtain ⟨hrole', haudit⟩ := h target o n hlast
    refine ⟨?_, haudit⟩
    rw [← hrole']
    refine (role_updateRole _ _ _ _).trans ?_
    by_cases ht : target = c.target
    · simp [ht, hold, hrow old hold]
    · simp [ht]
  | audited old row hpc hrow =>
    simp only [Phase, hpc] at h
    obtain ⟨h, hlast, hrole⟩ := h
    obtain ⟨adminId, _, rfl⟩ := Option.map_eq_some_iff.1 hrow
    refine ⟨_, rfl, ?_⟩
    intro target o n hlast'
    by_cases ht : target = c.target
    · subst ht
      cases hlast.symm.trans hlast'
      refine ⟨hrole, _, (lastAudit_audited _ _).trans (if_pos rfl), rfl, rfl, rfl⟩
    · obtain ⟨hrole', row, haudit, hrow⟩ := h target ht o n hlast'
      refine ⟨hrole', row, (lastAudit_audited _ _).trans ?_, hrow⟩
      rw [if_neg fun heq => ht (decimalInt_injective heq).symm]
      exact haudit

theorem Inv.step (h : Inv s) (hseq : Sequential s a) (hg : Audited s a)
    (hs : step s a = some s') : Inv s' := by
  rcases step_cases hs with ⟨req, rfl, rfl⟩ | ⟨p, db, c, rfl, hp, hm⟩
  · exact .busy s.calls (begin req) rfl hseq (phase_begin req fun t => h.recorded hseq t)
  · cases h with
    | idle hcalls h => simp [hcalls] at hp
    | busy l c' hcalls hover h =>
      have hp' := hp
      rw [hcalls] at hp'
      obtain ⟨rfl, rfl⟩ := eq_last hover hp' hm.calls.1
      obtain ⟨pc, hcalls', hphase⟩ := hm.phase h (hg c hp)
      refine .busy l { c with pc } ?_ hover hphase
      rw [hcalls', hcalls, List.set_append_right _ _ le_rfl, Nat.sub_self, List.set_cons_zero]

/-- From any database on, in every sequence of requests, with any failures of their statements
    except of those that write the audit log after an update: when a request was answered with
    success, the last change of the role of its user is in the audit log. -/
theorem recorded_of_reach (weight : Bytes → Bytes) (s : State weight)
    (h : (system weight).Reach (fun s a => Sequential s a ∧ Audited s a) s) :
    SuccessRecorded s := by
  have hinv : Inv s := by
    refine h.invariant (P := Inv) (fun t ht => .idle ht.1 fun target old new hlast => ?_)
      fun t a t' ht hg hs => ht.step hg.1 hg.2 hs
    simp [lastChange, ht.2] at hlast
  intro c answer hc hpc _
  cases hinv with
  | idle hcalls => simp [hcalls] at hc
  | busy l c' hcalls hover hphase =>
    rw [hcalls, List.getLast?_concat] at hc
    obtain rfl := Option.some.inj hc
    exact recorded_of_over (by simp [Call.over, hpc]) hphase _

instance (s : State weight) (a : Action) : Decidable (Sequential s a) :=
  match a with
  | .request _ => inferInstanceAs (Decidable (∀ c ∈ s.calls, _))
  | .statement _ _ => isTrue trivial

instance (s : State weight) (a : Action) : Decidable (Audited s a) :=
  match a with
  | .request _ => isTrue trivial
  | .statement p _ => inferInstanceAs (Decidable (∀ c ∈ s.calls[p]?, _))

/-- The last request got an answer with success for the user. -/
def succeeded (s : State weight) (target : Int) : Bool :=
  s.calls.getLast?.any fun c => c.target == target &&
    match c.pc with
    | .answered answer => answer.status == 200
    | _ => false

/-- A request that fails after the row of the audit log was written, and is repeated. -/
theorem recorded_retry : ∃ s : State id, succeeded s 3 = true ∧
    lastChange s 3 = some (3, .user, .admin) ∧ SuccessRecorded s := by
  obtain ⟨s, hl, hs⟩ := System.exists_exec_of_runGuarded (S := system id)
    (G := fun s a => Sequential s a ∧ Audited s a) (s := start)
    (l := [.request (roleRequest "1" "3" .admin), .statement 0 (.ok ()), .statement 0 (.ok ()),
      .statement 0 (.ok ()), .statement 0 (.error []), .request (roleRequest "1" "3" .admin),
      .statement 1 (.ok ())])
    (p := fun s => succeeded s 3 ∧ lastChange s 3 = some (3, .user, .admin)) (by decide +kernel)
  obtain ⟨hok, hlast⟩ := of_decide_eq_true hs
  exact ⟨s, hok, hlast, recorded_of_reach id s ⟨start, _, ⟨rfl, rfl⟩, hl⟩⟩

/-- The row of the audit log cannot be written, and the request is repeated: it is answered with
    success, and there is no row. -/
theorem not_recorded_retry : ∃ s : State id, (system id).Reach Sequential s ∧
    lastChange s 3 = some (3, .user, .admin) ∧ s.audits = [] ∧ ¬ SuccessRecorded s := by
  obtain ⟨s, hl, hs⟩ := System.exists_exec_of_runGuarded (S := system id) (G := Sequential)
    (s := start)
    (l := [.request (roleRequest "1" "3" .admin), .statement 0 (.ok ()), .statement 0 (.ok ()),
      .statement 0 (.error []), .request (roleRequest "1" "3" .admin), .statement 1 (.ok ())])
    (p := fun s => succeeded s 3 ∧ lastChange s 3 = some (3, .user, .admin) ∧ s.audits = [])
    (by decide +kernel)
  obtain ⟨hok, hlast, haudits⟩ := of_decide_eq_true hs
  refine ⟨s, ⟨start, _, ⟨rfl, rfl⟩, hl⟩, hlast, haudits, fun h => ?_⟩
  obtain ⟨c, hc, hok⟩ := (Option.any_eq_true _ _).1 hok
  simp only [Bool.and_eq_true, beq_iff_eq] at hok
  obtain ⟨htarget, hok⟩ := hok
  split at hok
  · next answer hpc =>
    have hrec := h c answer hc hpc (by simpa using hok)
    rw [htarget] at hrec
    obtain ⟨_, row, hrow, _⟩ := hrec _ _ hlast
    simp [lastAudit, haudits] at hrow
  · cases hok

end LiteCode.AdminUserRoutes
