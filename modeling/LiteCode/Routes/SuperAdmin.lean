import LiteCode.Db.UserRepo
import LiteCode.Lib.Stoi
import LiteCode.Lib.System
import LiteCode.Routes.ErrorHandler
import LiteCode.Routes.Login

/-!
# The name of the super admin

`register_handler`, `login_handler`, `refresh_handler` and `update_username_handler` of
`src/routes/auth_routes.h`, any number of times at once. A request is checked and is then a
sequence of steps: a statement of the database, or the signing of tokens. Each step may fail.

An access token carries the user id and the name that the row had when the token was made, and is
accepted from then on. `update_username_handler` compares the name in the token with `admin`, byte
by byte, and then writes to the row of the user id. The name of the seeded account is `admin` in
every token of the account, so it is never changed; and the key of the names, which does not
distinguish upper from lower case, keeps the others from it (`admin_locked`).
-/

namespace LiteCode.SuperAdmin

open UserRepo ErrorHandler
open AuthRoutes (LoginRequest parseLoginRequest lockedAnswer deniedAnswer validateUsername
  asciiWeight)

/-! ## The requests -/

/-- `Claims`: what the handlers read of an access token. -/
structure Claims where
  userId : Bytes
  username : Bytes
  role : Role
  deriving DecidableEq, Repr

/-- `verify_password`, and the collation of the names. -/
structure Server where
  verify : Bytes → Bytes → Bool
  weight : Bytes → Bytes

/-- A response. -/
inductive Answer
  | error (e : Envelope)
  /-- An error of `login_handler`. -/
  | login (res : AuthRoutes.Response)
  /-- With the header `Retry-After`. -/
  | limited (e : Envelope) (retryAfter : Int)
  /-- The user block of a new session. -/
  | session (status : Nat) (row : UserRow)
  /-- The new name, and the old one if it was changed. -/
  | renamed (username : Bytes) (oldAlias : Option Bytes)
  /-- The handler lets an exception through. -/
  | exception (what : Bytes)
  deriving DecidableEq, Repr

/-- `std::isalpha`. -/
def isAlpha (c : UInt8) : Bool := (0x41 ≤ c && c ≤ 0x5A) || (0x61 ≤ c && c ≤ 0x7A)

/-- `validate_password_strength`: the error, if there is one. -/
def validatePasswordStrength (password : Bytes) : Option Bytes :=
  if password.length < 8 then some (bytes "password must be at least 8 characters")
  else if 72 < password.length then some (bytes "password must be at most 72 characters")
  else if password.any isAlpha && password.any Json.isDigit then none
  else some (bytes "password must contain both letters and digits")

/-- `validate_email`: the error, if there is one. -/
def validateEmail (email : Bytes) : Option Bytes :=
  let before := email.takeWhile (· ≠ 0x40)
  let domain := email.drop (before.length + 1)
  if email.length < 3 ∨ 100 < email.length then
    some (bytes "email must be between 3 and 100 characters")
  else if email.contains 0x40 = false ∨ before.isEmpty ∨ domain.isEmpty then
    some (bytes "email must be of the form local@domain")
  else if domain.contains 0x40 then some (bytes "email must contain exactly one '@'")
  else if domain.contains 0x2E = false ∨ domain.head? = some 0x2E ∨ domain.getLast? = some 0x2E then
    some (bytes "email domain must contain a dot and not start/end with one")
  else if email.any isSpace then some (bytes "email must not contain whitespace")
  else none

/-- A `400` about one field. -/
def badField (name message : Bytes) : Envelope := invalidInput message [field name]

/-- `RegisterRequest`. -/
structure RegisterRequest where
  username : Bytes
  password : Bytes
  email : Option Bytes
  deriving DecidableEq, Repr

/-- The member `email` of the body. -/
def parseEmail (j : Json) : Except Envelope (Option Bytes) :=
  match j.get? (bytes "email") with
  | none => .ok none
  | some .null => .ok none
  | some (.str email) =>
    match validateEmail email with
    | some err => .error (badField (bytes "email") err)
    | none => .ok (some email)
  | some _ => .error (badField (bytes "email") (bytes "`email` must be a string when present"))

/-- The member `username` of the body. -/
def parseUsername (j : Json) : Except Envelope Bytes :=
  match j.get? (bytes "username") with
  | some (.str username) =>
    match validateUsername username with
    | some err => .error (badField (bytes "username") err)
    | none => .ok username
  | _ => .error (badField (bytes "username") (bytes "missing or non-string `username`"))

/-- The member `password` of the body of a registration. -/
def parsePassword (j : Json) : Except Envelope Bytes :=
  match j.get? (bytes "password") with
  | some (.str password) =>
    match validatePasswordStrength password with
    | some err => .error (badField (bytes "password") err)
    | none => .ok password
  | _ => .error (badField (bytes "password") (bytes "missing or non-string `password`"))

/-- `parse_register_request`. -/
def parseRegisterRequest (j : Json) : Except Envelope RegisterRequest := do
  let username ← parseUsername j
  let password ← parsePassword j
  let email ← parseEmail j
  pure ⟨username, password, email⟩

/-- `user_id_from_claims`. -/
def userIdFromClaims (claims : Claims) : Except Envelope Int :=
  match stoi claims.userId with
  | none => .error ⟨401, .unauthorized, bytes "invalid sub claim", []⟩
  | some id =>
    if id ≤ 0 then .error ⟨401, .unauthorized, bytes "non-positive sub claim", []⟩ else .ok id

/-- The name of the seeded account. -/
def adminName : Bytes := bytes "admin"

/-- The name `admin` is neither given up nor taken. -/
def checkReserved (claims : Claims) (newUsername : Bytes) : Except Envelope Unit :=
  if claims.username = adminName ∧ newUsername ≠ adminName then
    .error (invalidInput (Utf8.ofString "超级管理员用户名不可修改")
      [field (bytes "username"), .text (bytes "reason") (bytes "super_admin_locked")])
  else if newUsername = adminName ∧ claims.username ≠ adminName then
    .error ⟨409, .conflict, Utf8.ofString "'admin' 是系统保留用户名,不可占用",
      [field (bytes "username"), .text (bytes "reason") (bytes "username_reserved")]⟩
  else .ok ()

/-- The body of a new name. -/
def parseBody (body what : Bytes) : Except Envelope Json :=
  match Json.parse body with
  | some j => .ok j
  | none => .error (invalidInput (bytes "malformed JSON: " ++ what) [])

/-- The checks of `update_username_handler` before the first statement: the user id and the new
    name. -/
def checkRename (claims : Claims) (body what : Bytes) : Except Envelope (Int × Bytes) := do
  let id ← userIdFromClaims claims
  let j ← parseBody body what
  let newUsername ← parseUsername j
  checkReserved claims newUsername
  pure (id, newUsername)

/-! ## The steps of a request -/

/-- The handlers that make tokens. -/
inductive Kind
  | register
  | login
  | refresh
  deriving DecidableEq, Repr

/-- The step that comes next. -/
inductive Pc
  /-- `create_user`. -/
  | inserting (username passwordHash : Bytes) (email : Option Bytes)
  /-- `create_user` was refused: `username_exists` and `email_exists`. -/
  | checkingName (username : Bytes) (email : Option Bytes)
  | checkingEmail (nameTaken : Bool) (email : Bytes)
  /-- `find_by_username` of a login. -/
  | lookingUp (parsed : LoginRequest)
  /-- `find_by_id` of a refresh, for the user id of the token. -/
  | refreshing (sub : Bytes) (id : Int)
  /-- `issue_token_pair` or `rotate_token_pair`. -/
  | minting (kind : Kind) (sub : Bytes) (row : UserRow)
  /-- `find_by_id` of a new name. -/
  | finding (id : Int) (newUsername : Bytes)
  /-- `username_exists` of a new name. -/
  | existing (row : UserRow) (newUsername : Bytes)
  /-- The three statements of `update_username`. -/
  | reading (row : UserRow) (newUsername : Bytes)
  | entering (row : UserRow) (newUsername oldUsername : Bytes)
  | setting (row : UserRow) (newUsername : Bytes)
  | answered (answer : Answer)
  deriving DecidableEq, Repr

/-- The tables, the tokens that were made (of a refresh token only the user id), and the
    requests. -/
structure State (srv : Server) where
  tables : Tables srv.weight
  access : List Claims
  refresh : List Bytes
  calls : List Pc

/-- What comes of a step. `revoked` is a refresh token that was used before. -/
inductive Outcome
  | ok
  | failed (what : Bytes)
  | revoked
  deriving DecidableEq, Repr

/-- The steps. A request comes with the text of the exception of the JSON reader; a registration
    with the outcome of `hash_password`, a login with the answer of the lockout gate. A token that
    is presented is one that was made, or none that is valid. -/
inductive Action
  | register (body what : Bytes) (hash : Except Bytes Bytes)
  | login (body what : Bytes) (locked : Option Int)
  | refresh (presented : Option Bytes)
  | rename (presented : Option Claims) (body what : Bytes)
  | next (p : Nat) (outcome : Outcome) (now : Int)
  deriving DecidableEq

variable {srv : Server}

/-- The request `p` goes on at `pc`. -/
def State.goto (s : State srv) (p : Nat) (pc : Pc) : State srv :=
  { s with calls := s.calls.set p pc }

/-- The answer to a refresh token that is not accepted. -/
def badRefresh : Answer :=
  .error ⟨401, .unauthorized, bytes "invalid or expired refresh token", []⟩

/-- A `409` about the name. -/
def nameConflict (message : Bytes) : Answer :=
  .error ⟨409, .conflict, message, [field (bytes "username")]⟩

/-- A `409` about the address. -/
def emailConflict : Answer :=
  .error ⟨409, .conflict, bytes "email already in use", [field (bytes "email")]⟩

/-- `kUsernameChangeCooldownSeconds`. -/
def usernameChangeCooldownSeconds : Int := 24 * 3600

/-- The answer to a change that comes too soon. -/
def tooSoon (retryAfter : Int) : Answer :=
  .limited ⟨429, .rateLimited, bytes "username can only be changed once per day",
    [.number (bytes "retry_after_seconds") retryAfter]⟩ retryAfter

/-- The time until the name can be changed again. -/
def retryAfter (row : UserRow) (now : Int) : Option Int :=
  match row.usernameChangedAt with
  | none => none
  | some last =>
    if now - last < usernameChangeCooldownSeconds then
      some (usernameChangeCooldownSeconds - (now - last))
    else none

/-- The answer to an exception in a step. -/
def Pc.failed (what : Bytes) : Pc → Option Answer
  | .inserting _ _ _ => some (.error (internalError (bytes "failed to create user: " ++ what)))
  | .lookingUp _ =>
    some (.login (AuthRoutes.sendError 500 .internalError (bytes "internal error: " ++ what)))
  | .refreshing _ _ => some (.error (internalError (bytes "internal error: " ++ what)))
  | .minting .register _ _ => some (.error (internalError
      (bytes "user created but session could not be issued: " ++ what)))
  | .minting .login _ _ => some (.error (internalError
      (bytes "session could not be issued: " ++ what)))
  | .minting .refresh _ _ => some (.error (internalError (bytes "internal error: " ++ what)))
  | .answered _ => none
  | _ => some (.exception what)

/-- A step that does not fail. -/
def proceed (s : State srv) (p : Nat) (now : Int) : Pc → Option (State srv)
  | .inserting username passwordHash email =>
    let (id, tables) := s.tables.createUser username passwordHash .user email
    if id = 0 then some (s.goto p (.checkingName username email))
    else some ({ s with tables }.goto p
      (.minting .register (decimalInt id) ⟨id, username, passwordHash, .user, email, none⟩))
  | .checkingName username email =>
    let taken := s.tables.usernameExists username
    match email with
    | some email => some (s.goto p (.checkingEmail taken email))
    | none => some (s.goto p (.answered (if taken then nameConflict (bytes "username already taken")
        else .error ⟨409, .conflict, bytes "user already exists", []⟩)))
  | .checkingEmail nameTaken email =>
    let emailTaken := s.tables.users.any fun r => r.email.map srv.weight == some (srv.weight email)
    some (s.goto p (.answered (
      if nameTaken then nameConflict (bytes "username already taken")
      else if emailTaken then emailConflict
      else .error ⟨409, .conflict, bytes "user already exists", []⟩)))
  | .lookingUp parsed =>
    match s.tables.findByUsername parsed.username with
    | none => some (s.goto p (.answered (.login deniedAnswer)))
    | some row =>
      if srv.verify parsed.password row.passwordHash then
        some (s.goto p (.minting .login (decimalInt row.id) row))
      else some (s.goto p (.answered (.login deniedAnswer)))
  | .refreshing sub id =>
    match s.tables.findById id with
    | none => some (s.goto p (.answered badRefresh))
    | some row => some (s.goto p (.minting .refresh sub row))
  | .minting kind sub row =>
    let status := if kind = .register then 201 else 200
    let access := s.access ++ [⟨sub, row.username, row.role⟩]
    some ({ s with access, refresh := s.refresh ++ [sub] }.goto p (.answered (.session status row)))
  | .finding id newUsername =>
    match s.tables.findById id with
    | none => some (s.goto p (.answered (.error ⟨404, .notFound, bytes "user not found", []⟩)))
    | some row =>
      if row.username = newUsername then
        some (s.goto p (.answered (.renamed newUsername none)))
      else match retryAfter row now with
        | some n => some (s.goto p (.answered (tooSoon n)))
        | none => some (s.goto p (.existing row newUsername))
  | .existing row newUsername =>
    if s.tables.usernameExists newUsername then
      some (s.goto p (.answered (nameConflict (bytes "username already taken"))))
    else some (s.goto p (.reading row newUsername))
  | .reading row newUsername =>
    match s.tables.findById row.id with
    | none => some (s.goto p (.answered (nameConflict (bytes "username already taken (race)"))))
    | some r =>
      if r.username = newUsername then
        some (s.goto p (.answered (.renamed newUsername (some row.username))))
      else some (s.goto p (.entering row newUsername r.username))
  | .entering row newUsername oldUsername =>
    match s.tables.insertHistory row.id oldUsername with
    | none => some (s.goto p (.answered (nameConflict (bytes "username already taken (race)"))))
    | some tables => some ({ s with tables }.goto p (.setting row newUsername))
  | .setting row newUsername =>
    match s.tables.setUsername row.id newUsername now with
    | none => some (s.goto p (.answered (nameConflict (bytes "username already taken (race)"))))
    | some (changed, tables) => some ({ s with tables }.goto p (.answered (
        if changed then .renamed newUsername (some row.username)
        else nameConflict (bytes "username already taken (race)"))))
  | .answered _ => none

/-- A step of a request with its outcome. -/
def advance (s : State srv) (p : Nat) (outcome : Outcome) (now : Int) (pc : Pc) :
    Option (State srv) :=
  match outcome with
  | .ok => proceed s p now pc
  | .failed what => (pc.failed what).map fun answer => s.goto p (.answered answer)
  | .revoked =>
    match pc with
    | .minting .refresh _ _ => some (s.goto p (.answered badRefresh))
    | _ => none

/-- The first step of `register_handler`. -/
def beginRegister (body what : Bytes) (hash : Except Bytes Bytes) : Pc :=
  match parseJsonBody body what >>= parseRegisterRequest with
  | .error e => .answered (.error e)
  | .ok parsed =>
    match hash with
    | .error e => .answered (.exception e)
    | .ok passwordHash => .inserting parsed.username passwordHash parsed.email

/-- The first step of `login_handler`. -/
def beginLogin (body what : Bytes) (locked : Option Int) : Pc :=
  match parseJsonBody body what with
  | .error e => .answered (.error e)
  | .ok j =>
    match parseLoginRequest j with
    | .error res => .answered (.login res)
    | .ok parsed =>
      match locked with
      | some remaining => .answered (.login (lockedAnswer remaining))
      | none => .lookingUp parsed

/-- The first step of `refresh_handler`. -/
def beginRefresh (presented : Option Bytes) : Pc :=
  match presented with
  | none => .answered badRefresh
  | some sub =>
    match stoi sub with
    | none => .answered badRefresh
    | some id => if id ≤ 0 then .answered badRefresh else .refreshing sub id

/-- The first step of `update_username_handler`. -/
def beginRename (presented : Option Claims) (body what : Bytes) : Pc :=
  match presented with
  | none => .answered (.error ⟨401, .unauthorized, bytes "invalid or expired token", []⟩)
  | some claims =>
    match checkRename claims body what with
    | .error e => .answered (.error e)
    | .ok (id, newUsername) => .finding id newUsername

/-- One step. -/
def step (s : State srv) : Action → Option (State srv)
  | .register body what hash => some { s with calls := s.calls ++ [beginRegister body what hash] }
  | .login body what locked => some { s with calls := s.calls ++ [beginLogin body what locked] }
  | .refresh presented =>
    if ∀ sub ∈ presented, sub ∈ s.refresh then
      some { s with calls := s.calls ++ [beginRefresh presented] }
    else none
  | .rename presented body what =>
    if ∀ claims ∈ presented, claims ∈ s.access then
      some { s with calls := s.calls ++ [beginRename presented body what] }
    else none
  | .next p outcome now => s.calls[p]?.bind fun pc => advance s p outcome now pc

/-- The handlers, from a database on in which the account `A` has the name `admin`. -/
def system (srv : Server) (A : Int) : System (State srv) Action where
  init s := (∃ r ∈ s.tables.users, r.id = A ∧ r.username = adminName) ∧ s.access = [] ∧
    s.refresh = [] ∧ s.calls = []
  step := step

/-! ## The tokens of an account carry its name -/

variable {A : Int} {s s' : State srv} {p : Nat} {pc : Pc} {a : Action} {now : Int}

/-- What a request in progress knows of the account `A`: the row that gets a token has the name
    `admin`, and a new name is no other one. -/
def Pc.Locked (A : Int) : Pc → Prop
  | .refreshing sub id => stoi sub = some id
  | .minting _ sub row => stoi sub = some A → row.username = adminName
  | .finding id newUsername => id = A → newUsername = adminName
  | .existing row _ | .reading row _ | .entering row _ _ | .setting row _ => row.id ≠ A
  | _ => True

/-- The account `A` has the name `admin`, in the table and in every token. -/
structure Inv (A : Int) (s : State srv) : Prop where
  seeded : ∃ r ∈ s.tables.users, r.id = A ∧ r.username = adminName
  tokens : ∀ c ∈ s.access, stoi c.userId = some A → c.username = adminName
  calls : ∀ pc ∈ s.calls, pc.Locked A

/-- The user id in a token is the one of the row. -/
theorem stoi_rowId {t : Tables srv.weight} {r : UserRow} (hr : r ∈ t.users) :
    stoi (decimalInt r.id) = some r.id := by
  have hpos := t.ids_lt r hr
  have hle := t.nextId_le
  obtain ⟨n, hn⟩ : ∃ n : Nat, r.id = n := ⟨r.id.toNat, by omega⟩
  rw [hn]
  exact stoi_decimal (by omega)

/-- The row of `A` has the name. -/
theorem Inv.username (h : Inv A s) {r : UserRow} (hr : r ∈ s.tables.users) (hid : r.id = A) :
    r.username = adminName := by
  obtain ⟨r', hr', hid', hname⟩ := h.seeded
  rw [Tables.eq_of_id hr hr' (hid.trans hid'.symm), hname]

/-- A request goes on. -/
theorem Inv.goto (h : Inv A s) (hpc : pc.Locked A) : Inv A (s.goto p pc) where
  seeded := h.seeded
  tokens := h.tokens
  calls := by
    intro x hx
    rcases List.mem_or_eq_of_mem_set hx with hx | rfl
    · exact h.calls x hx
    · exact hpc

/-- The tables change, and the account stays. -/
theorem Inv.write {t : Tables srv.weight} (h : Inv A s)
    (ht : ∃ r ∈ t.users, r.id = A ∧ r.username = adminName) : Inv A { s with tables := t } :=
  ⟨ht, h.tokens, h.calls⟩

/-- A request begins. -/
theorem Inv.append (h : Inv A s) (hpc : pc.Locked A) :
    Inv A { s with calls := s.calls ++ [pc] } where
  seeded := h.seeded
  tokens := h.tokens
  calls := by
    intro x hx
    rcases List.mem_append.1 hx with hx | hx
    · exact h.calls x hx
    · obtain rfl := List.mem_singleton.1 hx
      exact hpc

/-! ## What a step keeps -/

/-- A registration appends a row, and the account keeps its own. -/
theorem Inv.inserting (h : Inv A s) {username passwordHash : Bytes} {email : Option Bytes}
    (hs : proceed s p now (.inserting username passwordHash email) = some s') : Inv A s' := by
  rw [proceed] at hs
  rcases s.tables.createUser_cases username passwordHash .user email with
    heq | ⟨t, heq, husers, _⟩
  · rw [heq] at hs
    cases hs
    exact h.goto trivial
  · rw [heq] at hs
    simp only [if_neg s.tables.nextId_ne_zero, Option.some.injEq] at hs
    subst hs
    obtain ⟨r, hr, hid, hname⟩ := h.seeded
    have hnew : s.tables.newRow username passwordHash .user email ∈ t.users := by
      rw [husers]
      exact List.mem_concat_self
    refine (h.write ⟨r, by simp [husers, hr], hid, hname⟩).goto fun hsub => ?_
    -- the new user is not `A`
    have hsub' := (stoi_rowId hnew).symm.trans hsub
    have hlt := (s.tables.ids_lt r hr).2
    simp only [Tables.newRow, Option.some.injEq] at hsub'
    omega

/-- A login mints tokens for the row that it found, with the name that is in it. -/
theorem Inv.lookingUp (h : Inv A s) {parsed : LoginRequest}
    (hs : proceed s p now (.lookingUp parsed) = some s') : Inv A s' := by
  rw [proceed] at hs
  split at hs
  · cases hs
    exact h.goto trivial
  · next row hrow =>
    obtain ⟨hr, _⟩ := Tables.findByUsername_eq_some_iff.1 hrow
    split_ifs at hs
    · cases hs
      refine h.goto fun hsub => h.username hr ?_
      simpa [stoi_rowId hr] using hsub
    · cases hs
      exact h.goto trivial

/-- A refresh takes the row of the user id in the token. -/
theorem Inv.refreshing (h : Inv A s) {sub : Bytes} {id : Int}
    (hpc : (Pc.refreshing sub id).Locked A)
    (hs : proceed s p now (.refreshing sub id) = some s') : Inv A s' := by
  rw [proceed] at hs
  split at hs
  · cases hs
    exact h.goto trivial
  · next row hrow =>
    obtain ⟨hr, hid⟩ := Tables.findById_eq_some_iff.1 hrow
    cases hs
    refine h.goto fun hsub => h.username hr ?_
    rw [hid]
    exact Option.some.inj (hpc.symm.trans hsub)

/-- A token carries the name of the row. -/
theorem Inv.minting (h : Inv A s) {kind : Kind} {sub : Bytes} {row : UserRow}
    (hpc : (Pc.minting kind sub row).Locked A)
    (hs : proceed s p now (.minting kind sub row) = some s') : Inv A s' := by
  rw [proceed] at hs
  cases hs
  refine Inv.goto ⟨h.seeded, fun c hc => ?_, h.calls⟩ trivial
  rcases List.mem_append.1 hc with hc | hc
  · exact h.tokens c hc
  · obtain rfl := List.mem_singleton.1 hc
    exact hpc

/-- A change of the name of `A` that gets past the check asks for the name `admin`. -/
theorem Inv.finding (h : Inv A s) {id : Int} {newUsername : Bytes}
    (hpc : (Pc.finding id newUsername).Locked A)
    (hs : proceed s p now (.finding id newUsername) = some s') : Inv A s' := by
  rw [proceed] at hs
  split at hs
  · cases hs
    exact h.goto trivial
  · next row hrow =>
    obtain ⟨hr, hid⟩ := Tables.findById_eq_some_iff.1 hrow
    split_ifs at hs with hsame
    · cases hs
      exact h.goto trivial
    · split at hs
      · cases hs
        exact h.goto trivial
      · cases hs
        -- the account `A` has the new name already, so that another row was found
        refine h.goto fun hA => hsame ?_
        rw [h.username hr hA, hpc (hid.symm.trans hA)]

/-- The first look at the new name leaves everything as it is. -/
theorem Inv.existing (h : Inv A s) {row : UserRow} {newUsername : Bytes} (hpc : row.id ≠ A)
    (hs : proceed s p now (.existing row newUsername) = some s') : Inv A s' := by
  rw [proceed] at hs
  split_ifs at hs
  · cases hs
    exact h.goto trivial
  · cases hs
    exact h.goto hpc

/-- So does the read of the old name. -/
theorem Inv.reading (h : Inv A s) {row : UserRow} {newUsername : Bytes} (hpc : row.id ≠ A)
    (hs : proceed s p now (.reading row newUsername) = some s') : Inv A s' := by
  rw [proceed] at hs
  split at hs
  · cases hs
    exact h.goto trivial
  · split_ifs at hs
    · cases hs
      exact h.goto trivial
    · cases hs
      exact h.goto hpc

/-- The entry into the history leaves the rows as they are. -/
theorem Inv.entering (h : Inv A s) {row : UserRow} {newUsername oldUsername : Bytes}
    (hpc : row.id ≠ A)
    (hs : proceed s p now (.entering row newUsername oldUsername) = some s') : Inv A s' := by
  rw [proceed] at hs
  split at hs
  · cases hs
    exact h.goto trivial
  · next t ht =>
    cases hs
    refine (h.write ?_).goto hpc
    rw [(Tables.insertHistory_eq_some ht).1]
    exact h.seeded

/-- The row that is written is another one, and it does not get the name. -/
theorem Inv.setting (h : Inv A s) {row : UserRow} {newUsername : Bytes} (hpc : row.id ≠ A)
    (hs : proceed s p now (.setting row newUsername) = some s') : Inv A s' := by
  rw [proceed] at hs
  split at hs
  · cases hs
    exact h.goto trivial
  · next changed t ht =>
    cases hs
    obtain ⟨r, hr, hid, hname⟩ := h.seeded
    refine (h.write ⟨r, ?_, hid, hname⟩).goto trivial
    rw [(Tables.setUsername_eq_some ht).1]
    refine Tables.mem_updateRow.2 ⟨r, hr, if_neg fun heq => hpc ?_⟩
    rw [← heq, hid]

/-- Every statement that succeeds keeps the name. -/
theorem Inv.proceed (h : Inv A s) (hpc : pc.Locked A) (hs : proceed s p now pc = some s') :
    Inv A s' := by
  cases pc with
  | inserting => exact h.inserting hs
  | checkingName username email =>
    cases email with
    | none =>
      cases hs
      exact h.goto trivial
    | some email =>
      cases hs
      exact h.goto trivial
  | checkingEmail =>
    cases hs
    exact h.goto trivial
  | lookingUp => exact h.lookingUp hs
  | refreshing => exact h.refreshing hpc hs
  | minting => exact h.minting hpc hs
  | finding => exact h.finding hpc hs
  | existing => exact h.existing hpc hs
  | reading => exact h.reading hpc hs
  | entering => exact h.entering hpc hs
  | setting => exact h.setting hpc hs
  | answered => cases hs

/-- So does every step of a request, whether its statement succeeds or not. -/
theorem Inv.advance (h : Inv A s) (hpc : pc.Locked A) {outcome : Outcome}
    (hs : advance s p outcome now pc = some s') : Inv A s' := by
  cases outcome with
  | ok => exact h.proceed hpc hs
  | failed what =>
    obtain ⟨answer, _, rfl⟩ := Option.map_eq_some_iff.1 hs
    exact h.goto trivial
  | revoked =>
    simp only [SuperAdmin.advance] at hs
    split at hs
    · cases hs
      exact h.goto trivial
    · cases hs

/-! ## What a new request knows -/

/-- A registration begins without a row. -/
theorem locked_beginRegister (body what : Bytes) (hash : Except Bytes Bytes) :
    (beginRegister body what hash).Locked A := by
  rw [beginRegister]
  split
  · trivial
  · split <;> trivial

/-- So does a login. -/
theorem locked_beginLogin (body what : Bytes) (locked : Option Int) :
    (beginLogin body what locked).Locked A := by
  rw [beginLogin]
  split
  · trivial
  · split
    · trivial
    · split <;> trivial

theorem locked_beginRefresh (presented : Option Bytes) : (beginRefresh presented).Locked A := by
  cases presented with
  | none => trivial
  | some sub =>
    rw [beginRefresh]
    split
    · trivial
    · next id hid =>
      split_ifs
      · trivial
      · exact hid

/-- The user id that the handler works with is that of the token. -/
theorem userIdFromClaims_ok {claims : Claims} {id : Int} (h : userIdFromClaims claims = .ok id) :
    stoi claims.userId = some id := by
  rw [userIdFromClaims] at h
  split at h
  · cases h
  · next n hn =>
    split_ifs at h
    cases h
    exact hn

/-- The check lets the name `admin` stay where it is, and nowhere else. -/
theorem checkReserved_ok {claims : Claims} {newUsername : Bytes} {u : Unit}
    (h : checkReserved claims newUsername = .ok u) :
    claims.username = adminName ↔ newUsername = adminName := by
  rw [checkReserved] at h
  split_ifs at h with hlocked hreserved
  constructor
  · intro hname
    by_contra hne
    exact hlocked ⟨hname, hne⟩
  · intro hname
    by_contra hne
    exact hreserved ⟨hname, hne⟩

/-- The checks of a new name pass only if the name `admin` stays where it is. -/
theorem checkRename_ok {claims : Claims} {body what : Bytes} {id : Int} {newUsername : Bytes}
    (h : checkRename claims body what = .ok (id, newUsername)) :
    stoi claims.userId = some id ∧ (claims.username = adminName ↔ newUsername = adminName) := by
  rw [checkRename] at h
  obtain ⟨n, hid, h⟩ := bind_eq_ok.1 h
  obtain ⟨j, _, h⟩ := bind_eq_ok.1 h
  obtain ⟨name, _, h⟩ := bind_eq_ok.1 h
  obtain ⟨u, hreserved, h⟩ := bind_eq_ok.1 h
  cases h
  exact ⟨userIdFromClaims_ok hid, checkReserved_ok hreserved⟩

/-- A change of the name starts with a token that carries the name of its account. -/
theorem locked_beginRename (h : Inv A s) {presented : Option Claims} (body what : Bytes)
    (hp : ∀ claims ∈ presented, claims ∈ s.access) :
    (beginRename presented body what).Locked A := by
  cases presented with
  | none => trivial
  | some claims =>
    rw [beginRename]
    split
    · trivial
    · next id newUsername hok =>
      obtain ⟨hsub, hname⟩ := checkRename_ok hok
      rintro rfl
      exact hname.1 (h.tokens claims (hp claims rfl) hsub)

/-- Every step keeps the name. -/
theorem Inv.step (h : Inv A s) (hs : step s a = some s') : Inv A s' := by
  cases a with
  | register body what hash =>
    cases hs
    exact h.append (locked_beginRegister body what hash)
  | login body what locked =>
    cases hs
    exact h.append (locked_beginLogin body what locked)
  | refresh presented =>
    rw [SuperAdmin.step] at hs
    split_ifs at hs
    cases hs
    exact h.append (locked_beginRefresh presented)
  | rename presented body what =>
    rw [SuperAdmin.step] at hs
    split_ifs at hs with hp
    cases hs
    exact h.append (locked_beginRename h body what hp)
  | next p outcome now =>
    obtain ⟨pc, hpc, hs⟩ := Option.bind_eq_some_iff.1 hs
    exact h.advance (h.calls pc (List.mem_of_getElem? hpc)) hs

/-- In every interleaving of registrations, logins, refreshes and changes of names, the seeded
    account keeps the name `admin`, and no other account has it in any spelling, if the key of the
    names does not distinguish upper from lower case. -/
theorem admin_locked (srv : Server)
    (hcase : ∀ a b, asciiWeight a = asciiWeight b → srv.weight a = srv.weight b) (A : Int)
    (s : State srv) (h : (system srv A).Reach System.Always s) :
    (∃ r ∈ s.tables.users, r.id = A ∧ r.username = adminName) ∧
    ∀ r ∈ s.tables.users, r.id ≠ A → asciiWeight r.username ≠ adminName := by
  have hinv : Inv A s := by
    refine h.invariant (P := Inv A) (fun t ht => ?_) fun t a t' ht _ hs => ht.step hs
    obtain ⟨hseeded, haccess, _, hcalls⟩ := ht
    refine ⟨hseeded, ?_, ?_⟩
    · rw [haccess]
      simp
    · rw [hcalls]
      simp
  refine ⟨hinv.seeded, fun r hr hid hname => ?_⟩
  obtain ⟨r', hr', hid', hname'⟩ := hinv.seeded
  have hweight : srv.weight r.username = srv.weight r'.username := by
    refine hcase _ _ (hname.trans ?_)
    rw [hname']
    decide
  rw [Tables.eq_of_name hr hr' hweight] at hid
  exact hid hid'

/-- A server for which a password is its own hash. -/
def asciiServer : Server := ⟨fun p h => p == h, asciiWeight⟩

/-- The seeded account only. -/
def seededUsers : Tables asciiServer.weight where
  users := [⟨1, adminName, bytes "admin123!", .admin, none, none⟩]
  history := []
  nextId := 2
  ids := by decide
  ids_lt := by decide
  nextId_le := by decide
  names := by decide
  oldNames := by decide
  owners := by decide

/-- The body of a request with members that are texts. -/
def textBody (members : List (String × String)) : Bytes :=
  bytes "\x7b" ++ List.intercalate (bytes ",") (members.map fun m =>
    bytes "\"" ++ bytes m.1 ++ bytes "\":\"" ++ bytes m.2 ++ bytes "\"") ++ bytes "\x7d"

/-- The super admin logs in and cannot change the name; a new user cannot take it, and takes
    another one. -/
theorem admin_locked_requests : ∃ s : State asciiServer,
    s.tables.users.map UserRow.username = [adminName, bytes "carol"] ∧ s.access.length = 2 ∧
    (∃ r ∈ s.tables.users, r.id = 1 ∧ r.username = adminName) ∧
    ∀ r ∈ s.tables.users, r.id ≠ 1 → asciiWeight r.username ≠ adminName := by
  obtain ⟨s, hl, hs⟩ := System.exists_exec_of_run (S := system asciiServer 1)
    (s := ⟨seededUsers, [], [], []⟩)
    (l := [.login (textBody [("username", "admin"), ("password", "admin123!")]) [] none,
      .next 0 .ok 100, .next 0 .ok 100,
      .register (textBody [("username", "bob"), ("password", "passw0rd")]) []
        (.ok (bytes "passw0rd")),
      .rename (some ⟨bytes "1", adminName, .admin⟩) (textBody [("username", "root")]) [],
      .next 1 .ok 100, .next 1 .ok 100,
      .rename (some ⟨bytes "2", bytes "bob", .user⟩) (textBody [("username", "Admin")]) [],
      .next 3 .ok 100, .next 3 .ok 100,
      .rename (some ⟨bytes "2", bytes "bob", .user⟩) (textBody [("username", "carol")]) [],
      .next 4 .ok 100, .next 4 .ok 100, .next 4 .ok 100, .next 4 .ok 100, .next 4 .ok 100])
    (p := fun s => s.tables.users.map UserRow.username = [adminName, bytes "carol"] ∧
      s.access.length = 2) (by decide +kernel)
  obtain ⟨hnames, haccess⟩ := of_decide_eq_true hs
  refine ⟨s, hnames, haccess, admin_locked asciiServer (fun a b h => h) 1 s ⟨_, _, ?_, hl⟩⟩
  exact ⟨⟨_, List.mem_cons_self, rfl, rfl⟩, rfl, rfl, rfl⟩

end LiteCode.SuperAdmin
