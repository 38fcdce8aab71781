import LiteCode.Auth.Lockout
import LiteCode.Lib.Json
import LiteCode.Lib.ListIndex

/-!
# Logging in

`login_handler` of `src/routes/auth_routes.h` with `parse_login_request`, `validate_username` and
`find_by_username` of `src/db/user_repo.h`. The outcomes of the database read and of the signing of
tokens, and the readings of the clock, are given with a request. `verify_password` and the
collation of the column `username` are parameters (`Server`): two names are the same for the
database iff they have the same weights.

The lockout gate looks up the name that was submitted. A failure is counted under the name that is
stored, if there is a row, and under the submitted one otherwise. So the counters of an account
that exists and of one that does not are different as soon as a name is spelled in another way
than the stored one; if not, the answers are the same (`answers_eq`).
-/

namespace LiteCode.AuthRoutes

open LoginFailureTracker

/-- `UserRow`: what the handler reads of it. -/
structure UserRow where
  id : Int
  username : Bytes
  passwordHash : Bytes
  role : Bytes
  email : Option Bytes
  deriving DecidableEq, Repr

/-- `TokenPair`, with the remaining lifetime of the access token. -/
structure Tokens where
  access : Bytes
  refresh : Bytes
  expiresIn : Int
  deriving DecidableEq, Repr

/-- The codes of `ErrorCode` that the handler uses. -/
inductive ErrorCode
  | invalidInput
  | unauthorized
  | forbidden
  | internalError
  deriving DecidableEq, Repr

/-- The member `details` of an error. -/
inductive Details
  | none
  | field (name : Bytes)
  | retryAfterSeconds (n : Int)
  deriving DecidableEq, Repr

/-- The body of a response. -/
inductive Body
  | error (code : ErrorCode) (message : Bytes) (details : Details)
  | session (row : UserRow) (tokens : Tokens)
  deriving DecidableEq, Repr

/-- A response: its status, the headers `Retry-After` and `Set-Cookie`, and the body. -/
structure Response where
  status : Nat
  retryAfter : Option Int
  cookie : Option Bytes
  body : Body
  deriving DecidableEq, Repr

/-- `send_error`. -/
def sendError (status : Nat) (code : ErrorCode) (message : Bytes) (details : Details := .none) :
    Response :=
  ⟨status, none, none, .error code message details⟩

/-- `is_valid_username_char`. -/
def isValidUsernameChar (c : UInt8) : Bool :=
  (0x61 ≤ c && c ≤ 0x7A) || (0x41 ≤ c && c ≤ 0x5A) || (0x30 ≤ c && c ≤ 0x39) ||
    c == 0x5F || c == 0x2D || c == 0x2E

/-- A dot or a hyphen. -/
def isDotOrHyphen (c : UInt8) : Bool := c == 0x2E || c == 0x2D

/-- `validate_username`: the error, if there is one. -/
def validateUsername (username : Bytes) : Option Bytes :=
  if username.length < 3 ∨ 50 < username.length then
    some (bytes "username must be between 3 and 50 characters")
  else if username.head?.any isDotOrHyphen || username.getLast?.any isDotOrHyphen then
    some (bytes "username must not start or end with '.' or '-'")
  else if username.all isValidUsernameChar then none
  else some (bytes "username may only contain letters, digits, '_', '-', '.'")

/-- `LoginRequest`. -/
structure LoginRequest where
  username : Bytes
  password : Bytes
  deriving DecidableEq, Repr

/-- A `400` about one field. -/
def badField (field message : Bytes) : Response :=
  sendError 400 .invalidInput message (.field field)

/-- `parse_login_request`. -/
def parseLoginRequest (j : Json) : Except Response LoginRequest :=
  match j.get? (bytes "username") with
  | some (.str username) =>
    match validateUsername username with
    | some err => .error (badField (bytes "username") err)
    | none =>
      match j.get? (bytes "password") with
      | some (.str password) =>
        if password.isEmpty then
          .error (badField (bytes "password") (bytes "`password` must not be empty"))
        else .ok ⟨username, password⟩
      | _ => .error (badField (bytes "password") (bytes "missing or non-string `password`"))
  | _ => .error (badField (bytes "username") (bytes "missing or non-string `username`"))

/-- A request, with the readings of the clock in `is_locked` and in `record_failure` and the
    outcomes of the calls that it makes. -/
structure Request where
  body : Bytes
  /-- The text of the exception of the JSON reader. -/
  parseError : Bytes
  gateAt : Int
  denyAt : Int
  layout : Layout Bytes Entry
  find : Except Bytes Unit
  issue : UserRow → Except Bytes Tokens

/-- `parse_json_body`. -/
def parseJsonBody (req : Request) : Except Response Json :=
  if req.body.isEmpty then .error (sendError 400 .invalidInput (bytes "Request body is empty"))
  else match Json.parse req.body with
    | some j => .ok j
    | none => .error (sendError 400 .invalidInput (bytes "Invalid JSON body: " ++ req.parseError))

/-- The name and the password that a request submits, or its `400`. -/
def Request.parsed (req : Request) : Except Response LoginRequest := do
  parseLoginRequest (← parseJsonBody req)

/-- The configuration of the tracker, `verify_password`, the weights of the collation, and whether
    cookies are set. -/
structure Server where
  cfg : Config
  verify : Bytes → Bytes → Bool
  weight : Bytes → Bytes
  cookies : Bool

/-- The table `users`: the names are unique for the collation, and not empty. -/
structure Users (weight : Bytes → Bytes) where
  rows : List UserRow
  unique : (rows.map fun r => weight r.username).Nodup
  nonempty : ∀ r ∈ rows, r.username ≠ []

/-- `find_by_username`. -/
def Users.findByUsername {weight : Bytes → Bytes} (db : Users weight) (username : Bytes) :
    Option UserRow :=
  db.rows.find? fun r => weight r.username == weight username

/-- The answer to a locked name. -/
def lockedAnswer (remaining : Int) : Response :=
  ⟨423, some (if 0 < remaining then remaining else 1), none,
    .error .forbidden (bytes "invalid username or password") (.retryAfterSeconds remaining)⟩

/-- The answer of `deny_login`. -/
def deniedAnswer : Response :=
  sendError 401 .unauthorized (bytes "invalid username or password")

/-- The answer to a login that succeeds: `set_refresh_cookie` leaves out an empty token. -/
def sessionAnswer (srv : Server) (row : UserRow) (tokens : Tokens) : Response :=
  ⟨200, none, if srv.cookies && !tokens.refresh.isEmpty then some tokens.refresh else none,
    .session row tokens⟩

/-- The part of the handler after the gate. -/
def checkPassword (srv : Server) (db : Users srv.weight) (m : Failures) (req : Request)
    (parsed : LoginRequest) : Response × Failures :=
  -- `deny_login` counts the failure for a name
  let deny (name : Bytes) := (recordFailure srv.cfg req.layout m req.denyAt name).2
  match req.find, db.findByUsername parsed.username with
  | .error e, _ => (sendError 500 .internalError (bytes "internal error: " ++ e), m)
  | .ok (), none => (deniedAnswer, deny parsed.username)
  | .ok (), some row =>
    if srv.verify parsed.password row.passwordHash then
      match req.issue row with
      | .error e => (sendError 500 .internalError (bytes "session could not be issued: " ++ e),
          reset m row.username)
      | .ok tokens => (sessionAnswer srv row tokens, reset m row.username)
    else (deniedAnswer, deny row.username)

/-- `login_handler`: the response, and the failures after it. -/
def loginHandler (srv : Server) (db : Users srv.weight) (m : Failures) (req : Request) :
    Response × Failures :=
  match req.parsed with
  | .error res => (res, m)
  | .ok parsed =>
    let gate := isLocked m req.gateAt parsed.username
    if srv.cfg.enabled && gate.1 then (lockedAnswer gate.2, m)
    else checkPassword srv db m req parsed

/-- The answers to a sequence of requests. -/
def answers (srv : Server) (db : Users srv.weight) : Failures → List Request → List Response
  | _, [] => []
  | m, req :: l => (loginHandler srv db m req).1 :: answers srv db (loginHandler srv db m req).2 l

/-! ## Looking up a name -/

section Lookup

variable {weight : Bytes → Bytes} {db : Users weight} {name : Bytes} {r : UserRow}

/-- The row of a name is the one with its weights. -/
theorem findByUsername_eq_some_iff :
    db.findByUsername name = some r ↔ r ∈ db.rows ∧ weight r.username = weight name :=
  find?_key_eq_some_iff db.unique

end Lookup

/-! ## Accounts that exist, and accounts that do not -/

section Enumeration

variable {srv : Server} {db₁ db₂ : Users srv.weight} {u : UserRow} {m m' : Failures}
  {req : Request} {parsed : LoginRequest}

/-- Names that are not spellings of `u` have the same row with and without `u`. -/
theorem findByUsername_eq (hperm : db₁.rows.Perm (u :: db₂.rows)) {name : Bytes}
    (hne : srv.weight name ≠ srv.weight u.username) :
    db₁.findByUsername name = db₂.findByUsername name := by
  ext r
  rw [findByUsername_eq_some_iff, findByUsername_eq_some_iff, hperm.mem_iff, List.mem_cons]
  constructor
  · rintro ⟨rfl | hr, hw⟩
    · exact absurd hw.symm hne
    · exact ⟨hr, hw⟩
  · rintro ⟨hr, hw⟩
    exact ⟨.inr hr, hw⟩

/-- A spelling of `u` has the row `u` with `u`, and none without. -/
theorem findByUsername_spelling (hperm : db₁.rows.Perm (u :: db₂.rows)) {name : Bytes}
    (hw : srv.weight name = srv.weight u.username) :
    db₁.findByUsername name = some u ∧ db₂.findByUsername name = none := by
  refine ⟨findByUsername_eq_some_iff.2 ⟨hperm.mem_iff.2 List.mem_cons_self, hw.symm⟩, ?_⟩
  rw [Option.eq_none_iff_forall_ne_some]
  intro r hr
  obtain ⟨hr, hwr⟩ := findByUsername_eq_some_iff.1 hr
  have hnodup := (hperm.map fun r => srv.weight r.username).nodup_iff.1 db₁.unique
  rw [List.map_cons, List.nodup_cons] at hnodup
  exact hnodup.1 (List.mem_map.2 ⟨r, hr, hwr.trans hw⟩)

/-- The request does not carry the password of `u`, if it is for `u`. -/
def LacksPassword (srv : Server) (u : UserRow) (req : Request) : Prop :=
  ∀ p, req.parsed = .ok p → srv.weight p.username = srv.weight u.username →
    srv.verify p.password u.passwordHash = false

/-- The request does not get to a row of `u` under another name than the stored one. -/
def SpellsAsStored (srv : Server) (u : UserRow) (req : Request) : Prop :=
  ∀ p, req.parsed = .ok p → srv.weight p.username = srv.weight u.username → req.find = .ok () →
    p.username = u.username

/-- After the gate, the answer does not depend on the failures, and not on `u`. -/
theorem checkPassword_answer (hperm : db₁.rows.Perm (u :: db₂.rows))
    (hp : req.parsed = .ok parsed) (hpw : LacksPassword srv u req) :
    (checkPassword srv db₁ m req parsed).1 = (checkPassword srv db₂ m' req parsed).1 := by
  simp only [checkPassword]
  by_cases hw : srv.weight parsed.username = srv.weight u.username
  · obtain ⟨h₁, h₂⟩ := findByUsername_spelling hperm hw
    rw [h₁, h₂]
    cases req.find with
    | error e => rfl
    | ok _ => simp [hpw parsed hp hw]
  · rw [findByUsername_eq hperm hw]
    cases req.find with
    | error e => rfl
    | ok _ =>
      cases db₂.findByUsername parsed.username with
      | none => rfl
      | some row =>
        dsimp only
        split_ifs
        · cases req.issue row <;> rfl
        · rfl

/-- A name that is spelled as stored is counted the same with and without `u`. -/
theorem checkPassword_failures (hperm : db₁.rows.Perm (u :: db₂.rows))
    (hp : req.parsed = .ok parsed) (hpw : LacksPassword srv u req)
    (hsp : SpellsAsStored srv u req) :
    (checkPassword srv db₁ m req parsed).2 = (checkPassword srv db₂ m req parsed).2 := by
  simp only [checkPassword]
  by_cases hw : srv.weight parsed.username = srv.weight u.username
  · obtain ⟨h₁, h₂⟩ := findByUsername_spelling hperm hw
    rw [h₁, h₂]
    cases hf : req.find with
    | error e => rfl
    | ok _ => simp [hpw parsed hp hw, hsp parsed hp hw hf]
  · rw [findByUsername_eq hperm hw]

/-- One request of a sequence: the same answer, from the same failures or without lockouts. -/
theorem loginHandler_answer (hperm : db₁.rows.Perm (u :: db₂.rows))
    (hpw : LacksPassword srv u req) (h : srv.cfg.enabled = false ∨ m = m') :
    (loginHandler srv db₁ m req).1 = (loginHandler srv db₂ m' req).1 := by
  unfold loginHandler
  cases hp : req.parsed with
  | error res => rfl
  | ok parsed =>
    dsimp only
    rcases h with hen | rfl
    · simpa [hen] using checkPassword_answer hperm hp hpw
    · split_ifs
      · rfl
      · exact checkPassword_answer hperm hp hpw

theorem loginHandler_failures (hperm : db₁.rows.Perm (u :: db₂.rows))
    (hpw : LacksPassword srv u req) (hsp : SpellsAsStored srv u req) :
    (loginHandler srv db₁ m req).2 = (loginHandler srv db₂ m req).2 := by
  unfold loginHandler
  cases hp : req.parsed with
  | error res => rfl
  | ok parsed =>
    dsimp only
    split_ifs
    · rfl
    · exact checkPassword_failures hperm hp hpw hsp

theorem answers_of_disabled (hperm : db₁.rows.Perm (u :: db₂.rows))
    (hen : srv.cfg.enabled = false) {l : List Request} (hpw : ∀ req ∈ l, LacksPassword srv u req)
    (m m' : Failures) : answers srv db₁ m l = answers srv db₂ m' l := by
  induction l generalizing m m' with
  | nil => rfl
  | cons req l ih =>
    rw [answers, answers, loginHandler_answer hperm (hpw req List.mem_cons_self) (.inl hen),
      ih fun r hr => hpw r (List.mem_cons_of_mem _ hr)]

/-- Two tables that differ in one user `u` give the same answers to every sequence of requests
    without the password of `u`, if lockouts are disabled or every request that reads the row of
    `u` submits the name as it is stored. -/
theorem answers_eq (srv : Server) (db₁ db₂ : Users srv.weight) (u : UserRow)
    (hperm : db₁.rows.Perm (u :: db₂.rows)) (l : List Request)
    (hpw : ∀ req ∈ l, LacksPassword srv u req)
    (hsp : srv.cfg.enabled = false ∨ ∀ req ∈ l, SpellsAsStored srv u req) (m : Failures) :
    answers srv db₁ m l = answers srv db₂ m l := by
  rcases hsp with hen | hsp
  · exact answers_of_disabled hperm hen hpw m m
  · -- the failures stay the same, request by request
    induction l generalizing m with
    | nil => rfl
    | cons req l ih =>
      have hpw₁ := hpw req List.mem_cons_self
      rw [answers, answers, loginHandler_answer hperm hpw₁ (.inr rfl),
        loginHandler_failures hperm hpw₁ (hsp req List.mem_cons_self),
        ih (fun r hr => hpw r (List.mem_cons_of_mem _ hr)) _ fun r hr =>
          hsp r (List.mem_cons_of_mem _ hr)]

end Enumeration

/-! ## Two spellings -/

/-- The weights of an ASCII name: letters without their case. -/
def asciiWeight (name : Bytes) : Bytes :=
  name.map fun c => if 0x41 ≤ c ∧ c ≤ 0x5A then c + 0x20 else c

/-- A server that locks a name after two failures; a password is its own hash. -/
def twoServer : Server := ⟨twoFailures, fun p h => p == h, asciiWeight, true⟩

def alice : UserRow := ⟨1, bytes "alice", bytes "secret", bytes "user", none⟩

/-- A table with `alice` only, and one without anybody. -/
def withAlice : Users twoServer.weight := ⟨[alice], by decide, by decide⟩

def nobody : Users twoServer.weight := ⟨[], by decide, by simp⟩

/-- A request at a second, with calls that succeed. -/
def wrongLogin (sec : Int) (body : String) : Request where
  body := bytes body
  parseError := []
  gateAt := seconds sec
  denyAt := seconds sec
  layout := .listed Bytes Entry
  find := .ok ()
  issue _ := .ok ⟨bytes "a", bytes "r", 7200⟩

/-- What a request submits does not depend on its time. -/
theorem parsed_wrongLogin (sec : Int) (body : String) :
    (wrongLogin sec body).parsed = (wrongLogin 0 body).parsed := rfl

/-- The body of a login. -/
def loginBody (name password : String) : String :=
  "\x7b\"username\":\"" ++ name ++ "\",\"password\":\"" ++ password ++ "\"\x7d"

/-- Three wrong passwords for `alice` get the same answers whether she exists or not. -/
theorem answers_eq_alice :
    answers twoServer withAlice ∅ [wrongLogin 1 (loginBody "alice" "guess"),
        wrongLogin 2 (loginBody "alice" "guess"), wrongLogin 3 (loginBody "alice" "guess")] =
      answers twoServer nobody ∅ [wrongLogin 1 (loginBody "alice" "guess"),
        wrongLogin 2 (loginBody "alice" "guess"), wrongLogin 3 (loginBody "alice" "guess")] := by
  have hparsed : (wrongLogin 0 (loginBody "alice" "guess")).parsed =
      .ok ⟨bytes "alice", bytes "guess"⟩ := by decide +kernel
  refine answers_eq twoServer withAlice nobody alice .rfl _ (fun req hreq p hp _ => ?_)
    (.inr fun req hreq p hp _ _ => ?_) ∅
  · simp only [List.mem_cons, List.not_mem_nil, or_false] at hreq
    rcases hreq with rfl | rfl | rfl
    all_goals
      rw [parsed_wrongLogin, hparsed] at hp
      cases hp
      decide
  · simp only [List.mem_cons, List.not_mem_nil, or_false] at hreq
    rcases hreq with rfl | rfl | rfl
    all_goals
      rw [parsed_wrongLogin, hparsed] at hp
      cases hp
      decide

/-- After two wrong passwords for `ALICE`, a third one gets 401 if `alice` exists, and 423 if
    not. -/
theorem spelling_tells :
    (answers twoServer withAlice ∅ [wrongLogin 1 (loginBody "ALICE" "guess"),
        wrongLogin 2 (loginBody "ALICE" "guess"),
        wrongLogin 3 (loginBody "ALICE" "guess")]).map (·.status) = [401, 401, 401] ∧
      (answers twoServer nobody ∅ [wrongLogin 1 (loginBody "ALICE" "guess"),
        wrongLogin 2 (loginBody "ALICE" "guess"),
        wrongLogin 3 (loginBody "ALICE" "guess")]).map (·.status) = [401, 401, 423] := by
  decide +kernel

end LiteCode.AuthRoutes
