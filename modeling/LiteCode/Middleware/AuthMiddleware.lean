import LiteCode.Auth.JwtUtils
import LiteCode.Auth.PasswordHash
import LiteCode.Db.UserRepo
import LiteCode.Lib.Happened
import LiteCode.Middleware.Bearer
import LiteCode.Routes.Usernames

/-!
# Who is let in

`src/middleware/auth_middleware.h` and `src/middleware/admin_middleware.h`: the guards of the
routes, which take the user and the role from the access token. The tokens are signed by the calls
of `register_handler`, `login_handler` and `refresh_handler` in `src/routes/auth_routes.h`, any
number of them at once. A call reads the row of the user at one moment, signs the access token at a
later one and the refresh token after that, while other statements change the tables. A call may
also fail at any point, as when the refresh token turns out to be revoked.

A token is presented in the text of a header. That nobody else can sign is an assumption: the texts
that verify were signed by a call.

* `opened_of_requireAuthentication`: a user who is let in has registered, or logged in with the
  password of the row;
* `not_admin_of_demoted`: when the role has been taken from an admin, and the calls that read the
  row before are over, the access that was given lasts as long as a token, and no longer.
-/

namespace LiteCode.AuthMiddleware

open Bearer ErrorHandler JwtUtils UserRepo
open PasswordHash (verifyPassword)

/-! ## The guards -/

/-- The settings, and what is used from outside. -/
structure Setting where
  lib : Library
  /-- The collation of the names. -/
  weight : Bytes → Bytes
  secret : Bytes
  issuer : Bytes
  accessTtlSeconds : Int
  refreshTtlSeconds : Int

/-- How a guard ends a request. -/
inductive Denial
  /-- `ApiException`. -/
  | api (e : Envelope)
  /-- An exception that is not caught. -/
  | exception (what : Bytes)
  deriving DecidableEq, Repr

/-- A `401`. -/
def unauthorized (message : String) : Denial := .api ⟨401, .unauthorized, bytes message, []⟩

/-- `looks_like_bearer`. -/
def looksLikeBearer (header : Bytes) : Bool :=
  iequalsAscii ((header.dropWhile isSpace).takeWhile (!isBlank ·)) bearerScheme

/-- `require_authentication`, for the text of the header `Authorization`. -/
def requireAuthentication (p : Setting) (verified now : Nat) (header : Bytes) :
    Except Denial Claims :=
  if header = [] then .error (unauthorized "missing Authorization header")
  else
    let token := extractBearerToken header
    if token = [] then
      .error (unauthorized (if looksLikeBearer header then "empty bearer token"
        else "Authorization scheme must be Bearer"))
    else
      match verify p.lib p.secret p.issuer .access verified now token with
      | .ok claims => .ok claims
      | .error (.other what) => .error (.exception what)
      | .error _ => .error (unauthorized "invalid or expired token")

/-- `require_role`. -/
def requireRole (claims : Claims) (expectedRole : Bytes) : Except Denial Unit :=
  if claims.role ≠ expectedRole then
    .error (.api ⟨403, .forbidden, bytes "insufficient privileges", []⟩)
  else .ok ()

/-- `require_admin`. -/
def requireAdmin (p : Setting) (verified now : Nat) (header : Bytes) : Except Denial Claims := do
  let claims ← requireAuthentication p verified now header
  requireRole claims (bytes "admin")
  return claims

/-- Who is let in has a token that verifies as an access token. -/
theorem verify_of_requireAuthentication {p : Setting} {verified now : Nat} {header : Bytes}
    {c : Claims} (h : requireAuthentication p verified now header = .ok c) :
    verify p.lib p.secret p.issuer .access verified now (extractBearerToken header) = .ok c := by
  simp only [requireAuthentication] at h
  split_ifs at h
  split at h
  case h_1 claims hv => rw [hv, Except.ok.inj h]
  case h_2 => cases h
  case h_3 => cases h

/-- An admin is let in by the role that is in the token. -/
theorem requireAdmin_eq_ok_iff {p : Setting} {verified now : Nat} {header : Bytes} {c : Claims} :
    requireAdmin p verified now header = .ok c ↔
      requireAuthentication p verified now header = .ok c ∧ c.role = bytes "admin" := by
  simp only [requireAdmin, bind_eq_ok, requireRole]
  constructor
  · rintro ⟨c', hc, u, hr, h⟩
    cases h
    exact ⟨hc, by simpa using hr⟩
  · rintro ⟨hc, hr⟩
    exact ⟨c, hc, (), by simp [hr], rfl⟩

/-! ## The calls that sign -/

/-- The points of a call of a handler that signs. -/
inductive Call
  /-- The refresh token of the user was verified. -/
  | finding (userId : Bytes)
  /-- The row of the user was read, or inserted. -/
  | signing (userId : Bytes) (row : UserRow)
  /-- The access token is signed. -/
  | pairing (userId : Bytes)
  | ended
  deriving DecidableEq, Repr

/-- The handlers together. -/
structure State (weight : Bytes → Bytes) where
  /-- The system clock, in nanoseconds. -/
  now : Nat
  tables : Tables weight
  /-- The tokens signed so far. -/
  signed : List Bytes
  calls : List Call

/-- The atomic steps. -/
inductive Action (weight : Bytes → Bytes)
  /-- Time passes. -/
  | tick (d : Nat)
  /-- A statement of somebody else, which leaves the tables as `t`. -/
  | write (t : Tables weight)
  /-- The `create_user` of a call of `register_handler`. -/
  | register (username passwordHash : Bytes) (email : Option Bytes)
  /-- A call of `login_handler`, up to the check of the password. -/
  | login (username password : Bytes)
  /-- A call of `refresh_handler`, up to the verification of the token. -/
  | refresh (presented : Bytes)
  /-- The `find_by_id` of the call `i`. -/
  | find (i : Nat)
  /-- The call `i` signs the access token. -/
  | signAccess (i : Nat) (jti : Bytes)
  /-- The call `i` signs the refresh token. -/
  | signRefresh (i : Nat) (jti : Bytes)
  /-- The call `i` ends with an error. -/
  | fail (i : Nat)

variable {p : Setting}

/-- The state in which the call `i` is at another point. -/
def State.goto (s : State p.weight) (i : Nat) (c : Call) : State p.weight :=
  { s with calls := s.calls.set i c }

/-- A new call. -/
def State.begin (s : State p.weight) (c : Call) : State p.weight :=
  { s with calls := s.calls ++ [c] }

/-- The `create_user` of `register_handler`, after which the call signs if there is a new row. -/
def register (s : State p.weight) (username passwordHash : Bytes) (email : Option Bytes) :
    Option (State p.weight) :=
  let (id, tables) := s.tables.createUser username passwordHash .user email
  if id = 0 then none
  else some { s.begin (.signing (decimalInt id)
    (s.tables.newRow username passwordHash .user email)) with tables }

/-- `find_by_username` and `verify_password` of `login_handler`. -/
def login (s : State p.weight) (username password : Bytes) : Option (State p.weight) := do
  let row ← s.tables.findByUsername username
  if verifyPassword password row.passwordHash then
    some (s.begin (.signing (decimalInt row.id) row))
  else none

/-- The verification of `refresh_handler`. -/
def refresh (s : State p.weight) (presented : Bytes) : Option (State p.weight) :=
  match verify p.lib p.secret p.issuer .refresh s.now s.now presented with
  | .ok claims => some (s.begin (.finding claims.userId))
  | .error _ => none

/-- The row that `refresh_handler` finds for the `sub` of a token. -/
def findRow (s : State p.weight) (userId : Bytes) : Option UserRow := do
  let id ← stoi userId
  if id ≤ 0 then none else s.tables.findById id

/-- The lookup of `refresh_handler`. -/
def find (s : State p.weight) (i : Nat) : Option (State p.weight) :=
  match s.calls[i]? with
  | some (.finding userId) =>
    match findRow s userId with
    | some row => some (s.goto i (.signing userId row))
    | none => some (s.goto i .ended)
  | _ => none

/-- The access token of `issue_token_pair`. -/
def issueAccess (s : State p.weight) (i : Nat) (jti : Bytes) : Option (State p.weight) :=
  match s.calls[i]? with
  | some (.signing userId row) =>
    if p.accessTtlSeconds < 1 ∨ p.refreshTtlSeconds < p.accessTtlSeconds then
      some (s.goto i .ended)
    else
      match signAccess p.lib p.secret p.issuer userId row.username row.role.name
        p.accessTtlSeconds jti s.now with
      | .ok st => some { s.goto i (.pairing userId) with signed := s.signed ++ [st.token] }
      | .error _ => some (s.goto i .ended)
  | _ => none

/-- The refresh token of `issue_token_pair`. -/
def issueRefresh (s : State p.weight) (i : Nat) (jti : Bytes) : Option (State p.weight) :=
  match s.calls[i]? with
  | some (.pairing userId) =>
    match signRefresh p.lib p.secret p.issuer userId p.refreshTtlSeconds jti s.now with
    | .ok st => some { s.goto i .ended with signed := s.signed ++ [st.token] }
    | .error _ => some (s.goto i .ended)
  | _ => none

/-- One step. -/
def step (s : State p.weight) : Action p.weight → Option (State p.weight)
  | .tick d => some { s with now := s.now + d }
  | .write t => some { s with tables := t }
  | .register username passwordHash email => register s username passwordHash email
  | .login username password => login s username password
  | .refresh presented => refresh s presented
  | .find i => find s i
  | .signAccess i jti => issueAccess s i jti
  | .signRefresh i jti => issueRefresh s i jti
  | .fail i => if i < s.calls.length then some (s.goto i .ended) else none

/-- The server, from a start without calls and tokens. -/
def system (p : Setting) : System (State p.weight) (Action p.weight) where
  init s := s.signed = [] ∧ s.calls = []
  step := step

/-! ## What a step does -/

variable {s s' : State p.weight} {a : Action p.weight}

/-- What a step does to the calls and to the tokens. -/
inductive Moves (s : State p.weight) : Action p.weight → State p.weight → Prop
  | quiet {a : Action p.weight} (now : Nat) (tables : Tables p.weight) (hnow : s.now ≤ now) :
    Moves s a { s with now, tables }
  | register {username passwordHash : Bytes} {email : Option Bytes} (tables : Tables p.weight)
      (h : s.tables.Admits username email) :
    Moves s (.register username passwordHash email) (State.begin { s with tables }
      (.signing (decimalInt s.tables.nextId)
        (s.tables.newRow username passwordHash .user email)))
  | login {username password : Bytes} {row : UserRow}
      (hrow : s.tables.findByUsername username = some row)
      (hpassword : verifyPassword password row.passwordHash = true) :
    Moves s (.login username password) (s.begin (.signing (decimalInt row.id) row))
  | refresh {presented : Bytes} {c : Claims}
      (hc : verify p.lib p.secret p.issuer .refresh s.now s.now presented = .ok c) :
    Moves s (.refresh presented) (s.begin (.finding c.userId))
  | find {i : Nat} {userId : Bytes} {row : UserRow} (hi : s.calls[i]? = some (.finding userId))
      (hrow : findRow s userId = some row) : Moves s (.find i) (s.goto i (.signing userId row))
  | signAccess {i : Nat} {userId jti : Bytes} {row : UserRow} {st : SignedToken}
      (hi : s.calls[i]? = some (.signing userId row))
      (hst : signAccess p.lib p.secret p.issuer userId row.username row.role.name
        p.accessTtlSeconds jti s.now = .ok st) :
    Moves s (.signAccess i jti)
      { s.goto i (.pairing userId) with signed := s.signed ++ [st.token] }
  | signRefresh {i : Nat} {userId jti : Bytes} {st : SignedToken}
      (hi : s.calls[i]? = some (.pairing userId))
      (hst : signRefresh p.lib p.secret p.issuer userId p.refreshTtlSeconds jti s.now = .ok st) :
    Moves s (.signRefresh i jti) { s.goto i .ended with signed := s.signed ++ [st.token] }
  | ended {a : Action p.weight} (i : Nat) : Moves s a (s.goto i .ended)

/-- A registration appends a row, and its call goes on to sign for it. -/
theorem moves_register {username passwordHash : Bytes} {email : Option Bytes}
    (h : register s username passwordHash email = some s') :
    Moves s (.register username passwordHash email) s' := by
  by_cases hadmits : s.tables.Admits username email
  · simp only [register, Tables.createUser, dif_pos hadmits] at h
    split_ifs at h
    cases h
    exact .register _ hadmits
  · simp [register, Tables.createUser, hadmits] at h

/-- A refresh takes the row that is there now, or ends. -/
theorem moves_find {i : Nat} (h : find s i = some s') : Moves s (.find i) s' := by
  simp only [find] at h
  split at h
  case h_2 => cases h
  case h_1 userId hi =>
    split at h
    case h_1 row hrow =>
      cases h
      exact .find hi hrow
    case h_2 =>
      cases h
      exact .ended i

/-- An access token carries the name and the role of the row that was read. -/
theorem moves_issueAccess {i : Nat} {jti : Bytes} (h : issueAccess s i jti = some s') :
    Moves s (.signAccess i jti) s' := by
  simp only [issueAccess] at h
  split at h
  case h_2 => cases h
  case h_1 userId row hi =>
    split_ifs at h
    · cases h
      exact .ended i
    · split at h
      case h_1 st hst =>
        cases h
        exact .signAccess hi hst
      case h_2 =>
        cases h
        exact .ended i

/-- A refresh token carries the user id. -/
theorem moves_issueRefresh {i : Nat} {jti : Bytes} (h : issueRefresh s i jti = some s') :
    Moves s (.signRefresh i jti) s' := by
  simp only [issueRefresh] at h
  split at h
  case h_2 => cases h
  case h_1 userId hi =>
    split at h
    case h_1 st hst =>
      cases h
      exact .signRefresh hi hst
    case h_2 =>
      cases h
      exact .ended i

/-- Every step is one of these moves. -/
theorem moves_step (h : step s a = some s') : Moves s a s' := by
  cases a with
  | tick d =>
    cases h
    exact .quiet _ _ (Nat.le_add_right _ _)
  | write t =>
    cases h
    exact .quiet _ _ le_rfl
  | register username passwordHash email => exact moves_register h
  | login username password =>
    obtain ⟨row, hrow, h⟩ := Option.bind_eq_some_iff.1 h
    split_ifs at h with hpassword
    cases h
    exact .login hrow hpassword
  | refresh presented =>
    simp only [step, refresh] at h
    split at h
    case h_1 c hc =>
      cases h
      exact .refresh hc
    case h_2 => cases h
  | find i => exact moves_find h
  | signAccess i jti => exact moves_issueAccess h
  | signRefresh i jti => exact moves_issueRefresh h
  | fail i =>
    simp only [step] at h
    split_ifs at h
    cases h
    exact .ended i

/-! ## The account of the tokens -/

/-- A token that was signed: an access token of which `A` holds, for the user, the role and the
    time, or a refresh token of which `R` holds, for the user. -/
inductive Signed (p : Setting) (A : Bytes → Role → Nat → Prop) (R : Bytes → Prop) (token : Bytes) :
    Prop
  | access {userId username jti : Bytes} {role : Role} {t : Nat} {st : SignedToken}
      (h : signAccess p.lib p.secret p.issuer userId username role.name p.accessTtlSeconds jti t =
        .ok st) (htoken : st.token = token) (hA : A userId role t)
  | refresh {userId jti : Bytes} {t : Nat} {st : SignedToken}
      (h : signRefresh p.lib p.secret p.issuer userId p.refreshTtlSeconds jti t = .ok st)
      (htoken : st.token = token) (hR : R userId)

/-- `C` holds of the calls, and `A` and `R` of the tokens. -/
structure Accounted (C : Call → Prop) (A : Bytes → Role → Nat → Prop) (R : Bytes → Prop)
    (s : State p.weight) : Prop where
  calls : ∀ c ∈ s.calls, C c
  signed : ∀ token ∈ s.signed, Signed p A R token

namespace Accounted

variable {C C' : Call → Prop} {A A' : Bytes → Role → Nat → Prop} {R R' : Bytes → Prop}

/-- A call begins. -/
theorem begin (h : Accounted C A R s) {c : Call} (hc : C c) : Accounted C A R (s.begin c) where
  calls := forall_mem_concat h.calls hc
  signed := h.signed

/-- A call goes on. -/
theorem goto (h : Accounted C A R s) {i : Nat} {c : Call} (hc : C c) :
    Accounted C A R (s.goto i c) where
  calls := by
    intro c' hc'
    rcases List.mem_or_eq_of_mem_set hc' with hc' | rfl
    · exact h.calls c' hc'
    · exact hc
  signed := h.signed

/-- A call signs a token, and goes on. -/
theorem sign (h : Accounted C A R s) {i : Nat} {c : Call} {token : Bytes} (hc : C c)
    (ht : Signed p A R token) :
    Accounted C A R { s.goto i c with signed := s.signed ++ [token] } where
  calls := (h.goto hc).calls
  signed := forall_mem_concat h.signed ht

theorem mono (h : Accounted C A R s) (hC : ∀ c, C c → C' c)
    (hA : ∀ u role t, A u role t → A' u role t) (hR : ∀ u, R u → R' u) : Accounted C' A' R' s where
  calls c hc := hC c (h.calls c hc)
  signed token ht := by
    cases h.signed token ht with
    | access h htoken hA' => exact .access h htoken (hA _ _ _ hA')
    | refresh h htoken hR' => exact .refresh h htoken (hR _ hR')

end Accounted

/-! ## Where a session starts -/

/-- The user of a call. -/
def Call.userId : Call → Option Bytes
  | .finding userId | .signing userId _ | .pairing userId => some userId
  | .ended => none

/-- The refresh tokens that verify were signed here. -/
def Unforged (s : State p.weight) : Action p.weight → Prop
  | .refresh presented => (refresh s presented).isSome = true → presented ∈ s.signed
  | _ => True

/-- The user registers, or logs in with the password of the row. -/
def Opens (userId : Bytes) (s : State p.weight) : Action p.weight → Prop
  | .register username _ email =>
    s.tables.Admits username email ∧ userId = decimalInt s.tables.nextId
  | .login username password => ∃ row, s.tables.findByUsername username = some row ∧
    verifyPassword password row.passwordHash = true ∧ userId = decimalInt row.id
  | _ => False

section

variable {s₀ : State p.weight} {l : List (Action p.weight)}

/-- In the run `l`, the user has registered or logged in. -/
def Opened (s₀ : State p.weight) (l : List (Action p.weight)) (userId : Bytes) : Prop :=
  (system p).Happened Unforged s₀ (Opens userId) l

/-- Whom the calls serve and the tokens name has opened a session. -/
def AllOpened (s₀ : State p.weight) (l : List (Action p.weight)) (s : State p.weight) : Prop :=
  Accounted (fun c => ∀ u ∈ c.userId, Opened s₀ l u) (fun u _ _ => Opened s₀ l u) (Opened s₀ l) s

/-- A token that was signed verifies as that of its user. -/
theorem Signed.userId {A : Bytes → Role → Nat → Prop} {R : Bytes → Prop} {token : Bytes}
    {k : TokenKind} {verified t : Nat} {c : Claims} (hlib : p.lib.Lawful) (h : Signed p A R token)
    (hc : verify p.lib p.secret p.issuer k verified t token = .ok c) :
    (∃ role t, A c.userId role t) ∨ R c.userId := by
  cases h with
  | access h htoken hA =>
    rw [← htoken] at hc
    obtain ⟨-, -, -, -, -, -, rfl⟩ := (verify_signAccess hlib h _ _ _ _ _).1 hc
    exact .inl ⟨_, _, hA⟩
  | refresh h htoken hR =>
    rw [← htoken] at hc
    obtain ⟨-, -, -, -, -, rfl⟩ := (verify_signRefresh hlib h _ _ _ _ _).1 hc
    exact .inr hR

/-- The user of a token that verifies has opened a session. -/
theorem Signed.opened {token : Bytes} {k : TokenKind} {verified t : Nat} {c : Claims}
    (hlib : p.lib.Lawful) (h : Signed p (fun u _ _ => Opened s₀ l u) (Opened s₀ l) token)
    (hc : verify p.lib p.secret p.issuer k verified t token = .ok c) : Opened s₀ l c.userId := by
  rcases h.userId hlib hc with ⟨_, _, h⟩ | h
  · exact h
  · exact h

/-- So has the user of a call in progress. -/
theorem AllOpened.userId {i : Nat} {c : Call} (h : AllOpened s₀ l s) (hi : s.calls[i]? = some c) :
    ∀ u ∈ c.userId, Opened s₀ l u :=
  h.calls c (List.mem_of_getElem? hi)

/-- Every step that presents no forged token keeps this. -/
theorem AllOpened.step (hlib : p.lib.Lawful) (hl : (system p).Exec Unforged s₀ l s)
    (h : AllOpened s₀ l s) (hg : Unforged s a) (hs : step s a = some s') :
    AllOpened s₀ (l ++ [a]) s' := by
  have h' : AllOpened s₀ (l ++ [a]) s :=
    h.mono (fun c hc u hu => (hc u hu).concat a) (fun u _ _ hu => hu.concat a)
      fun u hu => hu.concat a
  cases moves_step hs with
  | quiet => exact ⟨h'.calls, h'.signed⟩
  | @register username passwordHash email tables hadmits =>
    have hopens : Opens (decimalInt s.tables.nextId) s (.register username passwordHash email) :=
      ⟨hadmits, rfl⟩
    have hw : AllOpened s₀ (l ++ [_]) { s with tables } := ⟨h'.calls, h'.signed⟩
    exact hw.begin fun u hu => Option.some.inj hu ▸ hl.happened hopens
  | @login username password row hrow hpassword =>
    have hopens : Opens (decimalInt row.id) s (.login username password) :=
      ⟨row, hrow, hpassword, rfl⟩
    exact h'.begin fun u hu => Option.some.inj hu ▸ hl.happened hopens
  | refresh hc =>
    have hmem := hg (by simp [refresh, hc])
    have hopened := (h'.signed _ hmem).opened hlib hc
    exact h'.begin fun u hu => Option.some.inj hu ▸ hopened
  | find hi hrow => exact h'.goto fun u hu => h'.userId hi u hu
  | signAccess hi hst =>
    have hu := h'.userId hi _ rfl
    exact h'.sign (fun u hu => h'.userId hi u hu) (.access hst rfl hu)
  | signRefresh hi hst =>
    have hu := h'.userId hi _ rfl
    exact h'.sign (fun _ hu => by cases hu) (.refresh hst rfl hu)
  | ended i => exact h'.goto fun _ hu => by cases hu

instance (s : State p.weight) : DecidablePred (Unforged s)
  | .refresh _ => inferInstanceAs (Decidable (_ → _))
  | .tick _ | .write _ | .register .. | .login .. | .find _ | .signAccess .. | .signRefresh ..
  | .fail _ => isTrue trivial

/-- A user who is let in has opened a session: registered in this run, or logged in with the
    password of the row. The token is one that was signed here. -/
theorem opened_of_requireAuthentication {header : Bytes} {verified now : Nat} {c : Claims}
    (hlib : p.lib.Lawful) (h₀ : (system p).init s₀) (hl : (system p).Exec Unforged s₀ l s)
    (htoken : extractBearerToken header ∈ s.signed)
    (h : requireAuthentication p verified now header = .ok c) :
    ∃ l₁ a l₂ s₁, l = l₁ ++ a :: l₂ ∧ (system p).Exec Unforged s₀ l₁ s₁ ∧ Opens c.userId s₁ a := by
  have hall : AllOpened s₀ l s := by
    refine hl.trace (P := fun l s => AllOpened s₀ l s) ?_ fun l s a s' hl h hg hs =>
      h.step hlib hl hg hs
    exact ⟨by simp [h₀.2], by simp [h₀.1]⟩
  exact (hall.signed _ htoken).opened hlib (verify_of_requireAuthentication h)

end

/-- The access token of the first user who registers. -/
def aliceToken : Bytes :=
  bytes "eyJhbGciOiJIUzI1NiIsInR5cCI6IkpXVCJ9.eyJleHAiOjE3MDAwMDcyMDAsImlhdCI6MTcwMDAwMDAwMCw" ++
  bytes "iaXNzIjoibGl0ZWNvZGUiLCJqdGkiOiI1NTBlODQwMC1lMjliLTQxZDQtYTcxNi00NDY2NTU0NDAwMDAiLCJ" ++
  bytes "raW5kIjoiYWNjZXNzIiwicm9sZSI6InVzZXIiLCJzdWIiOiIxIiwidXNlcm5hbWUiOiJhbGljZSJ9.KIxIRc" ++
  bytes "cuKkjdFP2Ynyat_Qu5fMx2b16LXZW4tOso6u8"

/-- The `jti` of the access tokens that are signed an hour later. -/
def laterJti : Bytes := bytes "550e8400-e29b-41d4-a716-446655440002"

/-- The access token that a refresh gives her then. -/
def aliceLaterToken : Bytes :=
  bytes "eyJhbGciOiJIUzI1NiIsInR5cCI6IkpXVCJ9." ++ bytes "eyJleHAiOjE3MDAwMTA4MDAsImlhdCI6MTcwM" ++
  bytes "DAwMzYwMCwiaXNzIjoibGl0ZWNvZGUiLCJqdG" ++ bytes "kiOiI1NTBlODQwMC1lMjliLTQxZDQtYTcxNi0" ++
  bytes "0NDY2NTU0NDAwMDIiLCJraW5kIjoiYWNjZXNz" ++ bytes "Iiwicm9sZSI6InVzZXIiLCJzdWIiOiIxIiwid" ++
  bytes "XNlcm5hbWUiOiJhbGljZSJ9.TnbmXsOVzxJmP" ++ bytes "2PRzHPwfg5bQ7Bkx6ZG-Nhp54N46L8"

/-- The access token that a refresh gives then to `root`, who is no admin any more. -/
def rootLaterToken : Bytes :=
  bytes "eyJhbGciOiJIUzI1NiIsInR5cCI6IkpXVCJ9." ++ bytes "eyJleHAiOjE3MDAwMTA4MDAsImlhdCI6MTcwM" ++
  bytes "DAwMzYwMCwiaXNzIjoibGl0ZWNvZGUiLCJqdG" ++ bytes "kiOiI1NTBlODQwMC1lMjliLTQxZDQtYTcxNi0" ++
  bytes "0NDY2NTU0NDAwMDIiLCJraW5kIjoiYWNjZXNz" ++ bytes "Iiwicm9sZSI6InVzZXIiLCJzdWIiOiIxIiwid" ++
  bytes "XNlcm5hbWUiOiJyb290In0.cYzBzSs13Liwui" ++ bytes "KaA_Jla2n1keizRuSOCt5egjE-vfk"

/-- The tokens of the examples, with their claims. -/
def someTokens : List (Payload × Bytes) :=
  (accessPayload (bytes "litecode") (bytes "1") (bytes "alice") (bytes "user") (jtiText .access)
    7200 signedAt, aliceToken) ::
  (accessPayload (bytes "litecode") (bytes "1") (bytes "alice") (bytes "user") laterJti 7200
    (signedAt + 3600 * second), aliceLaterToken) ::
  (accessPayload (bytes "litecode") (bytes "1") (bytes "root") (bytes "user") laterJti 7200
    (signedAt + 3600 * second), rootLaterToken) :: rootTokens

/-- A server that signs these tokens. -/
def someServer : Setting where
  lib := Library.table secretText someTokens
  weight := fun name => name
  secret := secretText
  issuer := bytes "litecode"
  accessTtlSeconds := 7200
  refreshTtlSeconds := 604800

theorem lawful_someServer : someServer.lib.Lawful :=
  lawful_table (by decide +kernel) (by decide +kernel)

/-- A server without users. -/
def noUsers : State someServer.weight where
  now := signedAt
  tables := Usernames.noUsers _
  signed := []
  calls := []

/-- The header with a token. -/
def bearer (token : Bytes) : Bytes := bytes "Bearer " ++ token

/-- A user registers, and refreshes the session an hour later. -/
def aliceRefreshes : List (Action someServer.weight) :=
  [.register (bytes "alice") [] none, .signAccess 0 (jtiText .access),
    .signRefresh 0 (jtiText .refresh), .tick (3600 * second), .refresh (tokenText .refresh),
    .find 1, .signAccess 1 laterJti]

/-- The access token of the refresh lets her in when the first one has expired. -/
theorem opened_alice : ∃ l₁ a l₂ s₁, aliceRefreshes = l₁ ++ a :: l₂ ∧
    (system someServer).Exec Unforged noUsers l₁ s₁ ∧ Opens (bytes "1") s₁ a := by
  obtain ⟨s, hl, hs⟩ := System.exists_exec_of_runGuarded (S := system someServer) (G := Unforged)
    (s := noUsers) (l := aliceRefreshes)
    (p := fun s => extractBearerToken (bearer aliceLaterToken) ∈ s.signed) (by decide +kernel)
  have hin : requireAuthentication someServer (signedAt + 7201 * second)
      (signedAt + 7201 * second) (bearer aliceLaterToken) =
      .ok (accessClaims (bytes "1") (bytes "alice") (bytes "user") laterJti 7200
        (signedAt + 3600 * second)) := by decide +kernel
  exact opened_of_requireAuthentication lawful_someServer ⟨rfl, rfl⟩ hl (of_decide_eq_true hs) hin

/-! ## How long a role lasts -/

/-- The user `id` is no admin. -/
def NotAdmin (id : Int) (s : State p.weight) (_ : Action p.weight) : Prop :=
  ∀ r ∈ s.tables.users, r.id = id → r.role ≠ .admin

/-- The call is not about to sign a token for the user `id` as an admin. -/
def Call.Spares (id : Int) : Call → Prop
  | .signing userId row => stoi userId = some id → row.role ≠ .admin
  | _ => True

/-- The access tokens were signed until `T`. -/
def SignedUntil (T : Nat) (s : State p.weight) : Prop :=
  Accounted (fun _ => True) (fun _ _ t => t ≤ T) (fun _ => True) s

/-- The access tokens of the user `id` as an admin were signed until `T`, and there will be no
    other. -/
def Demoted (id : Int) (T : Nat) (s : State p.weight) : Prop :=
  Accounted (Call.Spares id) (fun u role t => stoi u = some id → role = .admin → t ≤ T)
    (fun _ => True) s

/-- A step signs its tokens at the present time. -/
theorem SignedUntil.step (h : SignedUntil s.now s) (hs : step s a = some s') :
    SignedUntil s'.now s' := by
  cases moves_step hs with
  | quiet now tables hnow =>
    have h' : SignedUntil now s :=
      h.mono (fun _ => id) (fun _ _ _ ht => ht.trans hnow) fun _ => id
    exact ⟨h'.calls, h'.signed⟩
  | register tables =>
    have hw : SignedUntil s.now { s with tables } := ⟨h.calls, h.signed⟩
    exact hw.begin trivial
  | login => exact h.begin trivial
  | refresh => exact h.begin trivial
  | find => exact h.goto trivial
  | signAccess hi hst => exact h.sign trivial (.access hst rfl le_rfl)
  | signRefresh hi hst => exact h.sign trivial (.refresh hst rfl trivial)
  | ended => exact h.goto trivial

/-- The id of a row, as it is written into a token. -/
theorem stoi_decimalInt_id {t : Tables p.weight} {r : UserRow} (hr : r ∈ t.users) :
    stoi (decimalInt r.id) = some r.id := by
  have hpos := t.ids_lt r hr
  have hle := t.nextId_le
  obtain ⟨n, hn⟩ : ∃ n : Nat, r.id = n := ⟨r.id.toNat, by omega⟩
  rw [hn]
  exact stoi_decimal (by omega)

/-- While the user is no admin, no step signs a token for the user as one. -/
theorem Demoted.step {id : Int} {T : Nat} (h : Demoted id T s) (hg : NotAdmin id s a)
    (hs : step s a = some s') : Demoted id T s' := by
  cases moves_step hs with
  | quiet => exact ⟨h.calls, h.signed⟩
  | register tables =>
    have hw : Demoted id T { s with tables } := ⟨h.calls, h.signed⟩
    exact hw.begin fun _ => Role.noConfusion
  | login hrow =>
    refine h.begin fun hid => ?_
    have hmem := (Tables.findByUsername_eq_some_iff.1 hrow).1
    rw [stoi_decimalInt_id hmem] at hid
    exact hg _ hmem (Option.some.inj hid)
  | refresh => exact h.begin trivial
  | find hi hrow =>
    refine h.goto fun hid => ?_
    obtain ⟨n, hn, hrow⟩ := Option.bind_eq_some_iff.1 hrow
    split_ifs at hrow
    obtain ⟨hmem, rfl⟩ := Tables.findById_eq_some_iff.1 hrow
    exact hg _ hmem (Option.some.inj (hn.symm.trans hid))
  | signAccess hi hst =>
    have hspares := h.calls _ (List.mem_of_getElem? hi)
    exact h.sign (c := .pairing _) trivial
      (.access hst rfl fun hid hrole => absurd hrole (hspares hid))
  | signRefresh hi hst => exact h.sign (c := .ended) trivial (.refresh hst rfl trivial)
  | ended => exact h.goto (c := .ended) trivial

/-- From a state in which no call is about to sign a token for the user as an admin, and while the
    user is none, the access as an admin ends with the lifetime of a token. -/
theorem not_admin_of_demoted {id : Int} {s₁ : State p.weight} {l : List (Action p.weight)}
    {header : Bytes} {verified now : Nat} (hlib : p.lib.Lawful)
    (h₁ : (system p).Reach System.Always s₁) (hcalls : ∀ c ∈ s₁.calls, c.Spares id)
    (hl : (system p).Exec (NotAdmin id) s₁ l s) (htoken : extractBearerToken header ∈ s.signed)
    (hlate : (s₁.now : Int) + p.accessTtlSeconds * second ≤ now) (c : Claims) :
    ¬(requireAdmin p verified now header = .ok c ∧ stoi c.userId = some id) := by
  rintro ⟨h, hid⟩
  have huntil : SignedUntil s₁.now s₁ := by
    refine h₁.invariant (P := fun s => SignedUntil s.now s) ?_ fun s a s' h _ hs => h.step hs
    exact fun s hs => ⟨by simp [hs.2], by simp [hs.1]⟩
  have hstart : Demoted id s₁.now s₁ :=
    ⟨hcalls, (huntil.mono (fun _ h => h) (fun _ _ _ ht _ _ => ht) fun _ h => h).signed⟩
  have hend : Demoted id s₁.now s := hl.invariant hstart fun _ _ _ h hg hs => h.step hg hs
  obtain ⟨hauth, hrole⟩ := requireAdmin_eq_ok_iff.1 h
  have hverify := verify_of_requireAuthentication hauth
  cases hend.signed _ htoken with
  | refresh h htoken _ =>
    rw [← htoken] at hverify
    obtain ⟨hk, -⟩ := (verify_signRefresh hlib h _ _ _ _ _).1 hverify
    cases hk
  | @access _ _ _ role t _ h htoken hA =>
    rw [← htoken] at hverify
    obtain ⟨-, -, -, -, -, hlt, rfl⟩ := (verify_signAccess hlib h _ _ _ _ _).1 hverify
    have hadmin : role = .admin := by
      cases role with
      | user =>
        have hne : Role.user.name ≠ bytes "admin" := by decide
        exact absurd hrole hne
      | admin => rfl
    have hle : (t : Int) ≤ s₁.now := by exact_mod_cast hA hid hadmin
    have hfloor : ((t / second : Nat) : Int) * second ≤ t := by
      exact_mod_cast Nat.div_mul_le_self t second
    rw [Int.add_mul] at hlt
    omega

/-- The table with the account of an admin. -/
def rootUsers : Tables someServer.weight :=
  ((Usernames.noUsers _).createUser (bytes "root") [] .admin none).2

/-- A server with an admin. -/
def oneAdmin : State someServer.weight where
  now := signedAt
  tables := rootUsers
  signed := []
  calls := []

instance (id : Int) (s : State p.weight) : DecidablePred (NotAdmin id s) := fun _ =>
  inferInstanceAs (Decidable (∀ r ∈ s.tables.users, r.id = id → r.role ≠ .admin))

/-- A refresh, in which the role is taken from the admin right after the access token was signed. -/
def rootDemoted : List (Action someServer.weight) :=
  [.refresh (tokenText .refresh), .find 0, .signAccess 0 (jtiText .access),
    .write (rootUsers.updateRole 1 .user).2]

/-- The rest of the refresh, and another one an hour later. -/
def rootRefreshes : List (Action someServer.weight) :=
  [.signRefresh 0 (jtiText .refresh), .tick (3600 * second), .refresh (tokenText .refresh),
    .find 1, .signAccess 1 laterJti]

/-- The refresh after the demotion signs a token for a user. The token from before still lets the
    account in as an admin, until two hours are over. -/
theorem not_admin_of_demoted_root : ∃ s : State someServer.weight,
    s.tables.users.map UserRow.role = [.user] ∧
    s.signed = [tokenText .access, tokenText .refresh, rootLaterToken] ∧
    requireAdmin someServer (signedAt + 7199 * second) (signedAt + 7199 * second)
        (bearer (tokenText .access)) =
      .ok (accessClaims (bytes "1") (bytes "root") (bytes "admin") (jtiText .access) 7200
        signedAt) ∧
    ¬(requireAdmin someServer (signedAt + 7200 * second) (signedAt + 7200 * second)
        (bearer (tokenText .access)) =
      .ok (accessClaims (bytes "1") (bytes "root") (bytes "admin") (jtiText .access) 7200
        signedAt) ∧ stoi (bytes "1") = some 1) := by
  obtain ⟨s₁, hl₁, hs₁⟩ := System.exists_exec_of_run (S := system someServer) (s := oneAdmin)
    (l := rootDemoted)
    (p := fun s₁ => s₁.now = signedAt ∧ s₁.calls = [.pairing (bytes "1")] ∧
      ((system someServer).runGuarded (NotAdmin 1) s₁ rootRefreshes).any fun s =>
        s.tables.users.map UserRow.role = [.user] ∧
        s.signed = [tokenText .access, tokenText .refresh, rootLaterToken]) (by decide +kernel)
  obtain ⟨hnow, hcalls, hrest⟩ := of_decide_eq_true hs₁
  obtain ⟨s, hl, hs⟩ := System.exists_exec_of_runGuarded hrest
  obtain ⟨hroles, hsigned⟩ := of_decide_eq_true hs
  have htoken : extractBearerToken (bearer (tokenText .access)) ∈ s.signed := by
    rw [hsigned]
    decide +kernel
  refine ⟨s, hroles, hsigned, by decide +kernel, ?_⟩
  refine not_admin_of_demoted lawful_someServer ⟨oneAdmin, _, ⟨rfl, rfl⟩, hl₁⟩ ?_ hl htoken ?_ _
  · intro c hc
    rw [hcalls, List.mem_singleton] at hc
    rw [hc]
    trivial
  · rw [hnow]
    decide +kernel

end LiteCode.AuthMiddleware
