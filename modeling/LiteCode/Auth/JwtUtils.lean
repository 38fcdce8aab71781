import LiteCode.Routes.ErrorHandler
import Mathlib.Data.List.Nodup

/-!
# Tokens

`src/auth/jwt_utils.h`: the signing of access and refresh tokens, and their verification. The
library that encodes and signs a payload is a parameter; `Library.Lawful` is what it promises for
the tokens that it signed.

The library does not ask for an expiry. The one of a token is read at the end of `verify`, where a
payload without it leaves the function with an exception that is no `JwtError`.

* `verify_eq_ok_iff`: what `verify` accepts, and what it returns, in terms of the payload;
* `verify_signAccess`, `verify_signRefresh`: of a token that was signed, as what it is accepted,
  when, and with which claims;
* `verify_pair`: the tokens of a session, which do not stand in for one another.
-/

namespace LiteCode.JwtUtils

open ErrorHandler (bind_eq_ok)

/-- A second, in nanoseconds. -/
def second : Nat := 1000000000

/-! ## The library -/

/-- A claim. A date is a number, taken in seconds. -/
inductive Claim
  | string (s : Bytes)
  | number (seconds : Int)
  | other
  deriving DecidableEq, Repr

/-- The claims of a token, by their names. -/
abbrev Payload := List (Bytes × Claim)

/-- A claim of a payload. -/
def Payload.get (p : Payload) (name : String) : Option Claim :=
  (p.find? fun c => c.1 == bytes name).map Prod.snd

/-- The exceptions of `verifier.verify`. -/
inductive Rejection
  /-- `signature_verification_exception`. -/
  | signature (what : Bytes)
  /-- `system_error`. -/
  | system (what : Bytes)
  | other (what : Bytes)
  deriving DecidableEq, Repr

/-- What is used of the library. -/
structure Library where
  /-- `sign` with HS256 and a secret, or the text of the exception. -/
  sign : Bytes → Payload → Except Bytes Bytes
  /-- `decode`, without a check of the signature. -/
  decode : Bytes → Except Bytes Payload
  /-- `verify` of a verifier for HS256 with a secret and for an issuer, at a time. -/
  verify : Bytes → Bytes → Nat → Bytes → Except Rejection Unit
  /-- The text of the exception for a claim that is missing. -/
  missing : Bytes
  /-- The text of the exception for a claim of another type. -/
  badCast : Bytes

/-- The check of a date, which passes if there is none. -/
def DateCheck (good : Int → Prop) : Option Claim → Prop
  | none => True
  | some (.number t) => good t
  | some _ => False

instance (good : Int → Prop) [DecidablePred good] : DecidablePred (DateCheck good)
  | none => isTrue trivial
  | some (.number t) => inferInstanceAs (Decidable (good t))
  | some (.string _) => isFalse id
  | some .other => isFalse id

/-- The checks of the claims by a verifier without leeway: the issuer, and the dates that are
    there. -/
def Payload.Current (p : Payload) (issuer : Bytes) (now : Nat) : Prop :=
  p.get "iss" = some (.string issuer) ∧
  DateCheck (fun t => (now : Int) ≤ t * second) (p.get "exp") ∧
  DateCheck (fun t => t * second ≤ now) (p.get "iat") ∧
  DateCheck (fun t => t * second ≤ now) (p.get "nbf")

instance (p : Payload) (issuer : Bytes) (now : Nat) : Decidable (p.Current issuer now) :=
  inferInstanceAs (Decidable (_ ∧ _))

/-- A token that was signed is a text, it is decoded to its claims, and its signature is correct. -/
structure Library.Lawful (lib : Library) : Prop where
  ne_nil : ∀ {secret p token}, lib.sign secret p = .ok token → token ≠ []
  decode_sign : ∀ {secret p token}, lib.sign secret p = .ok token →
    ∃ q, lib.decode token = .ok q ∧ ∀ name, q.get name = p.get name
  verify_sign : ∀ {secret p token}, lib.sign secret p = .ok token → ∀ issuer now,
    lib.verify secret issuer now token = .ok () ↔ p.Current issuer now

/-! ## Signing -/

/-- `TokenKind`. -/
inductive TokenKind
  | access
  | refresh
  deriving DecidableEq, Repr

/-- `token_kind_name`. -/
def tokenKindName : TokenKind → Bytes
  | .access => bytes "access"
  | .refresh => bytes "refresh"

/-- `Claims`; the dates are in seconds. -/
structure Claims where
  userId : Bytes
  username : Bytes
  role : Bytes
  kind : TokenKind
  issuedAt : Int
  expiresAt : Int
  jti : Bytes
  deriving DecidableEq, Repr

/-- `is_expired_at`. -/
def Claims.isExpiredAt (c : Claims) (now : Nat) : Bool := decide (c.expiresAt * second ≤ now)

/-- The exceptions. -/
inductive Failure
  /-- `JwtSignError`. -/
  | sign (what : Bytes)
  /-- `JwtVerifyError`. -/
  | verify (what : Bytes)
  /-- `JwtClaimError`. -/
  | claim (what : Bytes)
  /-- An exception of the library, which is no `JwtError`. -/
  | other (what : Bytes)
  deriving DecidableEq, Repr

/-- An exception is thrown if `bad` holds. -/
def failIf (bad : Bool) (e : Failure) : Except Failure Unit := if bad then .error e else .ok ()

/-- `require_secret`. -/
def requireSecret (secret : Bytes) : Except Failure Unit := do
  failIf (decide (secret.length < 32)) (.sign
    (bytes "JWT secret must be at least 32 bytes (got " ++ decimal secret.length ++ bytes ")"))
  failIf secret.isEmpty (.sign (bytes "JWT secret must not be empty"))

/-- `require_ttl_seconds`. -/
def requireTtlSeconds (ttlSeconds : Int) : Except Failure Unit :=
  failIf (decide (ttlSeconds < 1)) (.sign
    (bytes "JWT ttl_seconds must be >= 1 (got " ++ decimalInt ttlSeconds ++ bytes ")"))

/-- `require_issuer`. -/
def requireIssuer (issuer : Bytes) : Except Failure Unit :=
  failIf issuer.isEmpty (.sign (bytes "JWT issuer must not be empty"))

/-- `SignedToken`. -/
structure SignedToken where
  token : Bytes
  jti : Bytes
  deriving DecidableEq, Repr

/-- The claims of every token. The library keeps whole seconds of a date. -/
def payload (issuer userId jti : Bytes) (ttlSeconds : Int) (now : Nat) (kind : TokenKind) :
    Payload :=
  [(bytes "iss", .string issuer), (bytes "sub", .string userId), (bytes "jti", .string jti),
    (bytes "iat", .number (now / second : Nat)),
    (bytes "exp", .number ((now / second : Nat) + ttlSeconds)),
    (bytes "kind", .string (tokenKindName kind))]

/-- The claims of an access token. -/
def accessPayload (issuer userId username role jti : Bytes) (ttlSeconds : Int) (now : Nat) :
    Payload :=
  payload issuer userId jti ttlSeconds now .access ++
    [(bytes "username", .string username), (bytes "role", .string role)]

section

variable (lib : Library) (secret issuer : Bytes)

/-- The end of `sign_access` and of `sign_refresh`; `caller` names the function. -/
def signed (caller : String) (p : Payload) (jti : Bytes) : Except Failure SignedToken :=
  match lib.sign secret p with
  | .error what => .error (.sign (bytes "jwt-cpp " ++ bytes caller ++ bytes " failed: " ++ what))
  | .ok token => .ok ⟨token, jti⟩

/-- `sign_access` at the time `now`; `jti` is the new UUID. -/
def signAccess (userId username role : Bytes) (ttlSeconds : Int) (jti : Bytes) (now : Nat) :
    Except Failure SignedToken := do
  requireSecret secret
  requireIssuer issuer
  requireTtlSeconds ttlSeconds
  failIf userId.isEmpty (.sign (bytes "sign_access: user_id must not be empty"))
  failIf username.isEmpty (.sign (bytes "sign_access: username must not be empty"))
  failIf role.isEmpty (.sign (bytes "sign_access: role must not be empty"))
  signed lib secret "sign_access"
    (accessPayload issuer userId username role jti ttlSeconds now) jti

/-- `sign_refresh` at the time `now`; `jti` is the new UUID. -/
def signRefresh (userId : Bytes) (ttlSeconds : Int) (jti : Bytes) (now : Nat) :
    Except Failure SignedToken := do
  requireSecret secret
  requireIssuer issuer
  requireTtlSeconds ttlSeconds
  failIf userId.isEmpty (.sign (bytes "sign_refresh: user_id must not be empty"))
  signed lib secret "sign_refresh" (payload issuer userId jti ttlSeconds now .refresh) jti

/-! ## Verification -/

/-- `get_payload_claim(name).as_string()`. -/
def stringClaim (p : Payload) (name : String) : Except Bytes Bytes :=
  match p.get name with
  | none => .error lib.missing
  | some (.string s) => .ok s
  | some _ => .error lib.badCast

/-- `get_payload_claim(name).as_date()`, whose exceptions nobody catches. -/
def dateClaim (p : Payload) (name : String) : Except Failure Int :=
  match p.get name with
  | none => .error (.other lib.missing)
  | some (.number t) => .ok t
  | some _ => .error (.other lib.badCast)

/-- A claim that has to be there, and not empty. -/
def requiredClaim (p : Payload) (name : String) : Except Failure Bytes :=
  match stringClaim lib p name with
  | .error what =>
    .error (.claim (bytes "missing `" ++ bytes name ++ bytes "` claim: " ++ what))
  | .ok s =>
    if s.isEmpty then .error (.claim (bytes "`" ++ bytes name ++ bytes "` claim is empty"))
    else .ok s

/-- The claim `kind`. The exception for an unknown name is caught where the others are. -/
def kindClaim (p : Payload) : Except Failure TokenKind :=
  let missing (what : Bytes) : Except Failure TokenKind :=
    .error (.claim (bytes "missing or non-string `kind` claim: " ++ what))
  match stringClaim lib p "kind" with
  | .error what => missing what
  | .ok name =>
    if name = bytes "access" then .ok .access
    else if name = bytes "refresh" then .ok .refresh
    else missing (bytes "unknown `kind` claim: '" ++ name ++ bytes "'")

/-- The name and the role of an access token. A refresh token has to be without them. -/
def identity (p : Payload) : TokenKind → Except Failure (Bytes × Bytes)
  | .access => do
    let username ← requiredClaim lib p "username"
    let role ← requiredClaim lib p "role"
    failIf (role != bytes "user" && role != bytes "admin") (.claim
      (bytes "`role` claim has unknown value: '" ++ role ++ bytes "'"))
    return (username, role)
  | .refresh => do
    failIf (p.get "username").isSome (.claim (bytes "refresh token must not carry `username`"))
    failIf (p.get "role").isSome (.claim (bytes "refresh token must not carry `role`"))
    return ([], [])

/-- The claim `jti`, which may be missing, or no text. -/
def jtiClaim (p : Payload) : Bytes :=
  match stringClaim lib p "jti" with
  | .ok jti => jti
  | .error _ => []

/-- The exception for a token that the verifier rejects. -/
def Rejection.failure : Rejection → Failure
  | .signature what => .verify (bytes "signature verification failed: " ++ what)
  | .system what => .verify (bytes "token rejected: " ++ what)
  | .other what => .verify (bytes "verification failed: " ++ what)

/-- The claims of a token that was verified. -/
def extractClaims (p : Payload) (expected : TokenKind) : Except Failure Claims := do
  let userId ← requiredClaim lib p "sub"
  let kind ← kindClaim lib p
  failIf (kind != expected) (.verify (bytes "token kind mismatch: expected " ++
    tokenKindName expected ++ bytes ", got " ++ tokenKindName kind))
  let (username, role) ← identity lib p expected
  let issuedAt ← dateClaim lib p "iat"
  let expiresAt ← dateClaim lib p "exp"
  return ⟨userId, username, role, kind, issuedAt, expiresAt, jtiClaim lib p⟩

/-- `verify`. The clock is read twice, by the verifier and at the end. -/
def verify (expected : TokenKind) (verified now : Nat) (token : Bytes) :
    Except Failure Claims := do
  requireSecret secret
  requireIssuer issuer
  failIf token.isEmpty (.verify (bytes "token is empty"))
  let p ← (lib.decode token).mapError fun what => .verify (bytes "malformed token: " ++ what)
  (lib.verify secret issuer verified token).mapError Rejection.failure
  let c ← extractClaims lib p expected
  failIf (c.isExpiredAt now) (.verify (bytes "token has expired"))
  return c

end

/-! ## What is accepted -/

/-- The name and the role that a token of a kind has to carry. -/
def Payload.Identity (p : Payload) (username role : Bytes) : TokenKind → Prop
  | .access => (p.get "username" = some (.string username) ∧ username ≠ []) ∧
    p.get "role" = some (.string role) ∧ (role = bytes "user" ∨ role = bytes "admin")
  | .refresh => p.get "username" = none ∧ p.get "role" = none ∧ username = [] ∧ role = []

/-- The payload carries the claims `c`. -/
structure Payload.Carries (p : Payload) (c : Claims) : Prop where
  userId : p.get "sub" = some (.string c.userId) ∧ c.userId ≠ []
  kind : p.get "kind" = some (.string (tokenKindName c.kind))
  identity : p.Identity c.username c.role c.kind
  issuedAt : p.get "iat" = some (.number c.issuedAt)
  expiresAt : p.get "exp" = some (.number c.expiresAt)
  jti : c.jti = match p.get "jti" with | some (.string jti) => jti | _ => []

variable {lib : Library} {secret issuer : Bytes} {p q : Payload} {name : String} {s : Bytes}

theorem failIf_eq_ok_iff {bad : Bool} {e : Failure} {u : Unit} :
    failIf bad e = .ok u ↔ bad = false := by
  cases bad <;> simp [failIf]

/-- A claim is read as a text if it is one. -/
theorem stringClaim_eq_ok_iff :
    stringClaim lib p name = .ok s ↔ p.get name = some (.string s) := by
  rw [stringClaim]
  split
  case h_1 h => simp [h]
  case h_2 h => simp [h]
  case h_3 c hc h => simpa [h] using hc s

/-- A claim is read as a date if it is a number. -/
theorem dateClaim_eq_ok_iff {t : Int} :
    dateClaim lib p name = .ok t ↔ p.get name = some (.number t) := by
  rw [dateClaim]
  split
  case h_1 h => simp [h]
  case h_2 h => simp [h]
  case h_3 c hc h => simpa [h] using hc t

/-- A claim that must be there is a text, and not empty. -/
theorem requiredClaim_eq_ok_iff :
    requiredClaim lib p name = .ok s ↔ p.get name = some (.string s) ∧ s ≠ [] := by
  rw [requiredClaim, ← @stringClaim_eq_ok_iff lib]
  cases stringClaim lib p name with
  | error what => simp
  | ok t =>
    by_cases ht : t = []
    · simp_all
    · simp only [List.isEmpty_iff, ht, if_false, Except.ok.injEq]
      exact ⟨fun h => ⟨h, h ▸ ht⟩, And.left⟩

/-- The kind is one of the two names. -/
theorem kindClaim_eq_ok_iff {k : TokenKind} :
    kindClaim lib p = .ok k ↔ p.get "kind" = some (.string (tokenKindName k)) := by
  rw [kindClaim, ← @stringClaim_eq_ok_iff lib]
  cases stringClaim lib p "kind" with
  | error what => simp
  | ok t =>
    have hne : bytes "access" ≠ bytes "refresh" := by decide
    cases k <;> simp only [tokenKindName] <;> split_ifs <;> simp_all

/-- A missing `jti` is read as empty. -/
theorem jtiClaim_eq :
    jtiClaim lib p = match p.get "jti" with | some (.string jti) => jti | _ => [] := by
  rw [jtiClaim, stringClaim]
  rcases p.get "jti" with _ | _ | _ | _ <;> rfl

/-- An access token has a name and a role, a refresh token neither. -/
theorem identity_eq_ok_iff {k : TokenKind} {username role : Bytes} :
    identity lib p k = .ok (username, role) ↔ p.Identity username role k := by
  cases k with
  | access =>
    simp only [identity, Payload.Identity, bind_eq_ok, requiredClaim_eq_ok_iff, failIf_eq_ok_iff]
    constructor
    · rintro ⟨u, hu, r, hr, -, hrole, h⟩
      cases h
      refine ⟨hu, hr.1, ?_⟩
      simpa [Classical.or_iff_not_imp_left] using hrole
    · rintro ⟨hu, hr, hrole⟩
      refine ⟨username, hu, role, ⟨hr, ?_⟩, (), ?_, rfl⟩
      · rintro rfl
        revert hrole
        decide
      · simpa [Classical.or_iff_not_imp_left] using hrole
  | refresh =>
    simp only [identity, Payload.Identity, bind_eq_ok, failIf_eq_ok_iff, Option.isSome_eq_false_iff,
      Option.isNone_iff_eq_none]
    constructor
    · rintro ⟨-, hu, -, hr, h⟩
      cases h
      exact ⟨hu, hr, rfl, rfl⟩
    · rintro ⟨hu, hr, rfl, rfl⟩
      exact ⟨(), hu, (), hr, rfl⟩

/-- What is read of a token is what it carries. -/
theorem extractClaims_eq_ok_iff {k : TokenKind} {c : Claims} :
    extractClaims lib p k = .ok c ↔ c.kind = k ∧ p.Carries c := by
  simp only [extractClaims, bind_eq_ok, requiredClaim_eq_ok_iff, kindClaim_eq_ok_iff,
    failIf_eq_ok_iff, dateClaim_eq_ok_iff, Prod.exists, identity_eq_ok_iff, bne_eq_false_iff_eq]
  constructor
  · rintro ⟨u, hu, k', hk, -, rfl, name, role, hid, iat, hiat, exp, hexp, h⟩
    cases h
    exact ⟨rfl, hu, hk, hid, hiat, hexp, jtiClaim_eq⟩
  · rintro ⟨rfl, h⟩
    refine ⟨c.userId, h.userId, c.kind, h.kind, (), rfl, c.username, c.role, h.identity,
      c.issuedAt, h.issuedAt, c.expiresAt, h.expiresAt, ?_⟩
    rw [jtiClaim_eq, ← h.jti]
    rfl

/-- The settings that `require_secret` and `require_issuer` let through. -/
theorem require_eq_ok_iff {u v : Unit} : requireSecret secret = .ok u ∧ requireIssuer issuer = .ok v
    ↔ 32 ≤ secret.length ∧ issuer ≠ [] := by
  simp only [requireSecret, requireIssuer, bind_eq_ok, failIf_eq_ok_iff, decide_eq_false_iff_not,
    Nat.not_lt, List.isEmpty_eq_false_iff]
  constructor
  · rintro ⟨⟨-, hlen, -⟩, hne⟩
    exact ⟨hlen, hne⟩
  · rintro ⟨hlen, hne⟩
    refine ⟨⟨(), hlen, ?_⟩, hne⟩
    rintro rfl
    simp at hlen

theorem mapError_eq_ok_iff {ε δ α : Type} {x : Except ε α} {f : ε → δ} {a : α} :
    x.mapError f = .ok a ↔ x = .ok a := by
  cases x <;> simp [Except.mapError]

/-- What `verify` accepts: a token of the library's, with the claims that are returned. -/
theorem verify_eq_ok_iff {k : TokenKind} {verified now : Nat} {token : Bytes} {c : Claims} :
    verify lib secret issuer k verified now token = .ok c ↔
      (32 ≤ secret.length ∧ issuer ≠ []) ∧ token ≠ [] ∧
        lib.verify secret issuer verified token = .ok () ∧
          (∃ p, lib.decode token = .ok p ∧ p.Carries c) ∧ c.kind = k ∧
            (now : Int) < c.expiresAt * second := by
  simp only [verify, bind_eq_ok, mapError_eq_ok_iff, extractClaims_eq_ok_iff, failIf_eq_ok_iff,
    List.isEmpty_eq_false_iff, Claims.isExpiredAt, decide_eq_false_iff_not, Int.not_le]
  rw [← require_eq_ok_iff (u := ()) (v := ())]
  constructor
  · rintro ⟨_, hsecret, _, hissuer, _, htok, p, hp, _, hver, c', ⟨hk, hc⟩, _, hexp, h⟩
    cases h
    exact ⟨⟨hsecret, hissuer⟩, htok, hver, ⟨p, hp, hc⟩, hk, hexp⟩
  · rintro ⟨⟨hsecret, hissuer⟩, htok, hver, ⟨p, hp, hc⟩, hk, hexp⟩
    exact ⟨(), hsecret, (), hissuer, (), htok, p, hp, (), hver, c, ⟨hk, hc⟩, (), hexp, rfl⟩

/-! ## Tokens that were signed -/

/-- A token is signed if the library signs its claims. -/
theorem signed_eq_ok_iff {caller : String} {jti : Bytes} {st : SignedToken} :
    signed lib secret caller p jti = .ok st ↔ lib.sign secret p = .ok st.token ∧ st.jti = jti := by
  rw [signed]
  cases lib.sign secret p with
  | error what => simp
  | ok token =>
    obtain ⟨t, j⟩ := st
    simp only [Except.ok.injEq, SignedToken.mk.injEq]
    exact and_congr_right fun _ => eq_comm

/-- Only what `get` finds matters. -/
theorem Payload.Carries.congr {c : Claims} (h : p.Carries c)
    (hget : ∀ name, q.get name = p.get name) : q.Carries c := by
  obtain ⟨hu, hk, hid, hiat, hexp, hjti⟩ := h
  refine ⟨by rwa [hget], by rwa [hget], ?_, by rwa [hget], by rwa [hget], by rwa [hget]⟩
  revert hid
  cases c.kind <;> simp only [Payload.Identity, hget, imp_self]

section

variable {userId username role jti : Bytes} {ttl : Int} {now : Nat} {c : Claims} {st : SignedToken}
  {kind : TokenKind}

/-- The claims that are read from an access token. -/
def accessClaims (userId username role jti : Bytes) (ttl : Int) (now : Nat) : Claims where
  userId := userId
  username := username
  role := role
  kind := .access
  issuedAt := (now / second : Nat)
  expiresAt := (now / second : Nat) + ttl
  jti := jti

/-- The claims that are read from a refresh token. -/
def refreshClaims (userId jti : Bytes) (ttl : Int) (now : Nat) : Claims where
  userId := userId
  username := []
  role := []
  kind := .refresh
  issuedAt := (now / second : Nat)
  expiresAt := (now / second : Nat) + ttl
  jti := jti

/-- The kinds have different names. -/
theorem tokenKindName_injective : Function.Injective tokenKindName := by
  intro k l h
  cases k <;> cases l
  case access.access => rfl
  case refresh.refresh => rfl
  all_goals exact absurd h (by decide)

/-- An access token carries what it was signed for. -/
theorem carries_accessPayload (hu : userId ≠ []) (hn : username ≠ []) :
    (accessPayload issuer userId username role jti ttl now).Carries c ↔
      (role = bytes "user" ∨ role = bytes "admin") ∧
        c = accessClaims userId username role jti ttl now := by
  constructor
  · rintro ⟨⟨hsub, -⟩, hkind, hid, hiat, hexp, hjti⟩
    obtain ⟨u, n, r, k, i, e, j⟩ := c
    obtain rfl : TokenKind.access = k :=
      tokenKindName_injective (Claim.string.inj (Option.some.inj hkind))
    obtain ⟨⟨hname, -⟩, hr, hrole⟩ := hid
    obtain rfl : userId = u := Claim.string.inj (Option.some.inj hsub)
    obtain rfl : username = n := Claim.string.inj (Option.some.inj hname)
    obtain rfl : role = r := Claim.string.inj (Option.some.inj hr)
    obtain rfl := Claim.number.inj (Option.some.inj hiat)
    obtain rfl := Claim.number.inj (Option.some.inj hexp)
    obtain rfl : j = jti := hjti
    exact ⟨hrole, rfl⟩
  · rintro ⟨hrole, rfl⟩
    exact ⟨⟨rfl, hu⟩, rfl, ⟨⟨rfl, hn⟩, rfl, hrole⟩, rfl, rfl, rfl⟩

/-- So does a refresh token. -/
theorem carries_refreshPayload (hu : userId ≠ []) :
    (payload issuer userId jti ttl now .refresh).Carries c ↔
      c = refreshClaims userId jti ttl now := by
  constructor
  · rintro ⟨⟨hsub, -⟩, hkind, hid, hiat, hexp, hjti⟩
    obtain ⟨u, n, r, k, i, e, j⟩ := c
    obtain rfl : TokenKind.refresh = k :=
      tokenKindName_injective (Claim.string.inj (Option.some.inj hkind))
    obtain ⟨-, -, rfl, rfl⟩ := hid
    obtain rfl : userId = u := Claim.string.inj (Option.some.inj hsub)
    obtain rfl := Claim.number.inj (Option.some.inj hiat)
    obtain rfl := Claim.number.inj (Option.some.inj hexp)
    obtain rfl : j = jti := hjti
    rfl
  · rintro rfl
    exact ⟨⟨rfl, hu⟩, rfl, ⟨rfl, rfl, rfl, rfl⟩, rfl, rfl, rfl⟩

/-- The checks of a verifier on the issuer and the dates that were signed. -/
theorem current_iff {issuer' : Bytes} {t : Nat} (hiss : p.get "iss" = some (.string issuer))
    (hexp : p.get "exp" = some (.number ((now / second : Nat) + ttl)))
    (hiat : p.get "iat" = some (.number (now / second : Nat))) (hnbf : p.get "nbf" = none) :
    p.Current issuer' t ↔ issuer' = issuer ∧ now / second * second ≤ t ∧
      (t : Int) ≤ ((now / second : Nat) + ttl) * second := by
  rw [Payload.Current, hiss, hexp, hiat, hnbf, Option.some.injEq, Claim.string.injEq]
  simp only [DateCheck, and_true]
  rw [and_comm (a := (t : Int) ≤ _), eq_comm]
  norm_cast

/-- When an access token is signed. -/
theorem signAccess_eq_ok_iff :
    signAccess lib secret issuer userId username role ttl jti now = .ok st ↔
      (32 ≤ secret.length ∧ issuer ≠ []) ∧ 1 ≤ ttl ∧ userId ≠ [] ∧ username ≠ [] ∧ role ≠ [] ∧
        lib.sign secret (accessPayload issuer userId username role jti ttl now) = .ok st.token ∧
          st.jti = jti := by
  simp only [signAccess, requireTtlSeconds, bind_eq_ok, failIf_eq_ok_iff, signed_eq_ok_iff,
    List.isEmpty_eq_false_iff, decide_eq_false_iff_not, Int.not_lt]
  rw [← require_eq_ok_iff (u := ()) (v := ())]
  constructor
  · rintro ⟨_, hsecret, _, hissuer, _, httl, _, hu, _, hn, _, hr, hsign⟩
    exact ⟨⟨hsecret, hissuer⟩, httl, hu, hn, hr, hsign⟩
  · rintro ⟨⟨hsecret, hissuer⟩, httl, hu, hn, hr, hsign⟩
    exact ⟨(), hsecret, (), hissuer, (), httl, (), hu, (), hn, (), hr, hsign⟩

/-- When a refresh token is signed. -/
theorem signRefresh_eq_ok_iff :
    signRefresh lib secret issuer userId ttl jti now = .ok st ↔
      (32 ≤ secret.length ∧ issuer ≠ []) ∧ 1 ≤ ttl ∧ userId ≠ [] ∧
        lib.sign secret (payload issuer userId jti ttl now .refresh) = .ok st.token ∧
          st.jti = jti := by
  simp only [signRefresh, requireTtlSeconds, bind_eq_ok, failIf_eq_ok_iff, signed_eq_ok_iff,
    List.isEmpty_eq_false_iff, decide_eq_false_iff_not, Int.not_lt]
  rw [← require_eq_ok_iff (u := ()) (v := ())]
  constructor
  · rintro ⟨_, hsecret, _, hissuer, _, httl, _, hu, hsign⟩
    exact ⟨⟨hsecret, hissuer⟩, httl, hu, hsign⟩
  · rintro ⟨⟨hsecret, hissuer⟩, httl, hu, hsign⟩
    exact ⟨(), hsecret, (), hissuer, (), httl, (), hu, hsign⟩

/-- What `verify` accepts of the tokens that were signed. -/
theorem verify_signed (hlib : lib.Lawful) {token issuer' : Bytes}
    (hsign : lib.sign secret p = .ok token) {verified t : Nat} :
    verify lib secret issuer' kind verified t token = .ok c ↔
      (32 ≤ secret.length ∧ issuer' ≠ []) ∧ p.Current issuer' verified ∧ p.Carries c ∧
        c.kind = kind ∧ (t : Int) < c.expiresAt * second := by
  obtain ⟨q, hq, hget⟩ := hlib.decode_sign hsign
  rw [verify_eq_ok_iff, hlib.verify_sign hsign]
  have hcarries : (∃ r, lib.decode token = .ok r ∧ r.Carries c) ↔ p.Carries c := by
    constructor
    · rintro ⟨r, hr, hc⟩
      obtain rfl : q = r := Except.ok.inj (hq.symm.trans hr)
      exact hc.congr fun name => (hget name).symm
    · exact fun hc => ⟨q, hq, hc.congr hget⟩
  rw [hcarries]
  simp only [hlib.ne_nil hsign, ne_eq, not_false_eq_true, true_and]

/-- A signed access token is accepted as an access token of its issuer, from the second of the
    signing until its expiry, if its role is one of the two that there are. The claims are those
    that were signed. -/
theorem verify_signAccess (hlib : lib.Lawful)
    (hsign : signAccess lib secret issuer userId username role ttl jti now = .ok st)
    (kind : TokenKind) (issuer' : Bytes) (verified t : Nat) (c : Claims) :
    verify lib secret issuer' kind verified t st.token = .ok c ↔
      kind = .access ∧ issuer' = issuer ∧ (role = bytes "user" ∨ role = bytes "admin") ∧
        now / second * second ≤ verified ∧
          (verified : Int) ≤ ((now / second : Nat) + ttl) * second ∧
            (t : Int) < ((now / second : Nat) + ttl) * second ∧
              c = accessClaims userId username role jti ttl now := by
  obtain ⟨⟨hsecret, hissuer⟩, -, hu, hn, -, hsign, -⟩ := signAccess_eq_ok_iff.1 hsign
  have hcur : (accessPayload issuer userId username role jti ttl now).Current issuer' verified ↔
      issuer' = issuer ∧ now / second * second ≤ verified ∧
        (verified : Int) ≤ ((now / second : Nat) + ttl) * second :=
    current_iff rfl rfl rfl rfl
  rw [verify_signed hlib hsign, hcur, carries_accessPayload hu hn]
  constructor
  · rintro ⟨-, ⟨hi, hv⟩, ⟨hrole, rfl⟩, rfl, ht⟩
    exact ⟨rfl, hi, hrole, hv.1, hv.2, ht, rfl⟩
  · rintro ⟨rfl, rfl, hrole, hv₁, hv₂, ht, rfl⟩
    exact ⟨⟨hsecret, hissuer⟩, ⟨rfl, hv₁, hv₂⟩, ⟨hrole, rfl⟩, rfl, ht⟩

/-- A signed refresh token is accepted as a refresh token of its issuer, from the second of the
    signing until its expiry, and gives no name and no role. -/
theorem verify_signRefresh (hlib : lib.Lawful)
    (hsign : signRefresh lib secret issuer userId ttl jti now = .ok st)
    (kind : TokenKind) (issuer' : Bytes) (verified t : Nat) (c : Claims) :
    verify lib secret issuer' kind verified t st.token = .ok c ↔
      kind = .refresh ∧ issuer' = issuer ∧ now / second * second ≤ verified ∧
        (verified : Int) ≤ ((now / second : Nat) + ttl) * second ∧
          (t : Int) < ((now / second : Nat) + ttl) * second ∧
            c = refreshClaims userId jti ttl now := by
  obtain ⟨⟨hsecret, hissuer⟩, -, hu, hsign, -⟩ := signRefresh_eq_ok_iff.1 hsign
  have hcur : (payload issuer userId jti ttl now .refresh).Current issuer' verified ↔
      issuer' = issuer ∧ now / second * second ≤ verified ∧
        (verified : Int) ≤ ((now / second : Nat) + ttl) * second :=
    current_iff rfl rfl rfl rfl
  rw [verify_signed hlib hsign, hcur, carries_refreshPayload hu]
  constructor
  · rintro ⟨-, ⟨hi, hv⟩, rfl, rfl, ht⟩
    exact ⟨rfl, hi, hv.1, hv.2, ht, rfl⟩
  · rintro ⟨rfl, rfl, hv₁, hv₂, ht, rfl⟩
    exact ⟨⟨hsecret, hissuer⟩, ⟨rfl, hv₁, hv₂⟩, rfl, rfl, ht⟩

end

/-! ## Two tokens -/

/-- A library that has signed the tokens of a table, and nothing else. -/
def Library.table (secret : Bytes) (l : List (Payload × Bytes)) : Library where
  sign s p := match l.find? fun x => s == secret && x.1 == p with
    | some x => .ok x.2
    | none => .error []
  decode token := match l.find? fun x => x.2 == token with
    | some x => .ok x.1
    | none => .error (bytes "invalid token supplied")
  verify s issuer now token := match l.find? fun x => x.2 == token with
    | some x =>
      if s ≠ secret then .error (.signature (bytes "failed to verify signature"))
      else if x.1.Current issuer now then .ok ()
      else .error (.system (bytes "token verification failed"))
    | none => .error (.other [])
  missing := bytes "claim not found"
  badCast := bytes "std::bad_cast"

/-- A table of different tokens is a library. -/
theorem lawful_table {l : List (Payload × Bytes)} (hne : ∀ x ∈ l, x.2 ≠ [])
    (hnodup : (l.map Prod.snd).Nodup) : (Library.table secret l).Lawful := by
  have hfind : ∀ {s p token}, (Library.table secret l).sign s p = .ok token →
      s = secret ∧ (p, token) ∈ l ∧ l.find? (fun x => x.2 == token) = some (p, token) := by
    intro s p token h
    simp only [Library.table] at h
    split at h
    case h_2 => cases h
    case h_1 x hx =>
      cases h
      have hmem := List.mem_of_find?_eq_some hx
      obtain ⟨rfl, rfl⟩ : s = secret ∧ x.1 = p := by simpa using List.find?_some hx
      refine ⟨rfl, hmem, ?_⟩
      cases hy : l.find? fun y => y.2 == x.2 with
      | none => exact absurd (List.find?_eq_none.1 hy x hmem) (by simp)
      | some y =>
        have hyx : y.2 = x.2 := by simpa using List.find?_some hy
        exact congrArg some
          (List.inj_on_of_nodup_map hnodup (List.mem_of_find?_eq_some hy) hmem hyx)
  constructor
  · intro s p token h
    exact hne _ (hfind h).2.1
  · intro s p token h
    exact ⟨p, by simp [Library.table, (hfind h).2.2], fun _ => rfl⟩
  · intro s p token h issuer now
    obtain ⟨rfl, -, hx⟩ := hfind h
    simp [Library.table, hx]

/-- A secret of 32 bytes. -/
def secretText : Bytes := bytes "0123456789abcdef0123456789abcdef"

/-- The `jti` of the tokens below. -/
def jtiText : TokenKind → Bytes
  | .access => bytes "550e8400-e29b-41d4-a716-446655440000"
  | .refresh => bytes "550e8400-e29b-41d4-a716-446655440001"

/-- The access token of an admin, signed with `secretText`, and the refresh token beside it. -/
def tokenText : TokenKind → Bytes
  | .access =>
    bytes "eyJhbGciOiJIUzI1NiIsInR5cCI6IkpXVCJ9.eyJleHAiOjE3MDAwMDcyMDAsImlhdCI6MTcwMDAwMDAwMCw" ++
    bytes "iaXNzIjoibGl0ZWNvZGUiLCJqdGkiOiI1NTBlODQwMC1lMjliLTQxZDQtYTcxNi00NDY2NTU0NDAwMDAiLCJ" ++
    bytes "raW5kIjoiYWNjZXNzIiwicm9sZSI6ImFkbWluIiwic3ViIjoiMSIsInVzZXJuYW1lIjoicm9vdCJ9.wXjrXX" ++
    bytes "qRrzgA3WLXVVZi84yfAOetDncDa51_rFeZGP4"
  | .refresh =>
    bytes "eyJhbGciOiJIUzI1NiIsInR5cCI6IkpXVCJ9.eyJleHAiOjE3MDA2MDQ4MDAsImlhdCI6MTcwMDAwMDAwMCw" ++
    bytes "iaXNzIjoibGl0ZWNvZGUiLCJqdGkiOiI1NTBlODQwMC1lMjliLTQxZDQtYTcxNi00NDY2NTU0NDAwMDEiLCJ" ++
    bytes "raW5kIjoicmVmcmVzaCIsInN1YiI6IjEifQ.LMpdKX6VkM87kEJEu9BvQPQ0GYHbJmC7axPcwHoTU2E"

/-- The time of the signing. -/
def signedAt : Nat := 1700000000 * second

/-- The tokens with their claims. -/
def rootTokens : List (Payload × Bytes) :=
  [(accessPayload (bytes "litecode") (bytes "1") (bytes "root") (bytes "admin")
      (jtiText .access) 7200 signedAt, tokenText .access),
    (payload (bytes "litecode") (bytes "1") (jtiText .refresh) 604800 signedAt .refresh,
      tokenText .refresh)]

/-- The library, as far as it is used for these tokens. -/
def rootLibrary : Library := Library.table secretText rootTokens

theorem lawful_rootLibrary : rootLibrary.Lawful :=
  lawful_table (by decide +kernel) (by decide +kernel)

/-- The tokens of a pair are accepted as what they were signed for, until they expire, and never
    one in place of the other. -/
theorem verify_pair {userId username role jti₁ jti₂ : Bytes} {ttl₁ ttl₂ : Int} {t₁ t₂ : Nat}
    {access refresh : SignedToken} (hlib : lib.Lawful)
    (haccess : signAccess lib secret issuer userId username role ttl₁ jti₁ t₁ = .ok access)
    (hrefresh : signRefresh lib secret issuer userId ttl₂ jti₂ t₂ = .ok refresh)
    (verified t : Nat) (c : Claims) :
    (verify lib secret issuer .access verified t access.token = .ok c ↔
      (role = bytes "user" ∨ role = bytes "admin") ∧ t₁ / second * second ≤ verified ∧
        (verified : Int) ≤ ((t₁ / second : Nat) + ttl₁) * second ∧
          (t : Int) < ((t₁ / second : Nat) + ttl₁) * second ∧
            c = accessClaims userId username role jti₁ ttl₁ t₁) ∧
    (verify lib secret issuer .refresh verified t refresh.token = .ok c ↔
      t₂ / second * second ≤ verified ∧
        (verified : Int) ≤ ((t₂ / second : Nat) + ttl₂) * second ∧
          (t : Int) < ((t₂ / second : Nat) + ttl₂) * second ∧
            c = refreshClaims userId jti₂ ttl₂ t₂) ∧
    verify lib secret issuer .refresh verified t access.token ≠ .ok c ∧
    verify lib secret issuer .access verified t refresh.token ≠ .ok c := by
  have ha := verify_signAccess hlib haccess
  have hr := verify_signRefresh hlib hrefresh
  refine ⟨?_, ?_, ?_, ?_⟩
  · simpa using ha .access issuer verified t c
  · simpa using hr .refresh issuer verified t c
  · simpa using mt (ha .refresh issuer verified t c).1 (by simp)
  · simpa using mt (hr .access issuer verified t c).1 (by simp)

/-- The tokens of the admin in the last second before the access token expires, and after it. -/
theorem verify_pair_root :
    verify rootLibrary secretText (bytes "litecode") .access (signedAt + 7199 * second)
        (signedAt + 7199 * second) (tokenText .access) =
      .ok (accessClaims (bytes "1") (bytes "root") (bytes "admin") (jtiText .access) 7200
        signedAt) ∧
    verify rootLibrary secretText (bytes "litecode") .access (signedAt + 7200 * second)
        (signedAt + 7200 * second) (tokenText .access) ≠
      .ok (accessClaims (bytes "1") (bytes "root") (bytes "admin") (jtiText .access) 7200
        signedAt) ∧
    verify rootLibrary secretText (bytes "litecode") .refresh (signedAt + 7200 * second)
        (signedAt + 7200 * second) (tokenText .refresh) =
      .ok (refreshClaims (bytes "1") (jtiText .refresh) 604800 signedAt) := by
  have haccess : signAccess rootLibrary secretText (bytes "litecode") (bytes "1") (bytes "root")
      (bytes "admin") 7200 (jtiText .access) signedAt =
        .ok ⟨tokenText .access, jtiText .access⟩ := by decide +kernel
  have hrefresh : signRefresh rootLibrary secretText (bytes "litecode") (bytes "1") 604800
      (jtiText .refresh) signedAt = .ok ⟨tokenText .refresh, jtiText .refresh⟩ := by
    decide +kernel
  refine ⟨?_, ?_, ?_⟩
  · refine (verify_pair lawful_rootLibrary haccess hrefresh _ _ _).1.2 ?_
    decide +kernel
  · refine mt (verify_pair lawful_rootLibrary haccess hrefresh _ _ _).1.1 ?_
    decide +kernel
  · refine (verify_pair lawful_rootLibrary haccess hrefresh _ _ _).2.1.2 ?_
    decide +kernel

end LiteCode.JwtUtils
