import LiteCode.Lib.Bytes
import LiteCode.Lib.ListIndex
import LiteCode.Lib.System
import Mathlib.Data.List.Nodup

/-!
# Refresh tokens

`src/auth/refresh_token.h`: the store of revoked tokens, and the calls that issue, rotate and
revoke refresh tokens, as threads over it. One action is one atomic step of a call: an operation
of the store, a reading of the clock, the signing of a pair. Time passes between any two steps.

Times are in nanoseconds since the epoch. The steady clock of the store runs with the system
clock, at a constant `offset` from it.

A token is its claims. It is correctly signed if it was signed before (`State.signed`), and
`verify` accepts exactly the correctly signed refresh tokens that have not expired. The expiry
of a token is in whole seconds, and its `jti` is a fresh UUID.
-/

namespace LiteCode.RefreshToken

/-- A second, in nanoseconds. -/
def second : Nat := 1000000000

/-! ## The store -/

/-- `InMemoryRefreshTokenStore`: the blacklist, with one expiry for each `jti`. -/
structure Store where
  entries : List (Bytes × Int)
  nodup : (entries.map Prod.fst).Nodup
  deriving DecidableEq

namespace Store

/-- The entries that satisfy `p`. -/
def filter (s : Store) (p : Bytes × Int → Bool) : Store where
  entries := s.entries.filter p
  nodup := s.nodup.sublist (List.filter_sublist.map _)

/-- `blacklist_.erase`. -/
def erase (s : Store) (jti : Bytes) : Store := s.filter fun x => x.1 != jti

/-- `blacklist_.find`. -/
def find (s : Store) (jti : Bytes) : Option Int :=
  (s.entries.find? fun x => x.1 == jti).map Prod.snd

/-- `blacklist_.emplace`: an entry that is there stays as it is. -/
def emplace (s : Store) (jti : Bytes) (expiry : Int) : Store :=
  if h : jti ∈ s.entries.map Prod.fst then s
  else
    { entries := s.entries ++ [(jti, expiry)]
      nodup := by
        rw [List.map_append]
        exact List.Nodup.append s.nodup (List.nodup_singleton _) (by simpa using h) }

/-- `purge_expired`, at the time `now` of the steady clock. -/
def purgeExpired (s : Store) (now : Int) : Store := s.filter fun x => decide (now < x.2)

/-- `victim` is an entry that expires soonest. -/
def Soonest (s : Store) (victim : Bytes) : Prop :=
  ∃ x ∈ s.entries, x.1 = victim ∧ ∀ y ∈ s.entries, x.2 ≤ y.2

instance (s : Store) (victim : Bytes) : Decidable (s.Soonest victim) :=
  inferInstanceAs (Decidable (∃ x ∈ s.entries, _))

/-- There is an entry for `jti`, and it has not ended. -/
def Holds (s : Store) (now : Int) (jti : Bytes) : Prop := ∃ x ∈ s.entries, x.1 = jti ∧ now < x.2

instance (s : Store) (now : Int) (jti : Bytes) : Decidable (s.Holds now jti) :=
  inferInstanceAs (Decidable (∃ x ∈ s.entries, _))

/-- The store is at its cap. -/
def AtCap (maxEntries : Nat) (s : Store) : Prop := 0 < maxEntries ∧ maxEntries ≤ s.entries.length

instance (maxEntries : Nat) (s : Store) : Decidable (s.AtCap maxEntries) :=
  inferInstanceAs (Decidable (_ ∧ _))

/-- `revoke`, which evicts `victim` if the store is at its cap. -/
def revoke (maxEntries : Nat) (s : Store) (now : Int) (victim jti : Bytes) (ttl : Int) : Store :=
  if jti.isEmpty then s
  else if ttl ≤ 0 then s
  else
    let s := s.purgeExpired now
    -- the source evicts before it knows whether `jti` is new
    let s := if s.AtCap maxEntries then s.erase victim else s
    s.emplace jti (now + ttl * second)

/-- `is_revoked`, and the store after it. -/
def isRevoked (s : Store) (now : Int) (jti : Bytes) : Bool × Store :=
  if jti.isEmpty then (false, s)
  else
    match s.find jti with
    | none => (false, s)
    | some expiry => if expiry ≤ now then (false, s.erase jti) else (true, s)

end Store

/-! ## The calls -/

/-- `Claims`: what a refresh token carries. -/
structure Claims where
  userId : Bytes
  jti : Bytes
  expiresAt : Nat
  deriving DecidableEq, Repr

/-- The exceptions. -/
inductive Failure
  /-- `RefreshTokenError`. -/
  | error (what : Bytes)
  /-- `RefreshTokenInvalidError`. -/
  | invalid (what : Bytes)
  /-- `RefreshTokenRevokedError`. -/
  | revoked (what : Bytes)
  /-- `JwtSignError`. -/
  | sign (what : Bytes)
  deriving DecidableEq, Repr

/-- The arguments of `issue_token_pair` and of `rotate_token_pair` besides the token. -/
structure PairArgs where
  username : Bytes
  role : Bytes
  accessTtlSeconds : Int
  refreshTtlSeconds : Int
  deriving DecidableEq, Repr

/-- The `exp` claim of a token signed at `now`: `set_expires_at` keeps whole seconds. -/
def expiry (now : Nat) (ttlSeconds : Int) : Nat := now / second * second + ttlSeconds.toNat * second

/-- `issue_token_pair` at the time `now`: the refresh token of the pair. `jti` is its UUID, or
    the text of the exception if the signing fails. -/
def issueTokenPair (now : Nat) (userId : Bytes) (args : PairArgs) (jti : Except Bytes Bytes) :
    Except Failure Claims :=
  if args.accessTtlSeconds < 1 then
    .error (.error (bytes "issue_token_pair: access_ttl_seconds must be >= 1"))
  else if args.refreshTtlSeconds < args.accessTtlSeconds then
    .error (.error (bytes "issue_token_pair: refresh_ttl_seconds must be >= access_ttl_seconds"))
  else if userId.isEmpty then .error (.sign (bytes "sign_access: user_id must not be empty"))
  else if args.username.isEmpty then
    .error (.sign (bytes "sign_access: username must not be empty"))
  else if args.role.isEmpty then .error (.sign (bytes "sign_access: role must not be empty"))
  else
    match jti with
    | .error what => .error (.sign what)
    | .ok jti => .ok ⟨userId, jti, expiry now args.refreshTtlSeconds⟩

/-- The points of a `rotate_token_pair` call. -/
inductive Rotate
  /-- The token is verified. -/
  | verified (c : Claims)
  /-- The token is not on the blacklist. -/
  | unrevoked (c : Claims)
  /-- The clock was read at the time `t`. -/
  | timed (c : Claims) (t : Nat)
  /-- The token is revoked. -/
  | signing (c : Claims)
  /-- The pair was returned, with the refresh token `new`. -/
  | rotated (c new : Claims)
  | failed (e : Failure)
  deriving DecidableEq, Repr

/-- `RevokeOutcome`. -/
structure RevokeOutcome where
  revoked : Bool
  parsed : Bool
  userMatched : Bool
  jti : Bytes
  reason : Bytes
  deriving DecidableEq, Repr

/-- The points of a `revoke_refresh_token` call. -/
inductive Revoke
  /-- The token is verified, and is of the expected user. -/
  | matched (c : Claims)
  /-- The clock was read at the time `t`. -/
  | timed (c : Claims) (t : Nat)
  /-- The call returned, without a revocation. -/
  | ignored (out : RevokeOutcome)
  /-- The call returned, and revoked the token. -/
  | revoked (c : Claims) (out : RevokeOutcome)
  deriving DecidableEq, Repr

/-- A call in progress, or returned. -/
inductive Call
  | rotate (args : PairArgs) (pc : Rotate)
  | revoke (maxTtlSeconds : Int) (pc : Revoke)
  deriving DecidableEq, Repr

/-- The subsystem. -/
structure State where
  /-- The system clock. -/
  now : Nat
  store : Store
  /-- The refresh tokens signed so far. -/
  signed : List Claims
  calls : List Call
  deriving DecidableEq

/-- The cap of the store, and the steady clock relative to the system clock. -/
structure Setting where
  maxEntries : Nat
  offset : Int

/-- The steady clock. -/
def Setting.steady (p : Setting) (s : State) : Int := s.now + p.offset

/-- `verify`, for a refresh token. -/
def verify (s : State) (c : Claims) : Prop := c ∈ s.signed ∧ s.now < c.expiresAt

instance (s : State) (c : Claims) : Decidable (verify s c) := inferInstanceAs (Decidable (_ ∧ _))

/-- The remaining lifetime in whole seconds, at least 0. -/
def remainingSeconds (c : Claims) (t : Nat) : Int :=
  max 0 (Int.tdiv ((c.expiresAt : Int) - t) second)

/-- The lifetime that `revoke_refresh_token` gives to an entry. -/
def cappedSeconds (maxTtlSeconds : Int) (c : Claims) (t : Nat) : Int :=
  if 0 < maxTtlSeconds ∧ maxTtlSeconds < remainingSeconds c t then maxTtlSeconds
  else remainingSeconds c t

/-- `rotate_token_pair` up to the verification of the token. `tok` is `none` for an empty text,
    and `why` the text of the exception if the verification fails. -/
def rotateTokenPair (s : State) (tok : Option Claims) (args : PairArgs) (why : Bytes) : Rotate :=
  if args.accessTtlSeconds < 1 then
    .failed (.error (bytes "rotate_token_pair: access_ttl_seconds must be >= 1"))
  else if args.refreshTtlSeconds < args.accessTtlSeconds then
    .failed (.error
      (bytes "rotate_token_pair: refresh_ttl_seconds must be >= access_ttl_seconds"))
  else
    match tok with
    | none => .failed (.invalid (bytes "refresh token is empty"))
    | some c =>
      if args.username.isEmpty then
        .failed (.error (bytes "rotate_token_pair: username must not be empty " ++
          bytes "(the refresh token doesn't carry it; look up the user row)"))
      else if args.role.isEmpty then
        .failed (.error (bytes "rotate_token_pair: role must not be empty " ++
          bytes "(the refresh token doesn't carry it; look up the user row)"))
      else if verify s c then .verified c
      else .failed (.invalid (bytes "refresh token verification failed: " ++ why))

/-- `revoke_refresh_token` up to the check of the user. -/
def revokeRefreshToken (s : State) (tok : Option Claims) (expectedUserId why : Bytes) : Revoke :=
  match tok with
  | none => .ignored ⟨false, false, false, [], bytes "refresh token is empty"⟩
  | some c =>
    if verify s c then
      if !expectedUserId.isEmpty && c.userId != expectedUserId then
        .ignored ⟨false, true, false, c.jti, bytes "user_id mismatch (jti=" ++ c.jti ++
          bytes " expected=" ++ expectedUserId ++ bytes " got=" ++ c.userId ++ bytes ")"⟩
      else .matched c
    else .ignored ⟨false, false, false, [], bytes "token did not parse: " ++ why⟩

/-- The result of a `revoke_refresh_token` that revoked. -/
def revokedOutcome (c : Claims) : RevokeOutcome :=
  ⟨true, true, true, c.jti, bytes "revoked (jti=" ++ c.jti ++ bytes ")"⟩

/-- The failure of `rotate_token_pair` on a revoked token. -/
def revokedFailure (c : Claims) : Failure :=
  .revoked (bytes "refresh token has been revoked (jti=" ++ c.jti ++ bytes ")")

/-! ## The steps -/

/-- The atomic steps. -/
inductive Action
  /-- Time passes. -/
  | tick (d : Nat)
  /-- A call of `issue_token_pair`, as on login. -/
  | issue (userId : Bytes) (args : PairArgs) (jti : Except Bytes Bytes)
  /-- A call of `rotate_token_pair`: the checks and the verification. -/
  | rotate (tok : Option Claims) (args : PairArgs) (why : Bytes)
  /-- A call of `revoke_refresh_token`: the verification and the check of the user. -/
  | revoke (tok : Option Claims) (maxTtlSeconds : Int) (expectedUserId why : Bytes)
  /-- The call `i` looks the token up in the store. -/
  | lookup (i : Nat)
  /-- The call `i` reads the clock. -/
  | time (i : Nat)
  /-- The call `i` puts the token into the store. -/
  | blacklist (i : Nat) (victim : Bytes)
  /-- The call `i` signs the new pair. -/
  | sign (i : Nat) (jti : Except Bytes Bytes)
  /-- `purge_expired`. -/
  | purge
  deriving DecidableEq

/-- A `jti` that `generate_uuid_v4` may return: none that was used before. -/
def Fresh (s : State) : Except Bytes Bytes → Prop
  | .error _ => True
  | .ok jti => jti ≠ [] ∧ ∀ c ∈ s.signed, c.jti ≠ jti

instance (s : State) : (jti : Except Bytes Bytes) → Decidable (Fresh s jti)
  | .error _ => isTrue trivial
  | .ok jti => inferInstanceAs (Decidable (jti ≠ [] ∧ _))

/-- A call of `issue_token_pair`. -/
def issue (s : State) (userId : Bytes) (args : PairArgs) (jti : Except Bytes Bytes) : State :=
  match issueTokenPair s.now userId args jti with
  | .error _ => s
  | .ok new => { s with signed := s.signed ++ [new] }

/-- The step of `rotate_token_pair` to `is_revoked`. -/
def lookup (p : Setting) (s : State) (i : Nat) : Option State :=
  match s.calls[i]? with
  | some (.rotate args (.verified c)) =>
    let (revoked, store) := s.store.isRevoked (p.steady s) c.jti
    let pc := if revoked then .failed (revokedFailure c) else .unrevoked c
    some { s with store, calls := s.calls.set i (.rotate args pc) }
  | _ => none

/-- The reading of the clock. -/
def time (s : State) (i : Nat) : Option State :=
  match s.calls[i]? with
  | some (.rotate args (.unrevoked c)) =>
    some { s with calls := s.calls.set i (.rotate args (.timed c s.now)) }
  | some (.revoke maxTtl (.matched c)) =>
    some { s with calls := s.calls.set i (.revoke maxTtl (.timed c s.now)) }
  | _ => none

/-- The claims of a call that is about to revoke them, with the lifetime of the entry. -/
def Call.revoking : Call → Option (Claims × Int)
  | .rotate _ (.timed c t) => some (c, remainingSeconds c t)
  | .revoke maxTtl (.timed c t) => some (c, cappedSeconds maxTtl c t)
  | _ => none

/-- The call after its `revoke`. -/
def Call.afterRevoke : Call → Call
  | .rotate args (.timed c _) => .rotate args (.signing c)
  | .revoke maxTtl (.timed c _) => .revoke maxTtl (.revoked c (revokedOutcome c))
  | call => call

/-- The step to `revoke`. -/
def blacklist (p : Setting) (s : State) (i : Nat) (victim : Bytes) : Option State := do
  let call ← s.calls[i]?
  let (c, ttl) ← call.revoking
  if (s.store.purgeExpired (p.steady s)).AtCap p.maxEntries ∧
      ¬ (s.store.purgeExpired (p.steady s)).Soonest victim then none
  else some { s with
    store := s.store.revoke p.maxEntries (p.steady s) victim c.jti ttl
    calls := s.calls.set i call.afterRevoke }

/-- The signing of the new pair at the end of `rotate_token_pair`. -/
def sign (s : State) (i : Nat) (jti : Except Bytes Bytes) : Option State :=
  match s.calls[i]? with
  | some (.rotate args (.signing c)) =>
    match issueTokenPair s.now c.userId args jti with
    | .error e => some { s with calls := s.calls.set i (.rotate args (.failed e)) }
    | .ok new => some { s with
        signed := s.signed ++ [new]
        calls := s.calls.set i (.rotate args (.rotated c new)) }
  | _ => none

/-- One step. -/
def step (p : Setting) (s : State) : Action → Option State
  | .tick d => some { s with now := s.now + d }
  | .issue userId args jti => if Fresh s jti then some (issue s userId args jti) else none
  | .rotate tok args why =>
    some { s with calls := s.calls ++ [.rotate args (rotateTokenPair s tok args why)] }
  | .revoke tok maxTtl expected why =>
    some { s with calls := s.calls ++ [.revoke maxTtl (revokeRefreshToken s tok expected why)] }
  | .lookup i => lookup p s i
  | .time i => time s i
  | .blacklist i victim => blacklist p s i victim
  | .sign i jti => if Fresh s jti then sign s i jti else none
  | .purge => some { s with store := s.store.purgeExpired (p.steady s) }

/-- The subsystem, from a start with an empty store. -/
def system (p : Setting) : System State Action where
  init s := s.store.entries = [] ∧ s.signed = [] ∧ s.calls = []
  step := step p

/-! ## What the operations of the store keep -/

namespace Store

variable {s : Store} {now : Int} {victim jti : Bytes} {ttl : Int} {maxEntries : Nat}

/-- Every entry of `s` that has not expired is in `s'`. -/
def Keeps (now : Int) (s s' : Store) : Prop := ∀ x ∈ s.entries, now < x.2 → x ∈ s'.entries

/-- The purge takes only what has expired. -/
theorem keeps_purgeExpired : Keeps now s (s.purgeExpired now) :=
  fun _ hx hn => List.mem_filter.2 ⟨hx, decide_eq_true hn⟩

/-- `emplace` adds at most its own entry. -/
theorem mem_emplace {x : Bytes × Int} {e : Int} (h : x ∈ (s.emplace jti e).entries) :
    x ∈ s.entries ∨ x = (jti, e) := by
  rw [emplace] at h
  split_ifs at h
  · exact .inl h
  · simpa using h

/-- `emplace` keeps every entry. -/
theorem subset_emplace {e : Int} : ∀ x ∈ s.entries, x ∈ (s.emplace jti e).entries := by
  intro x hx
  rw [emplace]
  split_ifs
  · exact hx
  · exact List.mem_append_left _ hx

/-- After `emplace` the key has an entry, be it the old one. -/
theorem exists_emplace {e : Int} : ∃ x ∈ (s.emplace jti e).entries, x.1 = jti := by
  rw [emplace]
  split_ifs with h
  · obtain ⟨x, hx, rfl⟩ := List.mem_map.1 h
    exact ⟨x, hx, rfl⟩
  · exact ⟨(jti, e), by simp, rfl⟩

/-- Without an eviction, `revoke` keeps the entries that have not expired. -/
theorem keeps_revoke (h : ¬ (s.purgeExpired now).AtCap maxEntries) :
    Keeps now s (s.revoke maxEntries now victim jti ttl) := by
  intro x hx hn
  simp only [revoke]
  split_ifs
  · exact hx
  · exact hx
  · exact subset_emplace _ (keeps_purgeExpired x hx hn)

/-- `revoke` adds at most its own entry. -/
theorem mem_revoke {x : Bytes × Int} (h : x ∈ (s.revoke maxEntries now victim jti ttl).entries) :
    x ∈ s.entries ∨ x = (jti, now + ttl * second) := by
  simp only [revoke] at h
  split_ifs at h
  · exact .inl h
  · exact .inl h
  · refine (mem_emplace h).imp_left fun h => ?_
    exact (List.mem_filter.1 (List.mem_filter.1 h).1).1
  · exact (mem_emplace h).imp_left fun h => (List.mem_filter.1 h).1

/-- After `revoke` the key has an entry. -/
theorem exists_revoke (hj : jti ≠ []) (ht : 0 < ttl) :
    ∃ x ∈ (s.revoke maxEntries now victim jti ttl).entries, x.1 = jti := by
  rw [revoke, if_neg (by simpa using hj), if_neg (by omega)]
  exact exists_emplace

theorem find_eq_some {e : Int} (h : s.find jti = some e) : (jti, e) ∈ s.entries := by
  obtain ⟨x, hx, rfl⟩ := Option.map_eq_some_iff.1 h
  obtain ⟨hm, rfl⟩ := mem_of_find?_key hx
  exact hm

theorem find_isSome {x : Bytes × Int} (hx : x ∈ s.entries) (hk : x.1 = jti) :
    ∃ e, s.find jti = some e := by
  obtain ⟨y, hy⟩ := exists_find?_key_iff.2 ⟨x, hx, hk⟩
  exact ⟨y.2, by rw [find, hy, Option.map_some]⟩

/-- A look-up adds nothing. -/
theorem mem_isRevoked {x : Bytes × Int} (h : x ∈ (s.isRevoked now jti).2.entries) :
    x ∈ s.entries := by
  rw [isRevoked] at h
  split_ifs at h
  · exact h
  · split at h
    · exact h
    · split_ifs at h
      · exact (List.mem_filter.1 h).1
      · exact h

/-- `is_revoked` erases an entry only if it has expired: there is one for each `jti`. -/
theorem keeps_isRevoked : Keeps now s (s.isRevoked now jti).2 := by
  intro x hx hn
  rw [isRevoked]
  split_ifs
  · exact hx
  · split
    · exact hx
    · rename_i e he
      split_ifs with hle
      · -- the erased entry is the only one with its key, and it has expired
        refine List.mem_filter.2 ⟨hx, ?_⟩
        rw [bne_iff_ne]
        rintro rfl
        have := List.inj_on_of_nodup_map s.nodup hx (find_eq_some he) rfl
        rw [this] at hn
        exact absurd hn (Int.not_lt.2 hle)
      · exact hx

/-- A `jti` with entries that have not expired is revoked. -/
theorem isRevoked_of_mem (hj : jti ≠ []) {x : Bytes × Int} (hx : x ∈ s.entries)
    (hk : x.1 = jti) (h : ∀ y ∈ s.entries, y.1 = jti → now < y.2) :
    (s.isRevoked now jti).1 = true := by
  obtain ⟨e, he⟩ := find_isSome hx hk
  have hlt := h _ (find_eq_some he) rfl
  simp only [isRevoked, he]
  rw [if_neg (by simpa using hj), if_neg (Int.not_le.2 hlt)]

/-- A `jti` whose entry has not ended is revoked: there is one entry for it. -/
theorem isRevoked_of_holds (hj : jti ≠ []) (h : s.Holds now jti) :
    (s.isRevoked now jti).1 = true := by
  obtain ⟨x, hx, hk, hn⟩ := h
  refine isRevoked_of_mem hj hx hk fun y hy hk' => ?_
  rwa [List.inj_on_of_nodup_map s.nodup hy hx (hk'.trans hk.symm)]

/-- There is no entry for an empty `jti`. -/
def Named (s : Store) : Prop := ∀ x ∈ s.entries, x.1 ≠ []

/-- `revoke` takes no entry without a key. -/
theorem Named.revoke (h : s.Named) : (s.revoke maxEntries now victim jti ttl).Named := by
  by_cases hj : jti = []
  · rw [Store.revoke, if_pos (by simp [hj])]
    exact h
  · intro x hx
    rcases mem_revoke hx with hx | rfl
    · exact h x hx
    · exact hj

end Store

/-! ## What a step can do -/

variable {p : Setting} {s s' : State} {a : Action}

/-- A call after its first step. -/
def Call.Entered (s : State) : Call → Prop
  | .rotate _ (.verified c) => c ∈ s.signed
  | .rotate _ (.failed _) => True
  | .revoke _ (.matched c) => c ∈ s.signed
  | .revoke _ (.ignored _) => True
  | _ => False

/-- The effect of each step, case by case. -/
inductive Step (p : Setting) (s : State) : Action → State → Prop
  | ticked (d) : Step p s (.tick d) { s with now := s.now + d }
  | unissued (userId args jti) : Step p s (.issue userId args jti) s
  | issued (userId args jti new) : new.jti ≠ [] → (∀ c ∈ s.signed, c.jti ≠ new.jti) →
      Step p s (.issue userId args jti) { s with signed := s.signed ++ [new] }
  | called (a call) : call.Entered s → Step p s a { s with calls := s.calls ++ [call] }
  | found (i args c) : s.calls[i]? = some (.rotate args (.verified c)) →
      (s.store.isRevoked (p.steady s) c.jti).1 = true →
      Step p s (.lookup i) { s with
        store := (s.store.isRevoked (p.steady s) c.jti).2
        calls := s.calls.set i (.rotate args (.failed (revokedFailure c))) }
  | passed (i args c) : s.calls[i]? = some (.rotate args (.verified c)) →
      (s.store.isRevoked (p.steady s) c.jti).1 = false →
      Step p s (.lookup i) { s with
        store := (s.store.isRevoked (p.steady s) c.jti).2
        calls := s.calls.set i (.rotate args (.unrevoked c)) }
  | timedRotate (i args c) : s.calls[i]? = some (.rotate args (.unrevoked c)) →
      Step p s (.time i) { s with calls := s.calls.set i (.rotate args (.timed c s.now)) }
  | timedRevoke (i maxTtl c) : s.calls[i]? = some (.revoke maxTtl (.matched c)) →
      Step p s (.time i) { s with calls := s.calls.set i (.revoke maxTtl (.timed c s.now)) }
  | blacklisted (i victim call c ttl) : s.calls[i]? = some call →
      call.revoking = some (c, ttl) →
      Step p s (.blacklist i victim) { s with
        store := s.store.revoke p.maxEntries (p.steady s) victim c.jti ttl
        calls := s.calls.set i call.afterRevoke }
  | signed (i args c new jti) : s.calls[i]? = some (.rotate args (.signing c)) →
      new.jti ≠ [] → (∀ c ∈ s.signed, c.jti ≠ new.jti) →
      Step p s (.sign i jti) { s with
        signed := s.signed ++ [new]
        calls := s.calls.set i (.rotate args (.rotated c new)) }
  | unsigned (i args c e jti) : s.calls[i]? = some (.rotate args (.signing c)) →
      Step p s (.sign i jti) { s with calls := s.calls.set i (.rotate args (.failed e)) }
  | purged : Step p s .purge { s with store := s.store.purgeExpired (p.steady s) }

/-- The new refresh token has the `jti` that was drawn for it. -/
theorem issueTokenPair_ok {now : Nat} {userId : Bytes} {args : PairArgs}
    {jti : Except Bytes Bytes} {new : Claims}
    (h : issueTokenPair now userId args jti = .ok new) : jti = .ok new.jti := by
  unfold issueTokenPair at h
  split_ifs at h
  cases jti with
  | error what => cases h
  | ok jti =>
    cases h
    rfl

/-- The first step of a rotation goes on with a token that was signed, or ends. -/
theorem rotateTokenPair_entered (tok : Option Claims) (args : PairArgs) (why : Bytes) :
    (Call.rotate args (rotateTokenPair s tok args why)).Entered s := by
  cases tok with
  | none =>
    simp only [rotateTokenPair]
    split_ifs <;> trivial
  | some c =>
    simp only [rotateTokenPair]
    split_ifs with _ _ _ _ hv
    · trivial
    · trivial
    · trivial
    · trivial
    · exact hv.1
    · trivial

/-- So does that of a revocation. -/
theorem revokeRefreshToken_entered (tok : Option Claims) (maxTtl : Int) (expected why : Bytes) :
    (Call.revoke maxTtl (revokeRefreshToken s tok expected why)).Entered s := by
  cases tok with
  | none => trivial
  | some c =>
    simp only [revokeRefreshToken]
    split_ifs with hv
    · trivial
    · exact hv.1
    · trivial

/-- Every step is one of the listed ones. -/
theorem step_step (h : step p s a = some s') : Step p s a s' := by
  cases a with
  | tick d =>
    cases h
    exact .ticked d
  | issue userId args jti =>
    simp only [step] at h
    split_ifs at h with hf
    cases h
    rw [issue]
    split
    · exact .unissued userId args jti
    · rename_i new hn
      obtain rfl := issueTokenPair_ok hn
      exact .issued userId args _ new hf.1 hf.2
  | rotate tok args why =>
    cases h
    exact .called _ _ (rotateTokenPair_entered tok args why)
  | revoke tok maxTtl expected why =>
    cases h
    exact .called _ _ (revokeRefreshToken_entered tok maxTtl expected why)
  | lookup i =>
    simp only [step, lookup] at h
    split at h
    · cases h
      rename_i args c hc
      cases hr : (s.store.isRevoked (p.steady s) c.jti).1 with
      | true =>
        rw [if_pos rfl]
        exact .found i args c hc hr
      | false =>
        rw [if_neg nofun]
        exact .passed i args c hc hr
    · cases h
  | time i =>
    simp only [step, time] at h
    split at h
    · cases h
      exact .timedRotate i _ _ ‹_›
    · cases h
      exact .timedRevoke i _ _ ‹_›
    · cases h
  | blacklist i victim =>
    obtain ⟨call, hc, h⟩ := Option.bind_eq_some_iff.1 h
    obtain ⟨⟨c, ttl⟩, hr, h⟩ := Option.bind_eq_some_iff.1 h
    simp only at h
    split_ifs at h
    cases h
    exact .blacklisted i victim call c ttl hc hr
  | sign i jti =>
    simp only [step, sign] at h
    split_ifs at h with hf
    split at h
    · split at h
      · cases h
        exact .unsigned i _ _ _ jti ‹_›
      · cases h
        rename_i new hn
        obtain rfl := issueTokenPair_ok hn
        exact .signed i _ _ new _ ‹_› hf.1 hf.2
    · cases h
  | purge =>
    cases h
    exact .purged

end LiteCode.RefreshToken
