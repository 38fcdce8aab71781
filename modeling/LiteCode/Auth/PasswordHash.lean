import LiteCode.Auth.Bcrypt
import LiteCode.Config.LoadConfig

/-!
# Password storage

`src/auth/password_hash.h`: the strength policy, and the hashes that are stored and checked. A
password reaches bcrypt as a C string, so that it ends at its first zero byte; the policy keeps it
within the 72 bytes that bcrypt reads.

* `IsHashOf`: the texts of the hashes of a password;
* `verifyPassword_spec`: these, and no others, pass the check of the password, and each has its
  cost;
  `verifyPassword_y`: those of version `y` have a cost and never pass;
* `hashPassword_spec`: what an accepted password is stored as passes the check of that password,
  has the present cost and is not hashed again;
* `verifyPassword_hashPassword_iff`: which passwords pass the check of another one;
* `keyWords_cStr_iff`: among the passwords of the policy, those that stand for each other because
  bcrypt reads the same of them.
-/

namespace LiteCode.PasswordHash

open Bcrypt Config

/-- `kBcryptCostFactor`. -/
def bcryptCostFactor : Int := 12

/-- `kMinPasswordLength`. -/
def minPasswordLength : Nat := 8

/-- `kMaxPasswordLength`. -/
def maxPasswordLength : Nat := 72

/-- The exceptions. -/
inductive Failure
  /-- `PasswordPolicyError`. -/
  | policy (what : Bytes)
  /-- `PasswordHashError`. -/
  | hash (what : Bytes)
  deriving DecidableEq

/-! ## The policy -/

/-- `std::isalpha` in the C locale. -/
def isAlpha (c : UInt8) : Bool := (0x41 ≤ c && c ≤ 0x5A) || (0x61 ≤ c && c ≤ 0x7A)

/-- `validate_password_strength`: the error, if there is one. -/
def validatePasswordStrength (password : Bytes) : Option Bytes :=
  if password.length < minPasswordLength then
    some (bytes "password must be at least " ++ decimal minPasswordLength ++ bytes " characters")
  else if maxPasswordLength < password.length then
    some (bytes "password must be at most " ++ decimal maxPasswordLength ++ bytes " characters")
  else if (!password.any isAlpha || !password.any Json.isDigit) = true then
    some (bytes "password must contain both letters and digits")
  else none

/-! ## Hashing and verification -/

/-- `hash_password`. `random` is what the secure generator yields, if it does not fail. -/
def hashPassword (password : Bytes) (random : Option Salt) : Except Failure Bytes :=
  match validatePasswordStrength password with
  | some why => .error (.policy why)
  | none =>
    match gensalt bcryptCostFactor random with
    | none => .error (.hash (bytes "bcrypt_gensalt failed (secure RNG unavailable)"))
    | some salt =>
      match hashpass (cStr password) salt with
      | none =>
        .error (.hash (bytes "bcrypt_hashpass failed for cost=" ++ decimalInt bcryptCostFactor))
      | some hash => .ok hash

/-- `verify_password`. -/
def verifyPassword (password hash : Bytes) : Bool :=
  if (password.isEmpty || hash.isEmpty) = true then false
  else checkpass (cStr password) (cStr hash)

/-- `extract_cost_factor`. -/
def extractCostFactor (hash : Bytes) : Int :=
  if hash.length < 7 then -1
  else if hash.getD 0 0 ≠ UInt8.ofNat '$'.toNat then -1
  else if hash.getD 1 0 ≠ UInt8.ofNat '2'.toNat then -1
  else
    let minor := hash.getD 2 0
    if minor ≠ UInt8.ofNat 'a'.toNat ∧ minor ≠ UInt8.ofNat 'b'.toNat ∧
        minor ≠ UInt8.ofNat 'y'.toNat then -1
    else if hash.getD 3 0 ≠ UInt8.ofNat '$'.toNat then -1
    else if Json.isDigit (hash.getD 4 0) = false then -1
    else if Json.isDigit (hash.getD 5 0) = false then -1
    else if hash.getD 6 0 ≠ UInt8.ofNat '$'.toNat then -1
    else
      let tens : Int := (hash.getD 4 0).toNat - 48
      let ones : Int := (hash.getD 5 0).toNat - 48
      let cost := tens * 10 + ones
      if cost < 4 ∨ 31 < cost then -1 else cost

/-- `needs_rehash`. -/
def needsRehash (hash : Bytes) : Bool :=
  let cost := extractCostFactor hash
  0 < cost && cost < bcryptCostFactor

/-! ## The texts that pass -/

variable {password password' hash : Bytes} {minor : UInt8} {n logRounds : Nat}

/-- The minor versions that bcrypt hashes, none of which ends a string. -/
theorem minor_of_keyLen {key : Bytes} (h : keyLen minor key = some n) :
    minor = UInt8.ofNat 'a'.toNat ∨ minor = UInt8.ofNat 'b'.toNat := by
  by_cases ha : minor = UInt8.ofNat 'a'.toNat
  · exact .inl ha
  · by_cases hb : minor = UInt8.ofNat 'b'.toNat
    · exact .inr hb
    · rw [keyLen, if_neg ha, if_neg hb] at h
      cases h

/-- A hash has a minor version. -/
theorem minor_ne_zero {key : Bytes} (h : keyLen minor key = some n) : minor ≠ 0 := by
  rcases minor_of_keyLen h with rfl | rfl
  · decide
  · decide

/-- A text of a hash is a C string. -/
theorem cStr_hashText {key : Bytes} (hn : keyLen minor key = some n) (hhigh : logRounds ≤ 31)
    (csalt : Salt) : cStr (hashText minor n logRounds key csalt) =
      hashText minor n logRounds key csalt :=
  takeWhile_ne_of_notMem (zero_notMem_hashText (minor_ne_zero hn) hhigh csalt)

/-- A C string has no zero byte. -/
theorem zero_notMem_cStr (s : Bytes) : 0 ∉ cStr s := by
  intro h
  have hne := List.mem_takeWhile_imp h
  exact of_decide_eq_true hne rfl

/-- A text passes the check of a password exactly if it is not empty as a password, and its C
    string is the text of a hash of the password under version `a` or `b`, a cost from 4 to 31 and
    a salt. -/
theorem verifyPassword_eq_true_iff : verifyPassword password hash = true ↔
    password ≠ [] ∧ ∃ minor n logRounds csalt, keyLen minor (cStr password) = some n ∧
      4 ≤ logRounds ∧ logRounds ≤ 31 ∧
        cStr hash = hashText minor n logRounds (cStr password) csalt := by
  rw [verifyPassword]
  constructor
  · intro h
    split_ifs at h with hempty
    rw [Bool.or_eq_true, not_or, List.isEmpty_iff, List.isEmpty_iff] at hempty
    exact ⟨hempty.1, checkpass_eq_true_iff.1 h⟩
  · rintro ⟨hpassword, hhash⟩
    have hne : hash ≠ [] := by
      rintro rfl
      obtain ⟨minor, n, logRounds, csalt, -, -, -, htext⟩ := hhash
      have hlen := length_hashText minor n logRounds (cStr password) csalt
      rw [← htext] at hlen
      cases hlen
    have hempty : ¬(password.isEmpty || hash.isEmpty) = true := by
      rw [Bool.or_eq_true, List.isEmpty_iff, List.isEmpty_iff]
      exact not_or.2 ⟨hpassword, hne⟩
    rw [if_neg hempty]
    exact checkpass_eq_true_iff.2 hhash

/-! ## The cost of a text -/

/-- The cost is read back, for a version that has one. -/
theorem extractCostFactor_header (hminor : minor = UInt8.ofNat 'a'.toNat ∨
      minor = UInt8.ofNat 'b'.toNat ∨ minor = UInt8.ofNat 'y'.toNat)
    (hlow : 4 ≤ logRounds) (hhigh : logRounds ≤ 31) (rest : Bytes) :
    extractCostFactor (header minor logRounds ++ rest) = logRounds := by
  have h10 : logRounds / 10 < 10 := by omega
  have h1 : logRounds % 10 < 10 := Nat.mod_lt _ (by decide)
  have hlen : ¬(header minor logRounds ++ rest).length < 7 := by
    rw [List.length_append]
    exact Nat.not_lt.2 (Nat.le_add_right 7 _)
  have hversion : ¬(minor ≠ UInt8.ofNat 'a'.toNat ∧ minor ≠ UInt8.ofNat 'b'.toNat ∧
      minor ≠ UInt8.ofNat 'y'.toNat) := fun ⟨ha, hb, hy⟩ =>
    hminor.elim ha fun h => h.elim hb hy
  have htens : ((UInt8.ofNat (48 + logRounds / 10)).toNat : Int) = 48 + logRounds / 10 := by
    rw [UInt8.toNat_ofNat', Nat.mod_eq_of_lt (by omega)]
    rfl
  have hones : ((UInt8.ofNat (48 + logRounds % 10)).toNat : Int) = 48 + logRounds % 10 := by
    rw [UInt8.toNat_ofNat', Nat.mod_eq_of_lt (by omega)]
    rfl
  have htext : header minor logRounds ++ rest =
      UInt8.ofNat '$'.toNat :: UInt8.ofNat '2'.toNat :: minor :: UInt8.ofNat '$'.toNat ::
        UInt8.ofNat (48 + logRounds / 10) :: UInt8.ofNat (48 + logRounds % 10) ::
          UInt8.ofNat '$'.toNat :: rest := rfl
  rw [extractCostFactor, if_neg hlen, htext]
  simp only [List.getD_cons_zero, List.getD_cons_succ, isDigit_twoDigits h10, isDigit_twoDigits h1,
    htens, hones, if_neg hversion, ne_eq, not_true_eq_false, if_false, Bool.true_eq_false]
  rw [if_neg (by omega)]
  omega

/-- The text, up to its first zero byte, is that of a hash of the password in version `a` or `b`,
    under some salt and a cost that bcrypt has. -/
def IsHashOf (password : Bytes) (cost : Nat) (hash : Bytes) : Prop :=
  4 ≤ cost ∧ cost ≤ 31 ∧ ∃ minor n csalt, keyLen minor (cStr password) = some n ∧
    cStr hash = hashText minor n cost (cStr password) csalt

/-- The text names its cost, and is due to be hashed again if that is below the present one. -/
theorem IsHashOf.cost {cost : Nat} (h : IsHashOf password cost hash) :
    extractCostFactor hash = cost ∧
      (needsRehash hash = true ↔ (cost : Int) < bcryptCostFactor) := by
  obtain ⟨hlow, hhigh, minor, n, csalt, hn, htext⟩ := h
  have hhash : hash = header minor cost ++ (encodeBase64 csalt.1 ++
      encodeBase64 ((bcryptRaw (cStr password) n csalt.1 (2 ^ cost)).take 23) ++
        hash.dropWhile (· ≠ 0)) := by
    rw [← List.append_assoc, ← List.append_assoc, ← hashText, ← htext]
    exact List.takeWhile_append_dropWhile.symm
  have hminor : minor = UInt8.ofNat 'a'.toNat ∨ minor = UInt8.ofNat 'b'.toNat ∨
      minor = UInt8.ofNat 'y'.toNat := (minor_of_keyLen hn).imp_right .inl
  have hcost : extractCostFactor hash = cost := by
    rw [hhash]
    exact extractCostFactor_header hminor hlow hhigh _
  refine ⟨hcost, ?_⟩
  rw [needsRehash, hcost, Bool.and_eq_true, decide_eq_true_iff, decide_eq_true_iff]
  exact and_iff_right (by omega)

/-- A text passes the check of a password exactly if that is not empty and the text is the one of a
    hash of it. The cost of such a hash is the one that is read from the text. -/
theorem verifyPassword_spec :
    (verifyPassword password hash = true ↔ password ≠ [] ∧ ∃ cost, IsHashOf password cost hash) ∧
      ∀ cost, IsHashOf password cost hash → extractCostFactor hash = cost ∧
        (needsRehash hash = true ↔ (cost : Int) < bcryptCostFactor) := by
  refine ⟨?_, fun cost => IsHashOf.cost⟩
  rw [verifyPassword_eq_true_iff]
  constructor
  · rintro ⟨hne, minor, n, cost, csalt, hn, hlow, hhigh, htext⟩
    exact ⟨hne, cost, hlow, hhigh, minor, n, csalt, hn, htext⟩
  · rintro ⟨hne, cost, hlow, hhigh, minor, n, csalt, hn, htext⟩
    exact ⟨hne, minor, n, cost, csalt, hn, hlow, hhigh, htext⟩

/-- A text of version `y` has a cost, but no password passes its check. -/
theorem verifyPassword_y (hlow : 4 ≤ logRounds) (hhigh : logRounds ≤ 31) (rest : Bytes) :
    extractCostFactor (header (UInt8.ofNat 'y'.toNat) logRounds ++ rest) = logRounds ∧
      verifyPassword password (header (UInt8.ofNat 'y'.toNat) logRounds ++ rest) = false := by
  refine ⟨extractCostFactor_header (.inr (.inr rfl)) hlow hhigh rest, ?_⟩
  refine Bool.eq_false_iff.2 fun h => ?_
  obtain ⟨-, minor, n, cost, csalt, hn, -, -, htext⟩ := verifyPassword_eq_true_iff.1 h
  have hcut : cStr (header (UInt8.ofNat 'y'.toNat) logRounds ++ rest) =
      header (UInt8.ofNat 'y'.toNat) logRounds ++ cStr rest :=
    List.takeWhile_append_of_pos (forall_ne_of_notMem (zero_notMem_header (by decide) hhigh))
  rw [hcut] at htext
  -- the third character is the version
  have hminor : UInt8.ofNat 'y'.toNat = minor := congrArg (·.getD 2 0) htext
  rcases minor_of_keyLen hn with ha | hb
  · exact absurd (hminor.trans ha) (by decide)
  · exact absurd (hminor.trans hb) (by decide)

/-! ## What is stored for a password -/

/-- What an accepted password is stored as. -/
theorem hashPassword_eq (hp : validatePasswordStrength password = none) (csalt : Salt) :
    hashPassword password (some csalt) = .ok (hashText (UInt8.ofNat 'b'.toNat)
      (min (cStr password).length 72 + 1) 12 (cStr password) csalt) := by
  have hgensalt : gensalt bcryptCostFactor (some csalt) =
      some (header (UInt8.ofNat 'b'.toNat) 12 ++ encodeBase64 csalt.1 ++ []) := by
    rw [List.append_nil]
    rfl
  rw [hashPassword, hp, hgensalt]
  dsimp only
  rw [hashpass, hashpassInternal_header csalt [] (keyLen_b _) (by decide) (by decide)]

/-- The policy refuses the empty password. -/
theorem ne_nil_of_validate (hp : validatePasswordStrength password = none) : password ≠ [] := by
  rintro rfl
  cases hp

/-- An accepted password is stored as a C string of sixty characters of the present cost that
    passes its check, whatever the salt, and is not due to be hashed again. -/
theorem hashPassword_spec (hp : validatePasswordStrength password = none) (csalt : Salt) :
    ∃ hash, hashPassword password (some csalt) = .ok hash ∧ hash.length = 60 ∧ cStr hash = hash ∧
      verifyPassword password hash = true ∧ extractCostFactor hash = bcryptCostFactor ∧
        needsRehash hash = false := by
  have hcost : extractCostFactor (hashText (UInt8.ofNat 'b'.toNat)
      (min (cStr password).length 72 + 1) 12 (cStr password) csalt) = bcryptCostFactor := by
    rw [hashText, List.append_assoc]
    exact extractCostFactor_header (.inr (.inl rfl)) (by decide) (by decide) _
  refine ⟨_, hashPassword_eq hp csalt, ?_, ?_, ?_, ?_, ?_⟩
  · exact Nat.succ.inj (length_hashText _ _ _ _ csalt)
  · exact cStr_hashText (keyLen_b _) (by decide) csalt
  · exact verifyPassword_eq_true_iff.2 ⟨ne_nil_of_validate hp, _, _, _, csalt, keyLen_b _,
      by decide, by decide, cStr_hashText (keyLen_b _) (by decide) csalt⟩
  · exact hcost
  · rw [needsRehash, hcost]
    rfl

/-- A salt of zero bytes. -/
def zeroSalt : Salt := ⟨List.replicate 16 0, rfl⟩

/-- A password that the policy accepts. -/
theorem hashPassword_spec_password1 :
    ∃ hash, hashPassword (bytes "password1") (some zeroSalt) = .ok hash ∧ hash.length = 60 ∧
      cStr hash = hash ∧ verifyPassword (bytes "password1") hash = true ∧
        extractCostFactor hash = bcryptCostFactor ∧ needsRehash hash = false :=
  hashPassword_spec (by decide) zeroSalt

/-! ## Which passwords pass -/

/-- A password passes the check of another one exactly if the first 23 bytes of their hashes under
    the stored salt are the same. -/
theorem verifyPassword_hashPassword_iff (hp : validatePasswordStrength password = none)
    (csalt : Salt) :
    ∃ hash, hashPassword password (some csalt) = .ok hash ∧ ∀ password', password' ≠ [] →
      (verifyPassword password' hash = true ↔
        (bcryptRaw (cStr password') (min (cStr password').length 72 + 1) csalt.1 (2 ^ 12)).take 23 =
          (bcryptRaw (cStr password) (min (cStr password).length 72 + 1) csalt.1 (2 ^ 12)).take
            23) := by
  refine ⟨_, hashPassword_eq hp csalt, fun password' hne => ?_⟩
  rw [verifyPassword_eq_true_iff, cStr_hashText (keyLen_b _) (by decide)]
  constructor
  · rintro ⟨-, minor, n, cost, csalt', hn, hlow, hhigh, htext⟩
    obtain ⟨rfl, rfl, rfl, hcipher⟩ := hashText_inj (by decide) (by omega) htext
    rw [keyLen_b, Option.some.injEq] at hn
    rw [hn, hcipher]
  · intro hcipher
    refine ⟨hne, _, _, 12, csalt, keyLen_b _, by decide, by decide, ?_⟩
    rw [hashText, hashText, hcipher]

theorem verifyPassword_hashPassword_iff_password1 :
    ∃ hash, hashPassword (bytes "password1") (some zeroSalt) = .ok hash ∧
      ∀ password', password' ≠ [] → (verifyPassword password' hash = true ↔
        (bcryptRaw (cStr password') (min (cStr password').length 72 + 1) zeroSalt.1
            (2 ^ 12)).take 23 =
          (bcryptRaw (cStr (bytes "password1")) (min (cStr (bytes "password1")).length 72 + 1)
            zeroSalt.1 (2 ^ 12)).take 23) :=
  verifyPassword_hashPassword_iff (by decide) zeroSalt

/-- An accepted password is not longer than bcrypt reads. -/
theorem length_cStr_of_validate (hp : validatePasswordStrength password = none) :
    (cStr password).length ≤ 72 := by
  have hle : (cStr password).length ≤ password.length := (List.takeWhile_sublist _).length_le
  have hmax : ¬maxPasswordLength < password.length := by
    intro h
    rw [validatePasswordStrength, if_pos h] at hp
    split_ifs at hp
  exact hle.trans (Nat.not_lt.1 hmax)

/-- Two passwords of the policy set up the cipher in the same way exactly if they are the same up
    to their first zero byte: nothing else is cut off. Then each passes the check of the other. -/
theorem keyWords_cStr_iff (hp : validatePasswordStrength password = none)
    (hp' : validatePasswordStrength password' = none) :
    (keyWords (cStr password) (min (cStr password).length 72 + 1) =
        keyWords (cStr password') (min (cStr password').length 72 + 1) ↔
      cStr password = cStr password') ∧
    (cStr password = cStr password' → ∀ csalt, ∃ hash,
      hashPassword password (some csalt) = .ok hash ∧ verifyPassword password' hash = true) := by
  constructor
  · rw [keyWords_eq_iff (zero_notMem_cStr _) (zero_notMem_cStr _) (keyLen_b _) (keyLen_b _),
      List.take_of_length_le (length_cStr_of_validate hp),
      List.take_of_length_le (length_cStr_of_validate hp')]
  · intro h csalt
    refine ⟨_, hashPassword_eq hp csalt, verifyPassword_eq_true_iff.2 ⟨ne_nil_of_validate hp', _, _,
      12, csalt, keyLen_b _, by decide, by decide, ?_⟩⟩
    rw [cStr_hashText (keyLen_b _) (by decide), h]

/-- What follows a zero byte is not part of the password. -/
theorem keyWords_cStr_iff_password1 :
    (keyWords (cStr (bytes "password1")) (min (cStr (bytes "password1")).length 72 + 1) =
        keyWords (cStr (bytes "password1" ++ [0, 0x41]))
          (min (cStr (bytes "password1" ++ [0, 0x41])).length 72 + 1) ↔
      cStr (bytes "password1") = cStr (bytes "password1" ++ [0, 0x41])) ∧
    (cStr (bytes "password1") = cStr (bytes "password1" ++ [0, 0x41]) → ∀ csalt, ∃ hash,
      hashPassword (bytes "password1") (some csalt) = .ok hash ∧
        verifyPassword (bytes "password1" ++ [0, 0x41]) hash = true) :=
  keyWords_cStr_iff (by decide) (by decide)

end LiteCode.PasswordHash
