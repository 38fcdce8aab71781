import LiteCode.Auth.Blowfish
import LiteCode.Lib.Base64
import LiteCode.Lib.Cut
import LiteCode.Lib.Json
import Mathlib.Data.List.GetD
import Mathlib.Logic.Function.Iterate

/-!
# bcrypt

`src/auth/bcrypt/bcrypt.c`: the hash of a password under a salt, the text it is stored as, and the
check of a password against such a text. A text is `$2`, the minor version, `$`, two digits of the
cost, `$`, and in base 64 the sixteen bytes of the salt and 23 bytes of the encrypted words. The
alphabet is that of `crypt`.

The random bytes of a salt are an argument. A password and a hash come as C strings, without
their terminating zero.

* `decodeBase64_encodeBase64`: the salt that is read out of a text is the one written into it;
* `hashpassInternal_header`, `exists_of_hashpassInternal`: what is parsed as a salt, and what comes
  out;
* `checkpass_eq_true_iff`: a text passes exactly if it is the text of the hash under its own salt;
* `keyWords_eq_iff`, `bcryptRaw_congr`: under version `b` the key schedule determines the password
  up to its byte 72, and the hash depends on no more.
-/

namespace LiteCode.Bcrypt

open Blowfish

/-- `BCRYPT_MAXSALT`. -/
def maxSalt : Nat := 16

/-- `BCRYPT_HASHSPACE`. -/
def hashSpace : Nat := 61

/-- `BCRYPT_HASHSIZE`. -/
def hashSize : Nat := 64

/-- The bytes of a salt. -/
abbrev Salt := { csalt : Bytes // csalt.length = maxSalt }

/-! ## Base 64 -/

/-- `Base64Code`. -/
def base64Code : Bytes := bytes "./ABCDEFGHIJKLMNOPQRSTUVWXYZabcdefghijklmnopqrstuvwxyz0123456789"

/-- `index_64`. -/
def index64 : List UInt8 := [
  255, 255, 255, 255, 255, 255, 255, 255, 255, 255,
  255, 255, 255, 255, 255, 255, 255, 255, 255, 255,
  255, 255, 255, 255, 255, 255, 255, 255, 255, 255,
  255, 255, 255, 255, 255, 255, 255, 255, 255, 255,
  255, 255, 255, 255, 255, 255, 0, 1, 54, 55,
  56, 57, 58, 59, 60, 61, 62, 63, 255, 255,
  255, 255, 255, 255, 255, 2, 3, 4, 5, 6,
  7, 8, 9, 10, 11, 12, 13, 14, 15, 16,
  17, 18, 19, 20, 21, 22, 23, 24, 25, 26, 27,
  255, 255, 255, 255, 255, 255, 28, 29, 30,
  31, 32, 33, 34, 35, 36, 37, 38, 39, 40,
  41, 42, 43, 44, 45, 46, 47, 48, 49, 50,
  51, 52, 53, 255, 255, 255, 255, 255]

/-- `CHAR64`. -/
def char64 (c : UInt8) : UInt8 := if 127 < c then 255 else index64.getD c.toNat 255

/-- `encode_base64`. -/
def encodeBase64 (data : Bytes) : Bytes := Base64.encode base64Code data

/-- `decode_base64`: `len` bytes. Past the end of the text is its terminating zero. A digit is
    below 64, so that the bits of two digits are put together by a sum. -/
def decodeBase64 : Nat → Bytes → Option Bytes
  | 0, _ => some []
  | 1, p =>
    let c1 := char64 (p.getD 0 0)
    let c2 := char64 (p.getD 1 0)
    if c1 = 255 ∨ c2 = 255 then none
    else some [UInt8.ofNat (c1.toNat * 4 + c2.toNat / 16)]
  | 2, p =>
    let c1 := char64 (p.getD 0 0)
    let c2 := char64 (p.getD 1 0)
    let c3 := char64 (p.getD 2 0)
    if c1 = 255 ∨ c2 = 255 ∨ c3 = 255 then none
    else some [UInt8.ofNat (c1.toNat * 4 + c2.toNat / 16),
      UInt8.ofNat (c2.toNat % 16 * 16 + c3.toNat / 4)]
  | len + 3, p =>
    let c1 := char64 (p.getD 0 0)
    let c2 := char64 (p.getD 1 0)
    let c3 := char64 (p.getD 2 0)
    let c4 := char64 (p.getD 3 0)
    if c1 = 255 ∨ c2 = 255 ∨ c3 = 255 ∨ c4 = 255 then none
    else (decodeBase64 len (p.drop 4)).map fun rest =>
      UInt8.ofNat (c1.toNat * 4 + c2.toNat / 16) ::
        UInt8.ofNat (c2.toNat % 16 * 16 + c3.toNat / 4) ::
          UInt8.ofNat (c3.toNat % 4 * 64 + c4.toNat) :: rest

/-! ## The hash -/

/-- `%2.2u`, for a number below 100. -/
def twoDigits (n : Nat) : Bytes := [UInt8.ofNat (48 + n / 10), UInt8.ofNat (48 + n % 10)]

/-- What precedes the salt: `$2`, the minor version, `$`, the cost and `$`. -/
def header (minor : UInt8) (logRounds : Nat) : Bytes :=
  bytes "$2" ++ [minor] ++ bytes "$" ++ twoDigits logRounds ++ bytes "$"

/-- `bcrypt_gensalt`. `random` is what `secure_random` reads, if it does not fail. -/
def gensalt (workfactor : Int) (random : Option Salt) : Option Bytes :=
  let logRounds := if workfactor < 4 then 4 else if 31 < workfactor then 31 else workfactor
  random.map fun csalt => header (UInt8.ofNat 'b'.toNat) logRounds.toNat ++ encodeBase64 csalt.1

/-- `key_len` in `bcrypt_hashpass_internal`, for the minor versions that there are. -/
def keyLen (minor : UInt8) (key : Bytes) : Option Nat :=
  if minor = UInt8.ofNat 'a'.toNat then some ((key.length + 1) % 256)
  else if minor = UInt8.ofNat 'b'.toNat then
    some ((if 72 < key.length then 72 else key.length) + 1)
  else none

/-- `ciphertext` before it is encrypted. -/
def orpheanBeholder : Bytes := bytes "OrpheanBeholderScryDoubt"

/-- The four bytes of a word, the highest first. -/
def wordBytes (w : UInt32) : Bytes :=
  [(w >>> 24).toUInt8, (w >>> 16).toUInt8, (w >>> 8).toUInt8, w.toUInt8]

/-- `ciphertext` when it is encrypted. The terminating zero of the key can be part of it. -/
def bcryptRaw (key : Bytes) (keyLen : Nat) (csalt : Bytes) (rounds : Nat) : Bytes :=
  let key := key ++ [0]
  let state := expandstate initstate csalt maxSalt key keyLen
  let state := (fun c => expand0state (expand0state c key keyLen) csalt maxSalt)^[rounds] state
  let cdata := streamWords orpheanBeholder 24 6 0
  let cdata := (fun d => blfEnc state d 3)^[64] cdata
  cdata.flatMap wordBytes

/-- `bcrypt_hashpass_internal`, with `encryptedlen` bytes for the result. -/
def hashpassInternal (key salt : Bytes) (encryptedlen : Nat) : Option Bytes :=
  if encryptedlen < hashSpace then none
  else if salt.getD 0 0 ≠ UInt8.ofNat '$'.toNat then none
  else
    let salt := salt.drop 1
    if salt.getD 0 0 ≠ UInt8.ofNat '2'.toNat then none
    else
      let minor := salt.getD 1 0
      match keyLen minor key with
      | none => none
      | some keyLen =>
        if salt.getD 2 0 ≠ UInt8.ofNat '$'.toNat then none
        else
          let salt := salt.drop 3
          if Json.isDigit (salt.getD 0 0) = false ∨ Json.isDigit (salt.getD 1 0) = false ∨
              salt.getD 2 0 ≠ UInt8.ofNat '$'.toNat then none
          else
            let logr := ((salt.getD 1 0).toNat - 48) + ((salt.getD 0 0).toNat - 48) * 10
            if logr < 4 ∨ 31 < logr then none
            else
              let salt := salt.drop 3
              if salt.length * 3 / 4 < maxSalt then none
              else
                (decodeBase64 maxSalt salt).map fun csalt =>
                  header minor logr ++ encodeBase64 csalt ++
                    encodeBase64 ((bcryptRaw key keyLen csalt (2 ^ logr)).take 23)

/-- `bcrypt_hashpass`. -/
def hashpass (key salt : Bytes) : Option Bytes := hashpassInternal key salt hashSize

/-- `timingsafe_bcmp_portable`, on strings of one length. -/
def timingsafeBcmp (b1 b2 : Bytes) : UInt8 :=
  (b1.zip b2).foldl (fun ret p => ret ||| (p.1 ^^^ p.2)) 0

/-- `bcrypt_checkpass`: whether it returns 0. -/
def checkpass (key hash : Bytes) : Bool :=
  match hashpassInternal key hash hashSize with
  | none => false
  | some computed => computed.length == hash.length && timingsafeBcmp computed hash == 0

/-! ## The text of a salt -/

theorem index64_base64Code : ∀ v < 64, char64 (base64Code.getD v 0) = UInt8.ofNat v := by
  decide +kernel

/-- The digits of the alphabet are read back as their values. -/
theorem toNat_char64 {v : Nat} (hv : v < 64) : (char64 (base64Code.getD v 0)).toNat = v := by
  rw [index64_base64Code v hv, UInt8.toNat_ofNat', Nat.mod_eq_of_lt (by omega)]

theorem char64_ne {v : Nat} (hv : v < 64) : char64 (base64Code.getD v 0) ≠ 255 := fun h => by
  have h255 := congrArg UInt8.toNat h
  rw [toNat_char64 hv] at h255
  exact absurd hv (by rw [h255]; decide)

/-- A group of three bytes, in front of whatever is decoded after it. -/
theorem decodeBase64_group (len : Nat) (a b c : UInt8) (rest : Bytes) :
    decodeBase64 (len + 3) (encodeBase64 [a, b, c] ++ rest) =
      (decodeBase64 len rest).map fun l => a :: b :: c :: l := by
  have ha := a.toNat_lt
  have hb := b.toNat_lt
  have hc := c.toNat_lt
  have h₁ : a.toNat / 4 < 64 := by omega
  have h₂ : a.toNat % 4 * 16 + b.toNat / 16 < 64 := by omega
  have h₃ : b.toNat % 16 * 4 + c.toNat / 64 < 64 := by omega
  have h₄ : c.toNat % 64 < 64 := by omega
  have hdrop : (encodeBase64 [a, b, c] ++ rest).drop 4 = rest := rfl
  rw [decodeBase64, hdrop]
  simp only [encodeBase64, Base64.encode, Base64.sextets, List.map_cons, List.map_nil,
    List.cons_append, List.nil_append, List.getD_cons_zero, List.getD_cons_succ, toNat_char64 h₁,
    toNat_char64 h₂, toNat_char64 h₃, toNat_char64 h₄]
  rw [if_neg (by simp only [char64_ne h₁, char64_ne h₂, char64_ne h₃, char64_ne h₄, or_self,
    not_false_eq_true]), Base64.ofNat_eq (a := a), Base64.ofNat_eq (a := b),
    Base64.ofNat_eq (a := c)]
  · omega
  · omega
  · omega

/-- A single byte that is left over. -/
theorem decodeBase64_single (a : UInt8) (rest : Bytes) :
    decodeBase64 1 (encodeBase64 [a] ++ rest) = some [a] := by
  have ha := a.toNat_lt
  have h₁ : a.toNat / 4 < 64 := by omega
  have h₂ : a.toNat % 4 * 16 < 64 := by omega
  rw [decodeBase64]
  simp only [encodeBase64, Base64.encode, Base64.sextets, List.map_cons, List.map_nil,
    List.cons_append, List.nil_append, List.getD_cons_zero, List.getD_cons_succ, toNat_char64 h₁,
    toNat_char64 h₂]
  rw [if_neg (by simp only [char64_ne h₁, char64_ne h₂, or_self, not_false_eq_true]),
    Base64.ofNat_eq (a := a)]
  omega

/-- Two bytes that are left over. -/
theorem decodeBase64_pair (a b : UInt8) (rest : Bytes) :
    decodeBase64 2 (encodeBase64 [a, b] ++ rest) = some [a, b] := by
  have ha := a.toNat_lt
  have hb := b.toNat_lt
  have h₁ : a.toNat / 4 < 64 := by omega
  have h₂ : a.toNat % 4 * 16 + b.toNat / 16 < 64 := by omega
  have h₃ : b.toNat % 16 * 4 < 64 := by omega
  rw [decodeBase64]
  simp only [encodeBase64, Base64.encode, Base64.sextets, List.map_cons, List.map_nil,
    List.cons_append, List.nil_append, List.getD_cons_zero, List.getD_cons_succ, toNat_char64 h₁,
    toNat_char64 h₂, toNat_char64 h₃]
  rw [if_neg (by simp only [char64_ne h₁, char64_ne h₂, char64_ne h₃, or_self,
    not_false_eq_true]), Base64.ofNat_eq (a := a), Base64.ofNat_eq (a := b)]
  · omega
  · omega

/-- The bytes of an encoded text are read back, whatever follows it. -/
theorem decodeBase64_encodeBase64 (data rest : Bytes) :
    decodeBase64 data.length (encodeBase64 data ++ rest) = some data := by
  induction data using Base64.sextets.induct with
  | case1 a b c data ih =>
    have hcons : encodeBase64 (a :: b :: c :: data) = encodeBase64 [a, b, c] ++ encodeBase64 data :=
      rfl
    have hlen : (a :: b :: c :: data).length = data.length + 3 := rfl
    rw [hcons, List.append_assoc, hlen, decodeBase64_group, ih]
    rfl
  | case2 a b => exact decodeBase64_pair a b rest
  | case3 a => exact decodeBase64_single a rest
  | case4 => rfl

/-- As many bytes are decoded as were asked for. -/
theorem length_of_decodeBase64 {len : Nat} {p data : Bytes}
    (h : decodeBase64 len p = some data) : data.length = len := by
  induction len, p using decodeBase64.induct generalizing data with
  | case1 p =>
    cases h
    rfl
  | case2 p c1 c2 =>
    rw [decodeBase64, if_pos ‹_›] at h
    cases h
  | case3 p c1 c2 =>
    rw [decodeBase64, if_neg ‹_›] at h
    cases h
    rfl
  | case4 p c1 c2 c3 =>
    rw [decodeBase64, if_pos ‹_›] at h
    cases h
  | case5 p c1 c2 c3 =>
    rw [decodeBase64, if_neg ‹_›] at h
    cases h
    rfl
  | case6 len p c1 c2 c3 c4 =>
    rw [decodeBase64, if_pos ‹_›] at h
    cases h
  | case7 len p c1 c2 c3 c4 hok =>
    next ih =>
    rw [decodeBase64, if_neg hok] at h
    obtain ⟨rest, hrest, rfl⟩ := Option.map_eq_some_iff.1 h
    rw [List.length_cons, List.length_cons, List.length_cons, ih hrest]

theorem length_encodeBase64_salt (csalt : Salt) : (encodeBase64 csalt.1).length = 22 := by
  obtain ⟨csalt, h⟩ := csalt
  match csalt, h with
  | [_, _, _, _, _, _, _, _, _, _, _, _, _, _, _, _], _ => rfl

/-! ## What is stored -/

/-- The text of the hash of a key under a salt, for a version that reads `n` bytes of the key. -/
def hashText (minor : UInt8) (n logRounds : Nat) (key : Bytes) (csalt : Salt) : Bytes :=
  header minor logRounds ++ encodeBase64 csalt.1 ++
    encodeBase64 ((bcryptRaw key n csalt.1 (2 ^ logRounds)).take 23)

variable {key salt out hash : Bytes} {minor : UInt8} {n logRounds : Nat}

theorem isDigit_twoDigits {d : Nat} (hd : d < 10) : Json.isDigit (UInt8.ofNat (48 + d)) = true := by
  revert d
  decide

theorem toNat_twoDigits {d : Nat} (hd : d < 10) : (UInt8.ofNat (48 + d)).toNat - 48 = d := by
  rw [UInt8.toNat_ofNat', Nat.mod_eq_of_lt (by omega), Nat.add_sub_cancel_left]

/-- The salt of a stored text is parsed back, and what follows it is not read. -/
theorem hashpassInternal_header (csalt : Salt) (rest : Bytes) (hn : keyLen minor key = some n)
    (hlow : 4 ≤ logRounds) (hhigh : logRounds ≤ 31) :
    hashpassInternal key (header minor logRounds ++ encodeBase64 csalt.1 ++ rest) hashSize =
      some (hashText minor n logRounds key csalt) := by
  have h10 : logRounds / 10 < 10 := by omega
  have h1 : logRounds % 10 < 10 := Nat.mod_lt _ (by decide)
  have hlogr : logRounds % 10 + logRounds / 10 * 10 = logRounds := by omega
  have hlen : ¬(encodeBase64 csalt.1 ++ rest).length * 3 / 4 < maxSalt := by
    rw [List.length_append, length_encodeBase64_salt, maxSalt]
    omega
  have hdecode : decodeBase64 maxSalt (encodeBase64 csalt.1 ++ rest) = some csalt.1 := by
    have h := decodeBase64_encodeBase64 csalt.1 rest
    rwa [csalt.2] at h
  have htext : header minor logRounds ++ encodeBase64 csalt.1 ++ rest =
      UInt8.ofNat '$'.toNat :: UInt8.ofNat '2'.toNat :: minor :: UInt8.ofNat '$'.toNat ::
        UInt8.ofNat (48 + logRounds / 10) :: UInt8.ofNat (48 + logRounds % 10) ::
          UInt8.ofNat '$'.toNat :: (encodeBase64 csalt.1 ++ rest) := by
    rw [List.append_assoc]
    rfl
  rw [htext, hashpassInternal]
  simp only [List.getD_cons_zero, List.getD_cons_succ, List.drop_succ_cons, List.drop_zero, hn,
    isDigit_twoDigits h10, isDigit_twoDigits h1, toNat_twoDigits h10, toNat_twoDigits h1, hlogr,
    ne_eq, not_true_eq_false, if_false, Bool.true_eq_false, or_self]
  rw [if_neg (by decide), if_neg (by omega), if_neg hlen, hdecode]
  rfl

/-- What comes out is the text of a hash: version, cost and salt are within their bounds. -/
theorem exists_of_hashpassInternal {space : Nat}
    (h : hashpassInternal key salt space = some out) :
    ∃ minor n logRounds csalt, keyLen minor key = some n ∧ 4 ≤ logRounds ∧ logRounds ≤ 31 ∧
      out = hashText minor n logRounds key csalt := by
  cases hn : keyLen ((salt.drop 1).getD 1 0) key with
  | none =>
    simp only [hashpassInternal, hn] at h
    split_ifs at h
  | some n =>
    simp only [hashpassInternal, hn] at h
    split_ifs at h with _ _ _ _ _ hlogr
    obtain ⟨csalt, hcsalt, rfl⟩ := Option.map_eq_some_iff.1 h
    rw [not_or, Nat.not_lt, Nat.not_lt] at hlogr
    exact ⟨_, n, _, ⟨csalt, length_of_decodeBase64 hcsalt⟩, hn, hlogr.1, hlogr.2, rfl⟩

/-- The comparison finds no difference exactly between equal strings. -/
theorem timingsafeBcmp_eq_zero_iff {b1 b2 : Bytes} (h : b1.length = b2.length) :
    timingsafeBcmp b1 b2 = 0 ↔ b1 = b2 := by
  have hfold (acc : UInt8) : (b1.zip b2).foldl (fun ret p => ret ||| (p.1 ^^^ p.2)) acc = 0 ↔
      acc = 0 ∧ b1 = b2 := by
    induction b1 generalizing b2 acc with
    | nil =>
      rw [List.eq_nil_of_length_eq_zero h.symm]
      exact (and_iff_left rfl).symm
    | cons a b1 ih =>
      cases b2 with
      | nil => cases h
      | cons b b2 =>
        rw [List.zip_cons_cons, List.foldl_cons, ih (Nat.succ.inj h), UInt8.or_eq_zero_iff,
          UInt8.xor_eq_zero_iff, and_assoc, List.cons.injEq]
  exact (hfold 0).trans (and_iff_right rfl)

/-- A text passes the check exactly if it is the text of the hash of the key under the salt, the
    cost and the version that it names. -/
theorem checkpass_eq_true_iff :
    checkpass key hash = true ↔ ∃ minor n logRounds csalt, keyLen minor key = some n ∧
      4 ≤ logRounds ∧ logRounds ≤ 31 ∧ hash = hashText minor n logRounds key csalt := by
  constructor
  · intro h
    rw [checkpass] at h
    split at h
    · cases h
    · next computed hcomputed =>
      obtain ⟨hlen, hcmp⟩ := Bool.and_eq_true_iff.1 h
      have heq := (timingsafeBcmp_eq_zero_iff (eq_of_beq hlen)).1 (eq_of_beq hcmp)
      rw [heq] at hcomputed
      exact exists_of_hashpassInternal hcomputed
  · rintro ⟨minor, n, logRounds, csalt, hn, hlow, hhigh, rfl⟩
    have h := hashpassInternal_header csalt
      (encodeBase64 ((bcryptRaw key n csalt.1 (2 ^ logRounds)).take 23)) hn hlow hhigh
    rw [← hashText] at h
    rw [checkpass, h]
    dsimp only
    rw [(timingsafeBcmp_eq_zero_iff rfl).2 rfl, beq_self_eq_true, Bool.true_and]
    rfl

/-! ## What the key schedule reads

Version `b` reads the key and its terminating zero, at most 73 bytes, in a circle. The eighteen
subkeys take 72 of them: a shorter key ends there with its zero, a longer one is cut. -/

variable {key' : Bytes} {n' : Nat}

/-- The words that the key schedule mixes into the subkeys. -/
def keyWords (key : Bytes) (n : Nat) : List UInt32 := streamWords (key ++ [0]) n 18 0

theorem keyLen_b (key : Bytes) :
    keyLen (UInt8.ofNat 'b'.toNat) key = some (min key.length 72 + 1) := by
  have hmin : (if 72 < key.length then 72 else key.length) = min key.length 72 := by
    split_ifs <;> omega
  rw [keyLen, if_neg (by decide), if_pos rfl, hmin]

/-- As long as the key goes, the stream is the key. -/
theorem streamAt_of_lt {t : Nat} (ht : t < min key.length 72) :
    streamAt (key ++ [0]) (min key.length 72 + 1) t = (key.take 72).getD t 0 := by
  have hkey : t < key.length := by omega
  have htake : t < (key.take 72).length := by rw [List.length_take]; omega
  rw [streamAt, Nat.mod_eq_of_lt (by omega), List.getD_append _ _ _ _ hkey,
    List.getD_eq_getElem _ _ hkey, List.getD_eq_getElem _ _ htake, List.getElem_take]

/-- After a short key comes its terminating zero. -/
theorem streamAt_length (h : key.length < 72) :
    streamAt (key ++ [0]) (min key.length 72 + 1) key.length = 0 := by
  rw [streamAt, Nat.mod_eq_of_lt (by omega), List.getD_append_right _ _ _ _ (Nat.le_refl _),
    Nat.sub_self]
  rfl

/-- The 72 bytes of the stream, up to the first zero, are the key as far as it is read. -/
theorem takeWhile_streamAt (h0 : 0 ∉ key) :
    ((List.range 72).map (streamAt (key ++ [0]) (min key.length 72 + 1))).takeWhile (· ≠ 0) =
      key.take 72 := by
  have htake : (List.range (min key.length 72)).map
      (streamAt (key ++ [0]) (min key.length 72 + 1)) = key.take 72 := by
    refine List.ext_getElem (by simp [Nat.min_comm]) fun t ht ht' => ?_
    rw [List.length_map, List.length_range] at ht
    rw [List.getElem_map, List.getElem_range, streamAt_of_lt ht, List.getD_eq_getElem]
  have h0' : (0 : UInt8) ∉ key.take 72 := fun h => h0 (List.mem_of_mem_take h)
  by_cases hlen : key.length < 72
  · have hmin : min key.length 72 = key.length := Nat.min_eq_left (Nat.le_of_lt hlen)
    obtain ⟨d, hd⟩ := Nat.exists_eq_add_of_lt hlen
    have hrange : List.range 72 = List.range key.length ++
        key.length :: (List.range d).map fun i => key.length + (i + 1) := by
      rw [hd, Nat.add_assoc, List.range_add, List.range_succ_eq_map, List.map_cons, List.map_map]
      rfl
    rw [hrange, List.map_append, List.map_cons, streamAt_length hlen]
    rw [hmin] at htake ⊢
    rw [htake]
    exact takeWhile_ne_append h0'
  · have hmin : min key.length 72 = 72 := Nat.min_eq_right (by omega)
    rw [hmin] at htake ⊢
    rw [htake]
    exact takeWhile_ne_of_notMem h0'

/-- The subkeys determine the key up to its byte 72, and depend on no more. -/
theorem keyWords_eq_iff (h : 0 ∉ key) (h' : 0 ∉ key')
    (hn : keyLen (UInt8.ofNat 'b'.toNat) key = some n)
    (hn' : keyLen (UInt8.ofNat 'b'.toNat) key' = some n') :
    keyWords key n = keyWords key' n' ↔ key.take 72 = key'.take 72 := by
  rw [keyLen_b, Option.some.injEq] at hn hn'
  subst hn hn'
  rw [keyWords, keyWords, streamWords_eq_iff _ _ (Nat.succ_pos _) (Nat.succ_pos _)]
  constructor
  · intro hall
    rw [← takeWhile_streamAt h, ← takeWhile_streamAt h']
    exact congrArg _ (List.map_congr_left fun t ht => hall t (List.mem_range.1 ht))
  · intro htake i hi
    have hlen : min 72 key.length = min 72 key'.length := by
      rw [← List.length_take, htake, List.length_take]
    by_cases hshort : key.length < 72
    · -- a short key is all of it
      rw [List.take_of_length_le (by omega), List.take_of_length_le (by omega)] at htake
      rw [htake]
    · rw [streamAt_of_lt (by omega), streamAt_of_lt (by omega), htake]

/-- Keys with the same subkeys have the same hash, under every salt and cost. -/
theorem bcryptRaw_congr (h : keyWords key n = keyWords key' n') (csalt : Bytes) (rounds : Nat) :
    bcryptRaw key n csalt rounds = bcryptRaw key' n' csalt rounds := by
  have hxor (c : BlfCtx) : xorKey c (key ++ [0]) n = xorKey c (key' ++ [0]) n' := by
    rw [keyWords, keyWords] at h
    rw [xorKey, xorKey, h]
  have hexpand : expandstate initstate csalt maxSalt (key ++ [0]) n =
      expandstate initstate csalt maxSalt (key' ++ [0]) n' := by
    rw [expandstate, expandstate, hxor]
  have hexpand0 : (fun c => expand0state (expand0state c (key ++ [0]) n) csalt maxSalt) =
      fun c => expand0state (expand0state c (key' ++ [0]) n') csalt maxSalt := by
    funext c
    rw [expand0state, expand0state, hxor]
    rfl
  simp only [bcryptRaw]
  rw [hexpand, hexpand0]

/-! ## The length of a text -/

theorem length_blfBlocks (f : UInt32 × UInt32 → UInt32 × UInt32) (blocks : Nat)
    (data : List UInt32) : (blfBlocks f blocks data).length = data.length := by
  fun_induction blfBlocks f blocks data with
  | case1 blocks x y d ih => rw [List.length_cons, List.length_cons, ih]; rfl
  | case2 blocks d hd => rfl

/-- Six words are encrypted. -/
theorem length_bcryptRaw (key : Bytes) (n : Nat) (csalt : Bytes) (rounds : Nat) :
    (bcryptRaw key n csalt rounds).length = 24 := by
  have hwords (state : BlfCtx) (k : Nat) (d : List UInt32) :
      ((fun d => blfEnc state d 3)^[k] d).length = d.length := by
    induction k generalizing d with
    | zero => rfl
    | succ k ih => rw [Function.iterate_succ_apply, ih, blfEnc, length_blfBlocks]
  have hbytes (l : List UInt32) : (l.flatMap wordBytes).length = 4 * l.length := by
    induction l with
    | nil => rfl
    | cons w l ih =>
      rw [List.flatMap_cons, List.length_append, ih, List.length_cons, Nat.mul_add, Nat.add_comm]
      rfl
  simp only [bcryptRaw]
  rw [hbytes, hwords]
  rfl

theorem length_encodeBase64_cipher {b : Bytes} (h : b.length = 23) :
    (encodeBase64 b).length = 31 := by
  match b, h with
  | [_, _, _, _, _, _, _, _, _, _, _, _, _, _, _, _, _, _, _, _, _, _, _], _ => rfl

/-- A text fills `BCRYPT_HASHSPACE`, with its terminating zero. -/
theorem length_hashText (minor : UInt8) (n logRounds : Nat) (key : Bytes) (csalt : Salt) :
    (hashText minor n logRounds key csalt).length + 1 = hashSpace := by
  rw [hashText, List.length_append, List.length_append, length_encodeBase64_salt,
    length_encodeBase64_cipher (by rw [List.length_take, length_bcryptRaw]; rfl)]
  rfl

theorem zero_notMem_encodeBase64 (b : Bytes) : 0 ∉ encodeBase64 b := by
  intro h
  obtain ⟨v, hv, heq⟩ := List.mem_map.1 h
  have hne : ∀ v < 64, base64Code.getD v 0 ≠ 0 := by decide +kernel
  exact hne v (Base64.lt_of_mem_sextets hv) heq

theorem zero_notMem_header (hminor : minor ≠ 0) (hn : logRounds ≤ 31) :
    0 ∉ header minor logRounds := by
  have hdigit : ∀ d < 10, (0 : UInt8) ≠ UInt8.ofNat (48 + d) := by decide
  simp only [header, twoDigits, List.mem_append, List.mem_cons, List.not_mem_nil, or_false, not_or]
  exact ⟨⟨⟨⟨by decide, hminor.symm⟩, by decide⟩, hdigit _ (by omega), hdigit _ (by omega)⟩,
    by decide⟩

/-- No character of a text ends it early. -/
theorem zero_notMem_hashText (hminor : minor ≠ 0) (hn : logRounds ≤ 31) (csalt : Salt) :
    0 ∉ hashText minor n logRounds key csalt := by
  rw [hashText, List.mem_append, List.mem_append, not_or, not_or]
  exact ⟨⟨zero_notMem_header hminor hn, zero_notMem_encodeBase64 _⟩, zero_notMem_encodeBase64 _⟩

/-! ## What a text determines -/

/-- Texts of one length in base 64 are those of the same bytes. -/
theorem encodeBase64_inj {b b' : Bytes} (hlen : b.length = b'.length)
    (h : encodeBase64 b = encodeBase64 b') : b = b' := by
  have hb := decodeBase64_encodeBase64 b []
  have hb' := decodeBase64_encodeBase64 b' []
  rw [h, hlen, hb'] at hb
  exact (Option.some.inj hb).symm

/-- The version, the cost, the salt and the bytes of the hash that are stored are those of the
    text. -/
theorem hashText_inj {minor' : UInt8} {logRounds' : Nat} {csalt csalt' : Salt}
    (hlow : logRounds ≤ 31) (hlow' : logRounds' ≤ 31)
    (h : hashText minor n logRounds key csalt = hashText minor' n' logRounds' key' csalt') :
    minor = minor' ∧ logRounds = logRounds' ∧ csalt = csalt' ∧
      (bcryptRaw key n csalt.1 (2 ^ logRounds)).take 23 =
        (bcryptRaw key' n' csalt'.1 (2 ^ logRounds')).take 23 := by
  rw [hashText, hashText, List.append_assoc, List.append_assoc] at h
  obtain ⟨hheader, htail⟩ := List.append_inj h rfl
  obtain ⟨hsalt, hcipher⟩ := List.append_inj htail
    ((length_encodeBase64_salt csalt).trans (length_encodeBase64_salt csalt').symm)
  have h10 : UInt8.ofNat (48 + logRounds / 10) = UInt8.ofNat (48 + logRounds' / 10) :=
    congrArg (·.getD 4 0) hheader
  have h1 : UInt8.ofNat (48 + logRounds % 10) = UInt8.ofNat (48 + logRounds' % 10) :=
    congrArg (·.getD 5 0) hheader
  have hsub10 := congrArg (fun c => c.toNat - 48) h10
  have hsub1 := congrArg (fun c => c.toNat - 48) h1
  rw [toNat_twoDigits (by omega), toNat_twoDigits (by omega)] at hsub10 hsub1
  refine ⟨congrArg (·.getD 2 0) hheader, by omega, ?_, encodeBase64_inj ?_ hcipher⟩
  · exact Subtype.ext (encodeBase64_inj (csalt.2.trans csalt'.2.symm) hsalt)
  · rw [List.length_take, List.length_take, length_bcryptRaw, length_bcryptRaw]

end LiteCode.Bcrypt
