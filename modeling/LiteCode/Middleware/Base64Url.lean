import LiteCode.Lib.Base64
import LiteCode.Lib.Cut
import LiteCode.Middleware.Bearer

/-!
# The decoder of tokens

The rate limiter reads the payload of a token with `base64url_decode` of
`src/middleware/rate_limit.h`. The text is brought into the standard alphabet and padded; a table
gives the six bits of a character, and a 32-bit accumulator holds those that are not used yet.

* `decodeLoop_eq`: the accumulator never loses or keeps a bit, so the loop unpacks the digits in
  front of the first `=`;
* `base64urlDecode_eq_bearer`: the decoder is the one that the reader of tokens is modelled with;
* `base64url_round_trip`: it undoes the encoding of any bytes, padded or not, and a character of
  neither alphabet makes the result empty.
-/

namespace LiteCode.Base64Url

open Base64 (sextets encode encodePadded unpack)

/-! ## The decoder -/

/-- `alpha`, the standard alphabet. -/
def alpha : Bytes := bytes "ABCDEFGHIJKLMNOPQRSTUVWXYZabcdefghijklmnopqrstuvwxyz0123456789+/"

/-- `kTbl`: the place of a character in the alphabet, with `none` for `kInvalid`. -/
def kTbl (c : UInt8) : Option Nat := alpha.idxOf? c

/-- A character of the alphabet for URLs in the standard alphabet. -/
def toStandard (c : UInt8) : UInt8 := if c = 0x2D then 0x2B else if c = 0x5F then 0x2F else c

/-- `normalized`, with its padding. -/
def normalize (text : Bytes) : Bytes :=
  text.map toStandard ++ List.replicate ((4 - text.length % 4) % 4) 0x3D

/-- The loop over the characters. -/
def decodeLoop (bits accumulator : UInt32) (out : Bytes) : Bytes → Bytes
  | [] => out
  | c :: rest =>
    if c = 0x3D then out
    else
      match kTbl c with
      | none => []
      | some v =>
        let accumulator := accumulator <<< 6 ||| UInt32.ofNat v
        let bits := bits + 6
        if 8 ≤ bits then
          let bits := bits - 8
          let out := out ++ [(accumulator >>> bits &&& 0xFF).toUInt8]
          decodeLoop bits (accumulator &&& ((1 <<< bits) - 1)) out rest
        else decodeLoop bits accumulator out rest

/-- `base64url_decode`. -/
def base64urlDecode (text : Bytes) : Bytes :=
  if text.isEmpty then [] else decodeLoop 0 0 [] (normalize text)

/-! ## What is meant -/

/-- The alphabet for URLs. -/
def urlAlphabet : Bytes := bytes "ABCDEFGHIJKLMNOPQRSTUVWXYZabcdefghijklmnopqrstuvwxyz0123456789-_"

/-- The digit of a character in either alphabet. -/
def digit (c : UInt8) : Option Nat := kTbl (toStandard c)

variable {acc bits n v : Nat} {c : UInt8} {b l text out : Bytes} {x : UInt32}

/-! ## The accumulator -/

/-- Six bits are added to those that are there. -/
theorem toNat_shift_or (hx : x.toNat < 2 ^ 8) (hv : v < 64) :
    (x <<< 6 ||| UInt32.ofNat v).toNat = x.toNat * 64 + v := by
  have hshift : (x <<< 6).toNat = x.toNat <<< 6 := by
    rw [UInt32.toNat_shiftLeft, Nat.shiftLeft_eq, Nat.shiftLeft_eq, Nat.mod_eq_of_lt]
    · rfl
    · change x.toNat * 2 ^ 6 < 2 ^ 32
      omega
  have hdigit : (UInt32.ofNat v).toNat = v := by
    rw [UInt32.toNat_ofNat']
    omega
  rw [UInt32.toNat_or, hshift, hdigit, ← Nat.shiftLeft_add_eq_or_of_lt (i := 6) hv,
    Nat.shiftLeft_eq]

theorem toNat_ofNat_mod (hn : n < 32) : (UInt32.ofNat n).toNat % 32 = n := by
  rw [UInt32.toNat_ofNat']
  omega

/-- The byte above the lowest `n` bits. -/
theorem toUInt8_shift (hn : n < 32) :
    (x >>> UInt32.ofNat n &&& 0xFF).toUInt8 = UInt8.ofNat (x.toNat / 2 ^ n) := by
  rw [← UInt8.toNat_inj, UInt32.toNat_toUInt8, UInt32.toNat_and, UInt32.toNat_shiftRight,
    toNat_ofNat_mod hn, Nat.shiftRight_eq_div_pow, UInt8.toNat_ofNat']
  change (_ &&& 2 ^ 8 - 1) % 2 ^ 8 = _
  rw [Nat.and_two_pow_sub_one_eq_mod, Nat.mod_mod]

/-- The mask keeps the lowest `n` bits. -/
theorem toNat_mask (hn : n < 32) :
    (x &&& ((1 <<< UInt32.ofNat n) - 1)).toNat = x.toNat % 2 ^ n := by
  have hpow : 2 ^ n < 2 ^ 32 := Nat.pow_lt_pow_right (by decide) hn
  have hone : (1 <<< UInt32.ofNat n : UInt32).toNat = 2 ^ n := by
    rw [UInt32.toNat_shiftLeft, toNat_ofNat_mod hn, Nat.shiftLeft_eq, UInt32.toNat_one, Nat.one_mul,
      Nat.mod_eq_of_lt hpow]
  have hle : (1 : UInt32) ≤ 1 <<< UInt32.ofNat n := by
    rw [UInt32.le_iff_toNat_le, hone]
    exact Nat.one_le_two_pow
  rw [UInt32.toNat_and, UInt32.toNat_sub_of_le _ _ hle, hone, UInt32.toNat_one,
    Nat.and_two_pow_sub_one_eq_mod]

/-! ## The loop -/

/-- The table has numbers of six bits. -/
theorem kTbl_lt (h : kTbl c = some v) : v < 64 := by
  obtain ⟨hlt, -⟩ := List.idxOf?_eq_some_iff.1 h
  exact hlt

/-- The digits in front of the padding. -/
def digits (text : Bytes) : Option (List Nat) := (text.takeWhile (· ≠ 0x3D)).mapM kTbl

/-- The first character is a digit, or the text is none. -/
theorem digits_cons (hc : c ≠ 0x3D) : digits (c :: text) =
    (kTbl c).bind fun v => (digits text).map (v :: ·) := by
  rw [digits, List.takeWhile_cons_of_pos (by simpa using hc), List.mapM_cons]
  cases kTbl c with
  | none => rfl
  | some v =>
    change (digits text).bind (fun l => some (v :: l)) = (digits text).map (v :: ·)
    cases digits text <;> rfl

/-- The count of the bits does not wrap around. -/
theorem le_bits_iff (hbits : bits < 8) : (8 : UInt32) ≤ UInt32.ofNat bits + 6 ↔ 8 ≤ bits + 6 := by
  rw [UInt32.le_iff_toNat_le, UInt32.toNat_add, UInt32.toNat_ofNat']
  change 8 ≤ (bits % 2 ^ 32 + 6) % 2 ^ 32 ↔ _
  omega

/-- Eight bits are taken off the count. -/
theorem bits_sub (hbits : bits < 8) (h : 8 ≤ bits + 6) :
    UInt32.ofNat bits + 6 - 8 = UInt32.ofNat (bits - 2) := by
  have hle := (le_bits_iff hbits).2 h
  rw [← UInt32.toNat_inj, UInt32.toNat_sub_of_le _ _ hle, UInt32.toNat_add, UInt32.toNat_ofNat',
    UInt32.toNat_ofNat']
  change (bits % 2 ^ 32 + 6) % 2 ^ 32 - 8 = _
  omega

/-- The loop unpacks the digits: before every character, the accumulator holds the unused bits and
    nothing else. -/
theorem decodeLoop_eq (hbits : bits < 8) (hacc : x.toNat < 2 ^ bits) :
    decodeLoop (UInt32.ofNat bits) x out text =
      ((digits text).map (out ++ unpack x.toNat bits ·)).getD [] := by
  induction text generalizing bits x out with
  | nil => simp [decodeLoop, digits, unpack]
  | cons c rest ih =>
    by_cases hc : c = 0x3D
    · simp [decodeLoop, digits, unpack, hc]
    rw [decodeLoop, if_neg hc, digits_cons hc]
    cases hv : kTbl c with
    | none => rfl
    | some v =>
      have hsmall : x.toNat < 2 ^ 8 := hacc.trans_le (Nat.pow_le_pow_right (by decide) (by omega))
      have hadd := toNat_shift_or hsmall (kTbl_lt hv)
      dsimp only
      generalize x <<< 6 ||| UInt32.ofNat v = y at hadd ⊢
      -- The digit completes a byte, or its bits only go into the accumulator.
      by_cases h : 8 ≤ bits + 6
      · have hkeep := toNat_mask (x := y) (n := bits - 2) (by omega)
        have hlt : y.toNat % 2 ^ (bits - 2) < 2 ^ (bits - 2) := Nat.mod_lt _ (Nat.two_pow_pos _)
        rw [if_pos ((le_bits_iff hbits).2 h), bits_sub hbits h, toUInt8_shift (by omega),
          ih (by omega) (hkeep.trans_lt hlt), hkeep, hadd, Option.bind_some, Option.map_map]
        cases digits rest with
        | none => rfl
        | some l => simp [Base64.unpack_cons_of_le h]
      · have hbits' : UInt32.ofNat bits + 6 = UInt32.ofNat (bits + 6) := by
          rw [UInt32.ofNat_add]
          rfl
        have hlt : y.toNat < 2 ^ (bits + 6) :=
          calc y.toNat = x.toNat * 64 + v := hadd
            _ < (x.toNat + 1) * 64 := by
              have := kTbl_lt hv
              omega
            _ ≤ 2 ^ bits * 64 := Nat.mul_le_mul_right 64 hacc
            _ = 2 ^ (bits + 6) := (Nat.pow_add 2 bits 6).symm
        rw [if_neg (mt (le_bits_iff hbits).1 h), hbits', ih (by omega) hlt, hadd, Option.bind_some,
          Option.map_map]
        cases digits rest with
        | none => rfl
        | some l => simp [Base64.unpack_cons_of_not_le h]

/-! ## Texts in either alphabet -/

/-- Only the padding is taken for padding. -/
theorem toStandard_eq_padding_iff : toStandard c = 0x3D ↔ c = 0x3D := by
  by_cases hminus : c = 0x2D
  · simp [toStandard, hminus]
  · by_cases hline : c = 0x5F
    · simp [toStandard, hline]
    · simp [toStandard, hminus, hline]

/-- More padding changes nothing. -/
theorem takeWhile_padding (l : Bytes) (k : Nat) :
    (l ++ List.replicate k 0x3D).takeWhile (· ≠ 0x3D) = l.takeWhile (· ≠ 0x3D) := by
  rcases cut_cases 0x3D l with h | ⟨a, d, rfl, h⟩
  · rw [takeWhile_ne_of_notMem h]
    cases k with
    | zero => rw [List.replicate_zero, List.append_nil, takeWhile_ne_of_notMem h]
    | succ k => exact takeWhile_ne_append h
  · rw [List.append_assoc, List.cons_append, takeWhile_ne_append h, takeWhile_ne_append h]

/-- The padding adds no digits. -/
theorem digits_normalize (text : Bytes) :
    digits (normalize text) = (text.takeWhile (· ≠ 0x3D)).mapM digit := by
  have htake : (normalize text).takeWhile (· ≠ 0x3D) =
      (text.takeWhile (· ≠ 0x3D)).map toStandard := by
    rw [normalize, takeWhile_padding, List.takeWhile_map]
    congr 2
    funext c
    exact decide_eq_decide.2 (not_congr toStandard_eq_padding_iff)
  rw [digits, htake, List.mapM_map]
  rfl

/-- The loop unpacks the digits in front of the padding. -/
theorem base64urlDecode_eq (text : Bytes) : base64urlDecode text =
    (((text.takeWhile (· ≠ 0x3D)).mapM digit).map (unpack 0 0)).getD [] := by
  rw [base64urlDecode, ← digits_normalize]
  split
  · next h =>
    rw [List.isEmpty_iff.1 h]
    rfl
  · exact decodeLoop_eq (show 0 < 8 by decide) (by decide)

/-- A character of the alphabet is the digit of its place. -/
theorem digit_urlAlphabet : ∀ v < 64, digit (urlAlphabet.getD v 0) = some v := by decide +kernel

theorem urlAlphabet_ne_padding : ∀ v < 64, urlAlphabet.getD v 0 ≠ 0x3D := by decide +kernel

/-- The digits of an encoded text are those of its bytes. -/
theorem mapM_digit_encode (b : Bytes) : (encode urlAlphabet b).mapM digit = some (sextets b) := by
  have hall : ∀ v ∈ sextets b, v < 64 := fun v => Base64.lt_of_mem_sextets
  rw [encode, List.mapM_map]
  generalize sextets b = l at hall
  induction l with
  | nil => rfl
  | cons v l ih =>
    rw [List.mapM_cons, Function.comp_apply, digit_urlAlphabet v (hall v List.mem_cons_self),
      ih fun w hw => hall w (List.mem_cons_of_mem _ hw)]
    rfl

/-- An encoded text has no padding. -/
theorem padding_notMem_encode : 0x3D ∉ encode urlAlphabet b := by
  intro h
  obtain ⟨v, hv, heq⟩ := List.mem_map.1 h
  exact urlAlphabet_ne_padding v (Base64.lt_of_mem_sextets hv) heq

/-- A character of neither alphabet is no digit. -/
theorem digit_eq_none (hurl : c ∉ urlAlphabet) (hstandard : c ∉ alpha) : digit c = none := by
  have hminus : c ≠ 0x2D := by
    rintro rfl
    exact hurl (by decide)
  have hline : c ≠ 0x5F := by
    rintro rfl
    exact hurl (by decide)
  rw [digit, toStandard, if_neg hminus, if_neg hline, kTbl, List.idxOf?_eq_none_iff]
  exact hstandard

/-! ## The decoder and the encoding -/

/-- The standard alphabet has the same digits. -/
theorem base64Digit_alpha : ∀ v < 64, Bearer.base64Digit (alpha.getD v 0) = some v := by
  decide +kernel

/-- A digit is a character of the standard alphabet. -/
theorem toStandard_mem_alpha {c : UInt8} (h : Bearer.base64Digit c ≠ none) :
    toStandard c ∈ alpha := by
  have hall : ∀ n : Fin 256, Bearer.base64Digit (UInt8.ofNat n) ≠ none →
      toStandard (UInt8.ofNat n) ∈ alpha := by decide +kernel
  have h' := hall ⟨c.toNat, c.toNat_lt⟩
  rw [UInt8.ofNat_toNat] at h'
  exact h' h

/-- The translation keeps the digits. -/
theorem base64Digit_toStandard (c : UInt8) :
    Bearer.base64Digit (toStandard c) = Bearer.base64Digit c := by
  rw [toStandard]
  split_ifs with hminus hline
  · rw [hminus]
    rfl
  · rw [hline]
    rfl
  · rfl

/-- The reader of tokens takes the same digits. -/
theorem digit_eq_base64Digit (c : UInt8) : digit c = Bearer.base64Digit c := by
  cases h : digit c with
  | none =>
    have hnot : toStandard c ∉ alpha := List.idxOf?_eq_none_iff.1 h
    exact (by_contra fun hne : Bearer.base64Digit c ≠ none => hnot (toStandard_mem_alpha hne)).symm
  | some v =>
    obtain ⟨hlt, heq, -⟩ := List.idxOf?_eq_some_iff.1 h
    have hc : alpha.getD v 0 = toStandard c := by
      rw [List.getD_eq_getElem?_getD, List.getElem?_eq_getElem hlt]
      exact heq
    rw [← base64Digit_toStandard, ← hc, base64Digit_alpha v hlt]

/-- A byte is cut out by a division. -/
theorem ofNat_shift (m n : Nat) : UInt8.ofNat (m >>> n &&& 0xFF) = UInt8.ofNat (m / 2 ^ n) := by
  rw [← UInt8.toNat_inj, UInt8.toNat_ofNat', UInt8.toNat_ofNat', Nat.shiftRight_eq_div_pow]
  change (_ &&& 2 ^ 8 - 1) % 2 ^ 8 = _
  rw [Nat.and_two_pow_sub_one_eq_mod, Nat.mod_mod]

/-- The other decoder unpacks the same digits. -/
theorem decodeDigits_eq (acc bits : Nat) (text : Bytes) :
    Bearer.decodeDigits acc bits text =
      ((text.takeWhile (· ≠ 0x3D)).mapM digit).map (unpack acc bits) := by
  induction text generalizing acc bits with
  | nil => rfl
  | cons c rest ih =>
    by_cases hc : c = 0x3D
    · rw [Bearer.decodeDigits, if_pos (by simpa using hc),
        List.takeWhile_cons_of_neg (by simpa using hc)]
      rfl
    rw [Bearer.decodeDigits, if_neg (by simpa using hc),
      List.takeWhile_cons_of_pos (by simpa using hc), List.mapM_cons, ← digit_eq_base64Digit]
    cases hv : digit c with
    | none => rfl
    | some v =>
      have hadd : acc <<< 6 ||| v = acc * 64 + v := by
        rw [← Nat.shiftLeft_add_eq_or_of_lt (i := 6) (kTbl_lt hv), Nat.shiftLeft_eq]
      have hbits : bits + 6 - 8 = bits - 2 := by omega
      simp only [hadd, hbits, Nat.one_shiftLeft, Nat.and_two_pow_sub_one_eq_mod, ofNat_shift, ih]
      by_cases h : 8 ≤ bits + 6
      · rw [if_pos h, Option.map_map]
        cases (rest.takeWhile (· ≠ 0x3D)).mapM digit with
        | none => rfl
        | some l => simp [Base64.unpack_cons_of_le h]
      · rw [if_neg h]
        cases (rest.takeWhile (· ≠ 0x3D)).mapM digit with
        | none => rfl
        | some l => simp [Base64.unpack_cons_of_not_le h]

/-- Both decoders agree. -/
theorem base64urlDecode_eq_bearer (text : Bytes) :
    base64urlDecode text = Bearer.base64urlDecode text := by
  rw [base64urlDecode_eq, Bearer.base64urlDecode, decodeDigits_eq]

/-- Decoding undoes the encoding of any bytes, with and without padding. A text with a character of
    neither alphabet in front of the padding gives nothing. -/
theorem base64url_round_trip :
    (∀ b, base64urlDecode (encode urlAlphabet b) = b) ∧
    (∀ b, base64urlDecode (encodePadded urlAlphabet b) = b) ∧
    ∀ (p q : Bytes) (c : UInt8), 0x3D ∉ p → c ≠ 0x3D → c ∉ urlAlphabet → c ∉ alpha →
      base64urlDecode (p ++ c :: q) = [] := by
  refine ⟨fun b => ?_, fun b => ?_, fun p q c hp hc hurl hstandard => ?_⟩
  · rw [base64urlDecode_eq, takeWhile_ne_of_notMem padding_notMem_encode, mapM_digit_encode,
      Option.map_some, Base64.unpack_sextets]
    rfl
  · rw [base64urlDecode_eq, encodePadded, takeWhile_padding,
      takeWhile_ne_of_notMem padding_notMem_encode, mapM_digit_encode, Option.map_some,
      Base64.unpack_sextets]
    rfl
  · have htake : (p ++ c :: q).takeWhile (· ≠ 0x3D) = p ++ c :: q.takeWhile (· ≠ 0x3D) := by
      rw [List.takeWhile_append_of_pos (forall_ne_of_notMem hp),
        List.takeWhile_cons_of_pos (by simpa using hc)]
    have hnone : (p ++ c :: q.takeWhile (· ≠ 0x3D)).mapM digit = none := by
      rw [List.mapM_append, List.mapM_cons, digit_eq_none hurl hstandard]
      cases p.mapM digit <;> rfl
    rw [base64urlDecode_eq, htake, hnone]
    rfl

/-- One, two and three bytes, and a blank between two characters. -/
theorem base64url_round_trip_blank :
    base64urlDecode (encode urlAlphabet [0xFB, 0xFF]) = [0xFB, 0xFF] ∧
    base64urlDecode (encodePadded urlAlphabet [0xFB]) = [0xFB] ∧
    base64urlDecode (bytes "A" ++ 0x20 :: bytes "A==") = [] :=
  ⟨base64url_round_trip.1 _, base64url_round_trip.2.1 _,
    base64url_round_trip.2.2 _ _ _ (by decide) (by decide) (by decide) (by decide)⟩

end LiteCode.Base64Url
