import LiteCode.Lib.Bytes

/-!
# Base 64

In base 64 (RFC 4648) three bytes are four digits of six bits. One or two bytes that are left over
are two or three digits, with zeros for the bits that they do not fill; padding may follow them. A
decoder adds the six bits of a digit to those it has not used yet, and takes a byte off as soon as
there are eight.

* `sextets`: the digits of a byte string; `encode`, `encodePadded`: its text in an alphabet;
* `unpack`: the bytes of a row of digits, with the bits in front that are not used yet;
* `unpack_sextets`: the digits of a byte string are unpacked to it.
-/

namespace LiteCode.Base64

/-- The digits of a byte string, group by group. -/
def sextets : Bytes → List Nat
  | a :: b :: c :: rest =>
    a.toNat / 4 :: (a.toNat % 4 * 16 + b.toNat / 16) :: (b.toNat % 16 * 4 + c.toNat / 64) ::
      c.toNat % 64 :: sextets rest
  | [a, b] => [a.toNat / 4, a.toNat % 4 * 16 + b.toNat / 16, b.toNat % 16 * 4]
  | [a] => [a.toNat / 4, a.toNat % 4 * 16]
  | [] => []

/-- The text of a byte string, without padding. -/
def encode (alphabet : Bytes) (b : Bytes) : Bytes := (sextets b).map (alphabet.getD · 0)

/-- The text of a byte string, padded to whole groups. -/
def encodePadded (alphabet : Bytes) (b : Bytes) : Bytes :=
  encode alphabet b ++ List.replicate ((3 - b.length % 3) % 3) 0x3D

/-- The bytes of a row of digits. There are `bits` unused bits, with the value `acc`. -/
def unpack (acc bits : Nat) : List Nat → Bytes
  | [] => []
  | v :: l =>
    if 8 ≤ bits + 6 then
      UInt8.ofNat ((acc * 64 + v) / 2 ^ (bits - 2)) ::
        unpack ((acc * 64 + v) % 2 ^ (bits - 2)) (bits - 2) l
    else unpack (acc * 64 + v) (bits + 6) l

/-- A digit that fills a byte. -/
theorem unpack_cons_of_le {acc bits v : Nat} {l : List Nat} (h : 8 ≤ bits + 6) :
    unpack acc bits (v :: l) = UInt8.ofNat ((acc * 64 + v) / 2 ^ (bits - 2)) ::
      unpack ((acc * 64 + v) % 2 ^ (bits - 2)) (bits - 2) l := by
  rw [unpack, if_pos h]

theorem unpack_cons_of_not_le {acc bits v : Nat} {l : List Nat} (h : ¬8 ≤ bits + 6) :
    unpack acc bits (v :: l) = unpack (acc * 64 + v) (bits + 6) l := by
  rw [unpack, if_neg h]

variable {b : Bytes} {v : Nat}

theorem lt_of_mem_sextets (hv : v ∈ sextets b) : v < 64 := by
  induction b using sextets.induct with
  | case1 a b c rest ih =>
    have ha := a.toNat_lt
    have hb := b.toNat_lt
    have hc := c.toNat_lt
    simp only [sextets, List.mem_cons] at hv
    rcases hv with rfl | rfl | rfl | rfl | hv
    · omega
    · omega
    · omega
    · omega
    · exact ih hv
  | case2 a b =>
    have ha := a.toNat_lt
    have hb := b.toNat_lt
    simp only [sextets, List.mem_cons, List.not_mem_nil, or_false] at hv
    omega
  | case3 a =>
    have ha := a.toNat_lt
    simp only [sextets, List.mem_cons, List.not_mem_nil, or_false] at hv
    omega
  | case4 => cases hv

/-! ## Unpacking

A group starts without unused bits. Its digits leave six, four, two and no bits. -/

section Steps

variable (acc : Nat) (v : Nat) (l : List Nat)

theorem unpack_zero : unpack acc 0 (v :: l) = unpack (acc * 64 + v) 6 l := rfl

theorem unpack_six : unpack acc 6 (v :: l) =
    UInt8.ofNat ((acc * 64 + v) / 16) :: unpack ((acc * 64 + v) % 16) 4 l := rfl

theorem unpack_four : unpack acc 4 (v :: l) =
    UInt8.ofNat ((acc * 64 + v) / 4) :: unpack ((acc * 64 + v) % 4) 2 l := rfl

theorem unpack_two : unpack acc 2 (v :: l) = UInt8.ofNat (acc * 64 + v) :: unpack 0 0 l := by
  rw [unpack, if_pos (by decide), Nat.pow_zero, Nat.div_one, Nat.mod_one]

end Steps

theorem ofNat_eq {n : Nat} {a : UInt8} (h : n = a.toNat) : UInt8.ofNat n = a := by
  rw [h, UInt8.ofNat_toNat]

/-- The digits of a byte string are unpacked to it. -/
theorem unpack_sextets (b : Bytes) : unpack 0 0 (sextets b) = b := by
  induction b using sextets.induct with
  | case1 a b c rest ih =>
    have hb := b.toNat_lt
    have hc := c.toNat_lt
    rw [sextets, unpack_zero, unpack_six, unpack_four, unpack_two, ih, ofNat_eq (a := a),
      ofNat_eq (a := b), ofNat_eq (a := c)]
    · omega
    · omega
    · omega
  | case2 a b =>
    have hb := b.toNat_lt
    rw [sextets, unpack_zero, unpack_six, unpack_four, unpack, ofNat_eq (a := a), ofNat_eq (a := b)]
    · omega
    · omega
  | case3 a =>
    rw [sextets, unpack_zero, unpack_six, unpack, ofNat_eq (a := a)]
    omega
  | case4 => rfl

end LiteCode.Base64
