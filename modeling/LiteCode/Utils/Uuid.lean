import LiteCode.Lib.Bytes
import Mathlib.Data.List.Basic

/-!
# Universally unique ids

`src/utils/uuid.h`: an id of version 4, made of two random words. Six bits of the words are replaced
by the version and the variant, the others are written in hexadecimal digits with four dashes. The
words are arguments.

* `generateUuidV4_spec`: the text of an id;
* `generateUuidV4_eq_iff`: two ids are the same exactly if the words agree in the other 122 bits.
-/

namespace LiteCode

/-- The byte `i` of a word, from the lowest one on. -/
def byteAt (w : UInt64) (i : Nat) : UInt8 := (w >>> UInt64.ofNat (8 * i)).toUInt8

/-- The sixteen bytes, with the version and the variant. -/
def uuidBytes (hi lo : UInt64) : Bytes :=
  let b := (List.range 8).map (byteAt hi) ++ (List.range 8).map (byteAt lo)
  let b := b.set 6 (b.getD 6 0 &&& 0x0F ||| 0x40)
  b.set 8 (b.getD 8 0 &&& 0x3F ||| 0x80)

/-- A digit of `%02x`. -/
def hexDigit (d : UInt8) : UInt8 := if d < 10 then 0x30 + d else 0x57 + d

/-- `%02x` of each byte. -/
def hex (b : Bytes) : Bytes :=
  b.flatMap fun (c : UInt8) => [hexDigit (c >>> 4), hexDigit (c &&& 0x0F)]

/-- A dash. -/
def dash : UInt8 := 0x2D

/-- `generate_uuid_v4`, from its two random words. -/
def generateUuidV4 (hi lo : UInt64) : Bytes :=
  let b := uuidBytes hi lo
  hex (b.take 4) ++ dash :: hex ((b.drop 4).take 2) ++ dash :: hex ((b.drop 6).take 2) ++
    dash :: hex ((b.drop 8).take 2) ++ dash :: hex (b.drop 10)

/-- A lower case hexadecimal digit. -/
def IsHexDigit (c : UInt8) : Prop := 0x30 ≤ c ∧ c ≤ 0x39 ∨ 0x61 ≤ c ∧ c ≤ 0x66

/-- The text of an id of version 4. -/
structure IsUuid (id : Bytes) : Prop where
  length : id.length = 36
  chars : ∀ c ∈ id, IsHexDigit c ∨ c = dash
  dashes : ∀ i ∈ [8, 13, 18, 23], id[i]? = some dash
  version : id[14]? = some 0x34
  variant : ∃ c ∈ bytes "89ab", id[19]? = some c

/-! ## The bytes of a word -/

theorem toNat_byteAt (w : UInt64) {i : Nat} (hi : i < 8) :
    (byteAt w i).toNat = w.toNat / 2 ^ (8 * i) % 2 ^ 8 := by
  have h : (UInt64.ofNat (8 * i)).toNat % 64 = 8 * i := by
    rw [UInt64.toNat_ofNat']
    omega
  rw [byteAt, UInt64.toNat_toUInt8, UInt64.toNat_shiftRight, h, Nat.shiftRight_eq_div_pow]

/-- A word is determined by its bytes. -/
theorem eq_of_byteAt {v w : UInt64} (h : ∀ i < 8, byteAt v i = byteAt w i) : v = w := by
  -- from the highest byte down: what is left above the other bytes is the same
  have habove (k : Nat) (hk : k ≤ 8) :
      v.toNat / 2 ^ (8 * (8 - k)) = w.toNat / 2 ^ (8 * (8 - k)) := by
    induction k with
    | zero =>
      change v.toNat / 2 ^ 64 = w.toNat / 2 ^ 64
      rw [Nat.div_eq_of_lt v.toNat_lt, Nat.div_eq_of_lt w.toNat_lt]
    | succ k ih =>
      have hi : 8 - (k + 1) < 8 := by omega
      have hbyte : v.toNat / 2 ^ (8 * (8 - (k + 1))) % 2 ^ 8 =
          w.toNat / 2 ^ (8 * (8 - (k + 1))) % 2 ^ 8 := by
        rw [← toNat_byteAt v hi, ← toNat_byteAt w hi, h _ hi]
      have hsplit : 8 * (8 - k) = 8 * (8 - (k + 1)) + 8 := by omega
      have hdiv (n : Nat) : n / 2 ^ (8 * (8 - k)) = n / 2 ^ (8 * (8 - (k + 1))) / 2 ^ 8 := by
        rw [hsplit, Nat.pow_add, Nat.div_div_eq_div_mul]
      have hhigh := ih (by omega)
      rw [hdiv, hdiv] at hhigh
      rw [← Nat.div_add_mod (v.toNat / 2 ^ (8 * (8 - (k + 1)))) (2 ^ 8), hhigh, hbyte,
        Nat.div_add_mod]
  have hall := habove 8 (Nat.le_refl 8)
  rw [Nat.sub_self, Nat.mul_zero, Nat.pow_zero, Nat.div_one, Nat.div_one] at hall
  exact UInt64.toNat_inj.1 hall

theorem byteAt_and (v w : UInt64) (i : Nat) : byteAt (v &&& w) i = byteAt v i &&& byteAt w i := by
  rw [byteAt, UInt64.shiftRight_and, UInt64.toUInt8_and]
  rfl

theorem byteAt_or (v w : UInt64) (i : Nat) : byteAt (v ||| w) i = byteAt v i ||| byteAt w i := by
  rw [byteAt, UInt64.shiftRight_or, UInt64.toUInt8_or]
  rfl

/-- The bits of the first word that are not those of the version. -/
def versionMask : UInt64 := 0xFF0FFFFFFFFFFFFF

/-- The bits of the second word that are not those of the variant. -/
def variantMask : UInt64 := 0xFFFFFFFFFFFFFF3F

theorem map_byteAt (w : UInt64) : (List.range 8).map (byteAt w) =
    [byteAt w 0, byteAt w 1, byteAt w 2, byteAt w 3, byteAt w 4, byteAt w 5, byteAt w 6,
      byteAt w 7] := rfl

/-- The version and the variant are put into the words. -/
theorem uuidBytes_eq (hi lo : UInt64) :
    uuidBytes hi lo = (List.range 8).map (byteAt (hi &&& versionMask ||| 0x40000000000000)) ++
      (List.range 8).map (byteAt (lo &&& variantMask ||| 0x80)) := by
  have hkeep (b : UInt8) : b &&& 0xFF ||| 0 = b := by
    rw [UInt8.or_zero]
    exact UInt8.and_neg_one
  have hmask : (List.range 8).map (byteAt versionMask) = [0xFF, 0xFF, 0xFF, 0xFF, 0xFF, 0xFF,
      0x0F, 0xFF] := by decide +kernel
  have hversion : (List.range 8).map (byteAt 0x40000000000000) = [0, 0, 0, 0, 0, 0, 0x40, 0] := by
    decide +kernel
  have hmask' : (List.range 8).map (byteAt variantMask) = [0x3F, 0xFF, 0xFF, 0xFF, 0xFF, 0xFF,
      0xFF, 0xFF] := by decide +kernel
  have hvariant : (List.range 8).map (byteAt 0x80) = [0x80, 0, 0, 0, 0, 0, 0, 0] := by
    decide +kernel
  simp only [map_byteAt, List.cons.injEq, and_true] at hmask hversion hmask' hvariant
  simp only [uuidBytes, map_byteAt, byteAt_or, byteAt_and, hmask, hversion, hmask', hvariant, hkeep]
  rfl

/-- Bits that are set beside a mask do not matter. -/
theorem eq_of_and_or {v w m c : UInt64} (hc : c &&& m = 0)
    (h : v &&& m ||| c = w &&& m ||| c) : v &&& m = w &&& m := by
  apply UInt64.toBitVec_inj.1
  apply BitVec.eq_of_getLsbD_eq
  intro i hi
  have hci := congrArg (fun x : UInt64 => x.toBitVec.getLsbD i) hc
  have hbit := congrArg (fun x : UInt64 => x.toBitVec.getLsbD i) h
  simp only [UInt64.toBitVec_and, UInt64.toBitVec_or, UInt64.toBitVec_zero, BitVec.getLsbD_and,
    BitVec.getLsbD_or, BitVec.getLsbD_zero] at hci hbit ⊢
  revert hci hbit
  cases m.toBitVec.getLsbD i <;> cases c.toBitVec.getLsbD i <;> simp

/-- Two ids have the same bytes exactly if the words agree in what they give to them. -/
theorem uuidBytes_eq_iff {hi lo hi' lo' : UInt64} : uuidBytes hi lo = uuidBytes hi' lo' ↔
    hi &&& versionMask = hi' &&& versionMask ∧ lo &&& variantMask = lo' &&& variantMask := by
  constructor
  · intro h
    rw [uuidBytes_eq, uuidBytes_eq] at h
    obtain ⟨hhi, hlo⟩ := List.append_inj h (by rw [List.length_map, List.length_map])
    have hmem {f g : Nat → UInt8} (h : (List.range 8).map f = (List.range 8).map g) (i : Nat)
        (hi : i < 8) : f i = g i := List.map_inj_left.1 h i (List.mem_range.2 hi)
    -- the bits that are put in are none of the masks
    exact ⟨eq_of_and_or (by decide +kernel) (eq_of_byteAt (hmem hhi)),
      eq_of_and_or (by decide +kernel) (eq_of_byteAt (hmem hlo))⟩
  · rintro ⟨hhi, hlo⟩
    rw [uuidBytes_eq, uuidBytes_eq, hhi, hlo]

/-! ## The text -/

/-- The digits of a byte give it back. -/
theorem hexDigits_inj {b c : UInt8} (h₁ : hexDigit (b >>> 4) = hexDigit (c >>> 4))
    (h₀ : hexDigit (b &&& 0x0F) = hexDigit (c &&& 0x0F)) : b = c := by
  have hhigh (x : UInt8) : (x >>> 4).toNat = x.toNat / 16 := by
    rw [UInt8.toNat_shiftRight, Nat.shiftRight_eq_div_pow]
    rfl
  have hlow (x : UInt8) : (x &&& 0x0F).toNat = x.toNat % 16 :=
    (UInt8.toNat_and x 0x0F).trans (Nat.and_two_pow_sub_one_eq_mod x.toNat 4)
  have hdigit {d e : UInt8} (hd : d.toNat < 16) (he : e.toNat < 16)
      (h : hexDigit d = hexDigit e) : d.toNat = e.toNat := by
    simp only [hexDigit, ← UInt8.toNat_inj, UInt8.lt_iff_toNat_lt] at h
    split_ifs at h <;> simp only [UInt8.toNat_add, UInt8.toNat_ofNat] at * <;> omega
  have hb := b.toNat_lt
  have hc := c.toNat_lt
  have h₁ := hdigit (by rw [hhigh]; omega) (by rw [hhigh]; omega) h₁
  have h₀ := hdigit (by rw [hlow]; omega) (by rw [hlow]; omega) h₀
  rw [hhigh, hhigh] at h₁
  rw [hlow, hlow] at h₀
  apply UInt8.toNat_inj.1
  omega

theorem hex_inj {b c : Bytes} (h : hex b = hex c) : b = c := by
  induction b generalizing c with
  | nil =>
    cases c with
    | nil => rfl
    | cons y c => cases h
  | cons x b ih =>
    cases c with
    | nil => cases h
    | cons y c =>
      obtain ⟨h₁, h⟩ := List.cons.inj h
      obtain ⟨h₀, h⟩ := List.cons.inj h
      rw [hexDigits_inj h₁ h₀, ih h]

theorem length_hex (b : Bytes) : (hex b).length = 2 * b.length := by
  induction b with
  | nil => rfl
  | cons x b ih =>
    have hcons : hex (x :: b) = hexDigit (x >>> 4) :: hexDigit (x &&& 0x0F) :: hex b := rfl
    rw [hcons, List.length_cons, List.length_cons, ih, List.length_cons]
    omega

theorem length_uuidBytes (hi lo : UInt64) : (uuidBytes hi lo).length = 16 := by
  rw [uuidBytes_eq, List.length_append, List.length_map, List.length_map, List.length_range]

theorem isHexDigit_hexDigit {d : UInt8} (hd : d.toNat < 16) : IsHexDigit (hexDigit d) := by
  simp only [IsHexDigit, hexDigit, UInt8.le_iff_toNat_le, UInt8.lt_iff_toNat_lt]
  split_ifs <;> simp only [UInt8.toNat_add, UInt8.toNat_ofNat] at * <;> omega

theorem isHexDigit_of_mem_hex {b : Bytes} {c : UInt8} (h : c ∈ hex b) : IsHexDigit c := by
  obtain ⟨x, -, hc⟩ := List.mem_flatMap.1 h
  have hx := x.toNat_lt
  rcases List.mem_cons.1 hc with rfl | hc
  · refine isHexDigit_hexDigit ?_
    have hshift : (x >>> 4).toNat = x.toNat / 16 := by
      rw [UInt8.toNat_shiftRight, Nat.shiftRight_eq_div_pow]
      rfl
    omega
  · rw [List.mem_singleton.1 hc]
    refine isHexDigit_hexDigit ?_
    have hand : (x &&& 0x0F).toNat = x.toNat % 16 :=
      (UInt8.toNat_and x 0x0F).trans (Nat.and_two_pow_sub_one_eq_mod x.toNat 4)
    omega

/-- The version and the variant are digits of their own. -/
theorem generateUuidV4_spec (hi lo : UInt64) : IsUuid (generateUuidV4 hi lo) := by
  have hlength := length_uuidBytes hi lo
  constructor
  · simp only [generateUuidV4, List.length_append, List.length_cons, length_hex, List.length_take,
      List.length_drop, hlength]
    rfl
  · intro c hc
    simp only [generateUuidV4, List.mem_append, List.mem_cons] at hc
    rcases hc with (((h | h | h) | h | h) | h | h) | h | h
    all_goals first | exact .inr h | exact .inl (isHexDigit_of_mem_hex h)
  · intro i hi
    simp only [List.mem_cons, List.not_mem_nil, or_false] at hi
    rcases hi with rfl | rfl | rfl | rfl <;> rfl
  · have hdigit (x : UInt8) : (x &&& 0x0F ||| 0x40) >>> 4 = 4 := by
      rw [UInt8.shiftRight_or, UInt8.shiftRight_and, show (0x0F : UInt8) >>> 4 = 0 from rfl,
        UInt8.and_zero, UInt8.zero_or]
      rfl
    exact congrArg (fun d => some (hexDigit d)) (hdigit (byteAt hi 6))
  · have hdigit (x : UInt8) : hexDigit ((x &&& 0x3F ||| 0x80) >>> 4) ∈ bytes "89ab" := by
      rw [UInt8.shiftRight_or, UInt8.shiftRight_and, show (0x3F : UInt8) >>> 4 = 3 from rfl]
      have hand : ((x >>> 4) &&& 3).toNat = (x >>> 4).toNat % 4 :=
        (UInt8.toNat_and _ 3).trans (Nat.and_two_pow_sub_one_eq_mod _ 2)
      have hall : ∀ n < 4, hexDigit (UInt8.ofNat n ||| (0x80 : UInt8) >>> 4) ∈ bytes "89ab" := by
        decide
      rw [← UInt8.ofNat_toNat (x := (x >>> 4) &&& 3), hand]
      exact hall _ (Nat.mod_lt _ (by decide))
    exact ⟨_, hdigit (byteAt lo 0), rfl⟩

/-- Two ids are the same exactly if the words agree but for the bits of the version and the
    variant. -/
theorem generateUuidV4_eq_iff {hi lo hi' lo' : UInt64} :
    generateUuidV4 hi lo = generateUuidV4 hi' lo' ↔
      hi &&& versionMask = hi' &&& versionMask ∧ lo &&& variantMask = lo' &&& variantMask := by
  rw [← uuidBytes_eq_iff]
  constructor
  · intro h
    have hlen := length_uuidBytes hi lo
    have hlen' := length_uuidBytes hi' lo'
    have hparts (b : Bytes) : b = b.take 4 ++ ((b.drop 4).take 2 ++ ((b.drop 6).take 2 ++
        ((b.drop 8).take 2 ++ b.drop 10))) := by
      have h₈ := List.take_append_drop 2 (b.drop 8)
      have h₆ := List.take_append_drop 2 (b.drop 6)
      have h₄ := List.take_append_drop 2 (b.drop 4)
      rw [List.drop_drop] at h₈ h₆ h₄
      rw [h₈, h₆, h₄, List.take_append_drop]
    simp only [generateUuidV4] at h
    obtain ⟨h, h₁₀⟩ := List.append_inj' h (by simp [length_hex, hlen, hlen'])
    obtain ⟨h, h₈⟩ := List.append_inj' h (by simp [length_hex, hlen, hlen'])
    obtain ⟨h, h₆⟩ := List.append_inj' h (by simp [length_hex, hlen, hlen'])
    obtain ⟨h, h₄⟩ := List.append_inj' h (by simp [length_hex, hlen, hlen'])
    rw [hparts (uuidBytes hi lo), hparts (uuidBytes hi' lo'), hex_inj h,
      hex_inj (List.cons.inj h₄).2, hex_inj (List.cons.inj h₆).2, hex_inj (List.cons.inj h₈).2,
      hex_inj (List.cons.inj h₁₀).2]
  · intro h
    rw [generateUuidV4, generateUuidV4, h]

end LiteCode
