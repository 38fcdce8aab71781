import Mathlib.Algebra.Order.Archimedean.Basic
import Mathlib.Algebra.Order.Field.Power
import Mathlib.Data.Int.Log
import Mathlib.Data.Rat.Floor
import Mathlib.Tactic.FieldSimp
import Mathlib.Tactic.Linarith
import Mathlib.Tactic.NormNum
import Mathlib.Tactic.Positivity

/-!
# Binary64

The result of an operation on binary64 numbers is the exact one, rounded to the nearest number with
53 digits; of two that are equally near, it is the one whose last digit is even. Exponents are not
bounded here, so that this is the rounding of all numbers that are neither very large nor very
small.

* `round`: the rounding of a rational;
* `Representable`: the numbers of the format; `representable_round`: the rounded ones are;
  `Representable.round_eq`: and rounding leaves them as they are;
* `Representable.sub_one`: counting down is exact.
-/

namespace LiteCode.Binary64

/-- The nearest integer, the even one of two. -/
def nearest (x : ℚ) : ℤ :=
  if Int.fract x < 1 / 2 ∨ Int.fract x = 1 / 2 ∧ ⌊x⌋ % 2 = 0 then ⌊x⌋ else ⌊x⌋ + 1

/-- The unit of the last digit of a number. -/
def ulp (x : ℚ) : ℚ := 2 ^ (Int.log 2 |x| - 52)

/-- The nearest number of the format. -/
def round (x : ℚ) : ℚ := nearest (x / ulp x) * ulp x

/-- A number of 53 digits, times a power of two. -/
def Representable (x : ℚ) : Prop := ∃ m k : ℤ, |m| < 2 ^ 53 ∧ x = m * 2 ^ k

variable {x : ℚ}

/-- An integer is its own nearest one. -/
theorem nearest_intCast (n : ℤ) : nearest n = n := by
  rw [nearest, Int.fract_intCast, Int.floor_intCast, if_pos (.inl (by norm_num))]

theorem ulp_pos (x : ℚ) : 0 < ulp x := zpow_pos (by norm_num) _

/-- A number that is a multiple of its last digit is not rounded. -/
theorem round_of_eq_mul {n : ℤ} (h : x = n * ulp x) : round x = x := by
  have hn : x / ulp x = n := by
    rw [div_eq_iff (ulp_pos x).ne', ← h]
  rw [round, hn, nearest_intCast, ← h]

/-- A power of two that is no fraction. -/
theorem zpow_two_eq_natCast {k : ℤ} (hk : 0 ≤ k) : ∃ n : ℤ, (2 : ℚ) ^ k = n := by
  obtain ⟨j, rfl⟩ := Int.eq_ofNat_of_zero_le hk
  exact ⟨2 ^ j, by push_cast; rfl⟩

/-- The numbers of the format are as they are. -/
theorem Representable.round_eq (h : Representable x) : round x = x := by
  obtain ⟨m, k, hm, rfl⟩ := h
  by_cases h0 : m = 0
  · rw [h0, Int.cast_zero, zero_mul]
    exact round_of_eq_mul (n := 0) (by simp)
  · set x : ℚ := m * 2 ^ k with hx
    have hpos : 0 < |x| := by
      rw [abs_pos, hx]
      exact mul_ne_zero (Int.cast_ne_zero.2 h0) (zpow_ne_zero _ (by norm_num))
    have habs : |x| = |(m : ℚ)| * 2 ^ k := by
      rw [hx, abs_mul, abs_zpow, abs_two]
    -- the last digit of `x` is not below the one of `2 ^ k`
    have hlt : |x| < 2 ^ (k + 53) := by
      rw [habs, zpow_add₀ (by norm_num), mul_comm]
      refine mul_lt_mul_of_pos_left ?_ (zpow_pos (by norm_num) k)
      exact_mod_cast hm
    have hlog : Int.log 2 |x| < k + 53 := (Int.lt_zpow_iff_log_lt (by norm_num) hpos).1 hlt
    obtain ⟨n, hn⟩ := zpow_two_eq_natCast (k := k - (Int.log 2 |x| - 52)) (by omega)
    refine round_of_eq_mul (n := m * n) ?_
    rw [ulp, Int.cast_mul, ← hn, mul_assoc, ← zpow_add₀ (by norm_num), sub_add_cancel]

/-- With 53 digits it may be the next power of two. -/
theorem representable_mul_zpow {n : ℤ} (h : |n| ≤ 2 ^ 53) (k : ℤ) : Representable (n * 2 ^ k) := by
  rcases h.lt_or_eq with hlt | heq
  · exact ⟨n, k, hlt, rfl⟩
  · have hhalf : ∃ m : ℤ, |m| < 2 ^ 53 ∧ n = m * 2 := by
      rcases abs_eq (by norm_num) |>.1 heq with rfl | rfl
      · exact ⟨2 ^ 52, by norm_num, by norm_num⟩
      · exact ⟨-2 ^ 52, by norm_num, by norm_num⟩
    obtain ⟨m, hm, rfl⟩ := hhalf
    refine ⟨m, k + 1, hm, ?_⟩
    rw [zpow_add_one₀ (by norm_num), Int.cast_mul, Int.cast_ofNat]
    ring

/-- The nearest integer is within the same bound. -/
theorem abs_nearest_le {n : ℕ} (h : |x| < n) : |nearest x| ≤ n := by
  obtain ⟨hlow, hhigh⟩ := abs_lt.1 h
  have hfloor : -(n : ℤ) ≤ ⌊x⌋ := by
    refine Int.le_floor.2 ?_
    push_cast
    exact hlow.le
  have hlt : ⌊x⌋ < n := Int.floor_lt.2 (by exact_mod_cast hhigh)
  rw [nearest, abs_le]
  split_ifs <;> omega

/-- What is rounded is a number of the format. -/
theorem representable_round (x : ℚ) : Representable (round x) := by
  refine representable_mul_zpow ?_ _
  have hscaled : |x / ulp x| < (2 ^ 53 : ℕ) := by
    rw [abs_div, abs_of_pos (ulp_pos x), div_lt_iff₀ (ulp_pos x), ulp, Nat.cast_pow, Nat.cast_ofNat,
      ← zpow_natCast, ← zpow_add₀ (by norm_num)]
    have hlt := Int.lt_zpow_succ_log_self (b := 2) (by norm_num) |x|
    have hexp : ((53 : ℕ) : ℤ) + (Int.log 2 |x| - 52) = Int.log 2 |x| + 1 := by
      push_cast
      ring
    rw [hexp]
    exact_mod_cast hlt
  exact_mod_cast abs_nearest_le hscaled

/-- Integers of up to 53 digits are of the format. -/
theorem representable_intCast {n : ℤ} (h : |n| ≤ 2 ^ 53) : Representable n := by
  simpa using representable_mul_zpow h 0

/-- One is a whole number of last digits of a number that is neither below one nor very large. -/
theorem Representable.sub_one (h : Representable x) (hone : 1 ≤ x) (hle : x ≤ 2 ^ 53) :
    Representable (x - 1) := by
  obtain ⟨m, k, hm, rfl⟩ := h
  rcases le_or_gt 0 k with hk | hk
  · obtain ⟨n, hn⟩ := zpow_two_eq_natCast hk
    rw [hn] at hone hle ⊢
    have hone' : 1 ≤ m * n := by exact_mod_cast hone
    have hle' : m * n ≤ 2 ^ 53 := by exact_mod_cast hle
    have habs : |m * n - 1| ≤ 2 ^ 53 := by
      rw [abs_of_nonneg (by omega)]
      omega
    simpa using representable_intCast habs
  · obtain ⟨n, hn⟩ := zpow_two_eq_natCast (k := -k) (by omega)
    have hinv : (n : ℚ) * 2 ^ k = 1 := by
      rw [← hn, ← zpow_add₀ (by norm_num), neg_add_cancel, zpow_zero]
    have hpos : (0 : ℚ) < 2 ^ k := zpow_pos (by norm_num) k
    have hnm : n ≤ m := by
      have hle : (n : ℚ) * 2 ^ k ≤ m * 2 ^ k := by rw [hinv]; exact hone
      exact_mod_cast le_of_mul_le_mul_right hle hpos
    have hn0 : 0 < n := by
      have hpos' : (0 : ℚ) < n := hn ▸ zpow_pos (by norm_num) (-k)
      exact_mod_cast hpos'
    refine ⟨m - n, k, ?_, ?_⟩
    · rw [abs_lt] at hm ⊢
      omega
    · rw [Int.cast_sub, sub_mul, hinv]

end LiteCode.Binary64
