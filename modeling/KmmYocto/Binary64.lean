import Mathlib

/-!
# Rounding to 53 bits

The value of a floating-point operation on two numbers is the exact result,
rounded to a multiple of the unit in its last place, and to the even one of two
that are equally near.  Zero, infinities and the subnormal range are left out:
the results are of ordinary size.

The relative error of one rounding is at most 2⁻⁵³, and an integer that is
nearer than a half is what the rounding to an integer gives.
-/

namespace KmmYocto.Binary64

/-- Round to an integer, half to even. -/
def roundEven (x : ℚ) : ℤ :=
  if x - ⌊x⌋ < 1 / 2 then ⌊x⌋
  else if 1 / 2 < x - ⌊x⌋ then ⌊x⌋ + 1
  else if ⌊x⌋ % 2 = 0 then ⌊x⌋
  else ⌊x⌋ + 1

/-- The unit in the last place of 53 bits. -/
def ulp (x : ℚ) : ℚ :=
  (2 : ℚ) ^ (Int.log 2 |x| - 52)

/-- The nearest number with 53 bits. -/
def round (x : ℚ) : ℚ :=
  roundEven (x / ulp x) * ulp x

theorem abs_roundEven_sub_le (x : ℚ) : |(roundEven x : ℚ) - x| ≤ 1 / 2 := by
  have lower := Int.floor_le x
  have upper := Int.lt_floor_add_one x
  rw [roundEven, abs_le]
  split_ifs with below above even
  · constructor <;> linarith
  · push_cast
    constructor <;> linarith
  · constructor <;> linarith
  · push_cast
    constructor <;> linarith

/-- An integer that is nearer than a half is the rounded value. -/
theorem roundEven_eq {x : ℚ} {n : ℤ} (near : |x - n| < 1 / 2) :
    roundEven x = n := by
  have error := abs_roundEven_sub_le x
  rw [abs_lt] at near
  rw [abs_le] at error
  have upper : ((roundEven x : ℤ) : ℚ) < (n + 1 : ℤ) := by
    push_cast
    linarith
  have lower : ((n - 1 : ℤ) : ℚ) < (roundEven x : ℤ) := by
    push_cast
    linarith
  have upper' := Int.cast_lt.mp upper
  have lower' := Int.cast_lt.mp lower
  omega

theorem ulp_pos (x : ℚ) : 0 < ulp x :=
  zpow_pos (by norm_num) _

theorem ulp_le {x : ℚ} (nonzero : x ≠ 0) : ulp x ≤ |x| / 2 ^ 52 := by
  have power : ((2 : ℕ) : ℚ) ^ Int.log 2 |x| ≤ |x| :=
    Int.zpow_log_le_self (by norm_num) (abs_pos.mpr nonzero)
  rw [ulp, zpow_sub₀ (by norm_num)]
  exact div_le_div_of_nonneg_right (by exact_mod_cast power) (by positivity)

/-- One rounding changes a number by at most 2⁻⁵³ of it. -/
theorem abs_round_sub_le (x : ℚ) : |round x - x| ≤ |x| / 2 ^ 53 := by
  by_cases zero : x = 0
  · have nothing : round x = 0 := by
      rw [round, zero, zero_div, roundEven_eq (n := 0) (by norm_num)]
      norm_num
    rw [nothing, zero]
    norm_num
  · have positive := ulp_pos x
    have split :
        round x - x = (roundEven (x / ulp x) - x / ulp x) * ulp x := by
      rw [round, sub_mul, div_mul_cancel₀ _ positive.ne']
    rw [split, abs_mul, abs_of_pos positive]
    calc
      |(roundEven (x / ulp x) : ℚ) - x / ulp x| * ulp x ≤
          1 / 2 * (|x| / 2 ^ 52) :=
        mul_le_mul (abs_roundEven_sub_le _) (ulp_le zero) positive.le
          (by norm_num)
      _ = |x| / 2 ^ 53 := by ring

/-- Two numbers that are near a third one are near each other. -/
theorem abs_sub_lt_half {x y n : ℚ} (nonneg : 0 ≤ n) (bound : n < 2 ^ 50)
    (first : |y - n| ≤ n / 2 ^ 53) (second : |x - y| ≤ |y| / 2 ^ 53) :
    |x - n| < 1 / 2 := by
  have small : n / 2 ^ 53 ≤ 1 / 8 := by
    rw [div_le_div_iff₀ (by norm_num) (by norm_num)]
    linarith
  have near : |y - n| ≤ 1 / 8 := first.trans small
  have size : |y| ≤ 2 ^ 50 + 1 := by
    calc
      |y| = |y - n + n| := by rw [sub_add_cancel]
      _ ≤ |y - n| + |n| := abs_add_le _ _
      _ ≤ 1 + 2 ^ 50 := by
        rw [abs_of_nonneg nonneg]
        linarith
      _ = 2 ^ 50 + 1 := add_comm _ _
  have moved : |y| / 2 ^ 53 ≤ 1 / 4 := by
    rw [div_le_div_iff₀ (by norm_num) (by norm_num)]
    linarith
  calc
    |x - n| = |(x - y) + (y - n)| := by rw [sub_add_sub_cancel]
    _ ≤ |x - y| + |y - n| := abs_add_le _ _
    _ < 1 / 2 := by linarith

/-- A decimal fraction with so few digits is read back as it was written. -/
theorem roundEven_round_mul {n scale : ℕ} (positive : 0 < scale)
    (small : n < 2 ^ 50) :
    roundEven (round (round ((n : ℚ) / scale) * scale)) = n := by
  have scalePos : (0 : ℚ) < scale := by exact_mod_cast positive
  have nonneg : (0 : ℚ) ≤ n := Nat.cast_nonneg n
  have bound : (n : ℚ) < 2 ^ 50 := by exact_mod_cast small
  have quotient := abs_round_sub_le ((n : ℚ) / scale)
  rw [abs_of_nonneg (div_nonneg nonneg scalePos.le)] at quotient
  -- the error of the division, brought back to the scale of `n`
  have scaled : |round ((n : ℚ) / scale) * scale - n| ≤ n / 2 ^ 53 := by
    have factor :
        round ((n : ℚ) / scale) * scale - n =
          (round ((n : ℚ) / scale) - n / scale) * scale := by
      rw [sub_mul, div_mul_cancel₀ _ scalePos.ne']
    rw [factor, abs_mul, abs_of_pos scalePos]
    calc
      |round ((n : ℚ) / scale) - n / scale| * scale ≤
          n / scale / 2 ^ 53 * scale :=
        mul_le_mul_of_nonneg_right quotient scalePos.le
      _ = n / 2 ^ 53 := by
        rw [div_right_comm, div_mul_cancel₀ _ scalePos.ne']
  apply roundEven_eq
  exact abs_sub_lt_half nonneg bound scaled (abs_round_sub_le _)

end KmmYocto.Binary64
