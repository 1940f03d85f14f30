import Mathlib.Data.Int.Log
import Mathlib.Data.Rat.Floor
import Mathlib.Tactic.FieldSimp
import Mathlib.Tactic.Linarith
import Mathlib.Tactic.Positivity

/-! # Rounding to significant binary digits

The numbers with at most so many significant binary digits are, between two powers of two, the multiples
of a spacing. Rounding takes the nearest multiple, and of two equally near ones the even one. What has no
more digits stays as it is, and the relative error is at most half a unit in the last digit.
-/

namespace RabbitJobQueue.Machine

/-- The nearest whole number; of two equally near ones the even one. -/
def nearestEven (x : ℚ) : ℤ :=
  if x - ⌊x⌋ < 1 / 2 then ⌊x⌋
  else if 1 / 2 < x - ⌊x⌋ then ⌊x⌋ + 1
  else if ⌊x⌋ % 2 = 0 then ⌊x⌋ else ⌊x⌋ + 1

/-- The distance of neighbouring numbers with so many significant digits, around `x`. -/
def spacing (digits : ℕ) (x : ℚ) : ℚ := 2 ^ (Int.log 2 x + 1 - digits)

/-- `x` rounded to so many significant binary digits, ties to even. -/
def roundTo (digits : ℕ) (x : ℚ) : ℚ := nearestEven (x / spacing digits x) * spacing digits x

variable {digits : ℕ} {x : ℚ}

private theorem nearestEven_intCast (number : ℤ) : nearestEven number = number := by
  rw [nearestEven, Int.floor_intCast, sub_self, if_pos (by norm_num)]

private theorem abs_nearestEven_sub_le (x : ℚ) : |nearestEven x - x| ≤ 1 / 2 := by
  have below := Int.floor_le x
  have above := Int.lt_floor_add_one x
  unfold nearestEven
  split
  · rw [abs_le]
    constructor <;> linarith
  · split
    · push_cast
      rw [abs_le]
      constructor <;> linarith
    · split
      · rw [abs_le]
        constructor <;> linarith
      · push_cast
        rw [abs_le]
        constructor <;> linarith

private theorem spacing_pos : 0 < spacing digits x := zpow_pos (by norm_num) _

/-- The spacing is at most `x` in units of the first digit. -/
theorem spacing_mul_le (positive : 0 < x) : spacing digits x * 2 ^ digits ≤ 2 * x := by
  have first : (2 : ℚ) ^ Int.log 2 x ≤ x := Int.zpow_log_le_self (by norm_num) positive
  have split : spacing digits x * 2 ^ digits = 2 * 2 ^ Int.log 2 x := by
    rw [spacing, ← zpow_natCast (2 : ℚ) digits, ← zpow_add₀ (by norm_num), sub_add_cancel,
      zpow_add_one₀ (by norm_num), mul_comm]
  rw [split]
  linarith

/-- The relative error of rounding. -/
theorem abs_roundTo_sub_le (digits : ℕ) (positive : 0 < x) : |roundTo digits x - x| * 2 ^ digits ≤ x := by
  have unit : 0 < spacing digits x := spacing_pos
  have near := abs_nearestEven_sub_le (x / spacing digits x)
  have error : |roundTo digits x - x| ≤ spacing digits x / 2 := by
    have whole : roundTo digits x - x =
        (nearestEven (x / spacing digits x) - x / spacing digits x) * spacing digits x := by
      rw [roundTo, sub_mul, div_mul_cancel₀ x unit.ne']
    rw [whole, abs_mul, abs_of_pos unit]
    nlinarith
  have relative : spacing digits x * 2 ^ digits ≤ 2 * x := spacing_mul_le positive
  have power : (0 : ℚ) < 2 ^ digits := by positivity
  nlinarith

/-- A number that has no more digits is not changed. -/
theorem roundTo_of_fits {mantissa : ℕ} {exponent : ℤ} (fits : mantissa < 2 ^ digits)
    (same : x = mantissa * 2 ^ exponent) : roundTo digits x = x := by
  rcases Nat.eq_zero_or_pos mantissa with rfl | some
  · have zero : x = 0 := by simp [same]
    have none : nearestEven (0 : ℚ) = 0 := nearestEven_intCast 0
    rw [zero, roundTo, zero_div, none, Int.cast_zero, zero_mul]
  · have positive : 0 < x := by
      rw [same]
      exact mul_pos (Nat.cast_pos.mpr some) (zpow_pos (by norm_num) _)
    have below : x < (2 : ℕ) ^ (digits + exponent) := by
      rw [same, Nat.cast_ofNat, zpow_add₀ (by norm_num), zpow_natCast]
      have bound : (mantissa : ℚ) < 2 ^ digits := by exact_mod_cast fits
      exact mul_lt_mul_of_pos_right bound (zpow_pos (by norm_num) _)
    have high : Int.log 2 x < digits + exponent := (Int.lt_zpow_iff_log_lt (by norm_num) positive).mp below
    -- the last digit of the mantissa is worth a whole number of spacings
    obtain ⟨shift, last⟩ := Int.eq_ofNat_of_zero_le (by omega : 0 ≤ exponent - (Int.log 2 x + 1 - digits))
    have multiple : x / spacing digits x = ((mantissa * 2 ^ shift : ℕ) : ℤ) := by
      rw [div_eq_iff spacing_pos.ne', spacing]
      push_cast
      rw [← zpow_natCast (2 : ℚ) shift, mul_assoc, ← zpow_add₀ (by norm_num), ← last, sub_add_cancel]
      exact same
    rw [roundTo, multiple, nearestEven_intCast, ← multiple, div_mul_cancel₀ x spacing_pos.ne']

end RabbitJobQueue.Machine
