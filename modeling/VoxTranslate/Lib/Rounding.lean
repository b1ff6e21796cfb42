import Mathlib.Data.Int.Log
import Mathlib.Data.Rat.Floor
import Mathlib.Tactic.Linarith
import Mathlib.Tactic.FieldSimp

/-!
# Rounding to significant bits

Binary floating point keeps so many significant bits of a number: of the numbers that have no more
it takes the nearest, and the even one of two that are as near.  The rounded number is off by half
a unit in the last place at most, which is a fixed share of the number itself.
-/

namespace Lib

/-- The nearest integer, and the even one of two. -/
def nearestEven (q : ℚ) : ℤ :=
  if q - ⌊q⌋ < 1 / 2 ∨ (q - ⌊q⌋ = 1 / 2 ∧ ⌊q⌋ % 2 = 0) then ⌊q⌋ else ⌊q⌋ + 1

/-- The unit in the last place of a number that is kept to `bits` significant bits. -/
def lastPlace (bits : ℕ) (q : ℚ) : ℚ := 2 ^ (Int.log 2 |q| + 1 - bits)

/-- The number kept to `bits` significant bits, whatever its magnitude. -/
def roundTo (bits : ℕ) (q : ℚ) : ℚ := nearestEven (q / lastPlace bits q) * lastPlace bits q

example : roundTo 24 (4 / 5) = 13421773 / 2 ^ 24 := by decide +kernel

variable {bits : ℕ} {q : ℚ}

lemma abs_nearestEven_sub_le (q : ℚ) : |nearestEven q - q| ≤ 1 / 2 := by
  have hfloor := Int.floor_le q
  have hlt := Int.lt_floor_add_one q
  rw [abs_le, nearestEven]
  split_ifs with hbelow
  · have hhalf : q - ⌊q⌋ ≤ 1 / 2 := by
      rcases hbelow with hbelow | ⟨heq, -⟩
      · exact hbelow.le
      · exact heq.le
    constructor <;> linarith
  · have hhalf : 1 / 2 ≤ q - ⌊q⌋ := by
      by_contra hnot
      exact hbelow (.inl (not_le.mp hnot))
    push_cast
    constructor <;> linarith

lemma lastPlace_pos (bits : ℕ) (q : ℚ) : 0 < lastPlace bits q := zpow_pos (by norm_num) _

lemma lastPlace_le (hq : q ≠ 0) : lastPlace bits q * 2 ^ bits ≤ 2 * |q| := by
  have hlog : (2 : ℚ) ^ Int.log 2 |q| ≤ |q| := by
    exact_mod_cast Int.zpow_log_le_self (b := 2) one_lt_two (abs_pos.mpr hq)
  have hplace : lastPlace bits q * 2 ^ bits = 2 * 2 ^ Int.log 2 |q| := by
    rw [lastPlace, ← zpow_natCast, ← zpow_add₀ two_ne_zero, sub_add_cancel, zpow_add_one₀ two_ne_zero,
      mul_comm]
  rw [hplace]
  linarith

/-- **The relative error of rounding.** -/
lemma abs_roundTo_sub_le (bits : ℕ) (q : ℚ) : |roundTo bits q - q| * 2 ^ bits ≤ |q| := by
  by_cases hq : q = 0
  · subst hq
    simp [roundTo, nearestEven]
  have hpos := lastPlace_pos bits q
  have herror : roundTo bits q - q =
      (nearestEven (q / lastPlace bits q) - q / lastPlace bits q) * lastPlace bits q := by
    rw [roundTo, sub_mul, div_mul_cancel₀ _ hpos.ne']
  have hhalf : |roundTo bits q - q| ≤ 1 / 2 * lastPlace bits q := by
    rw [herror, abs_mul, abs_of_pos hpos]
    exact mul_le_mul_of_nonneg_right (abs_nearestEven_sub_le _) hpos.le
  have hpower : (0 : ℚ) < 2 ^ bits := by positivity
  calc |roundTo bits q - q| * 2 ^ bits
      ≤ 1 / 2 * lastPlace bits q * 2 ^ bits := mul_le_mul_of_nonneg_right hhalf hpower.le
    _ = 1 / 2 * (lastPlace bits q * 2 ^ bits) := mul_assoc _ _ _
    _ ≤ 1 / 2 * (2 * |q|) := mul_le_mul_of_nonneg_left (lastPlace_le hq) (by norm_num)
    _ = |q| := by ring

/-- Kept to four bits or more, a number changes by a sixteenth at most. -/
lemma roundTo_bounds (hbits : 4 ≤ bits) (hq : 0 ≤ q) :
    15 * q ≤ 16 * roundTo bits q ∧ 16 * roundTo bits q ≤ 17 * q := by
  have hpower : (16 : ℚ) ≤ 2 ^ bits := by
    have := pow_le_pow_right₀ (one_le_two (α := ℚ)) hbits
    linarith
  have herror : |roundTo bits q - q| * 16 ≤ q := by
    have := abs_roundTo_sub_le bits q
    rw [abs_of_nonneg hq] at this
    exact (mul_le_mul_of_nonneg_left hpower (abs_nonneg _)).trans this
  obtain ⟨hlo, hhi⟩ := abs_le.mp (le_refl |roundTo bits q - q|)
  constructor <;> linarith

end Lib
