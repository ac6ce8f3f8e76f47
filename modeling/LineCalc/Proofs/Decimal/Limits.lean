import LineCalc.Decimal.Numeral
import LineCalc.Proofs.Decimal.Exact

/-!
Numerals within the limits of the exponent. A numeral that denotes a number within the interval of
a finite value lies within these limits, so it is read as this value.
-/
namespace LineCalc.Decimal

open Binary

variable {n : Numeral} {mantissa : Nat} {exponent : Int}

def Numeral.size (n : Numeral) : ℚ := n.digits * 10 ^ n.exponent

theorem value_of_limits {value : Numeral} (some : value.digits ≠ 0)
    (low : -exponentLimit ≤ value.exponent + digitCount value.digits)
    (high : value.exponent + digitCount value.digits ≤ exponentLimit) :
    value.value = nearest value.negative (Ratio.scale ⟨value.digits, 1⟩ 10 value.exponent) := by
  unfold Numeral.value
  simp only
  rw [if_neg (by omega), if_neg (by omega)]

theorem size_limits (positive : 0 < n.digits) :
    (10 : ℚ) ^ (n.exponent + digitCount n.digits - 1) ≤ n.size ∧
      n.size < 10 ^ (n.exponent + digitCount n.digits) := by
  have unit : (0 : ℚ) < 10 ^ n.exponent := by positivity
  have some := digitCount_pos n.digits
  constructor
  · have low : (10 : ℚ) ^ (digitCount n.digits - 1) ≤ n.digits := by
      exact_mod_cast pow_digitCount_le positive
    have split : n.exponent + digitCount n.digits - 1 =
        ((digitCount n.digits - 1 : Nat) : Int) + n.exponent := by omega
    rw [split, zpow_add₀ (by norm_num), zpow_natCast]
    exact mul_le_mul_of_nonneg_right low unit.le
  · have high : (n.digits : ℚ) < 10 ^ digitCount n.digits := by
      exact_mod_cast lt_pow_digitCount n.digits
    rw [add_comm, zpow_add₀ (by norm_num), zpow_natCast]
    exact mul_lt_mul_of_pos_right high unit

theorem two_pow_lt_ten_pow {j k : Nat} (fewer : j ≤ 3 * k) (some : 0 < k) :
    (2 : ℚ) ^ j < 10 ^ k := by
  calc (2 : ℚ) ^ j ≤ 2 ^ (3 * k) := pow_le_pow_right₀ (by norm_num) fewer
    _ = 8 ^ k := by rw [pow_mul]; norm_num
    _ < 10 ^ k := pow_lt_pow_left₀ (by norm_num) (by norm_num) some.ne'

theorem lt_of_within (canonical : Canonical mantissa exponent) (positive : 0 < mantissa) {x : ℚ}
    (within : Within mantissa exponent x) : (10 : ℚ) ^ (-exponentLimit) < x := by
  have first : (1 : ℚ) ≤ mantissa := by exact_mod_cast positive
  have small := reach_le mantissa exponent
  have least : (2 : ℚ) ^ leastExponent ≤ 2 ^ exponent :=
    zpow_le_zpow_right₀ (by norm_num) canonical.least
  have half : (10 : ℚ) ^ (-exponentLimit) < 2 ^ (leastExponent - 1) := by
    have powers : (2 : ℚ) ^ 1075 < 10 ^ 400 := two_pow_lt_ten_pow (by norm_num) (by norm_num)
    exact (inv_lt_inv₀ (by positivity) (by positivity)).mpr powers
  calc (10 : ℚ) ^ (-exponentLimit) < 2 ^ (leastExponent - 1) := half
    _ = 1 / 2 * 2 ^ leastExponent := by
        rw [zpow_sub_one₀ (by norm_num)]
        ring
    _ ≤ (mantissa - reach mantissa exponent) * 2 ^ exponent :=
        mul_le_mul (by linarith) least (two_zpow_pos _).le (by linarith)
    _ ≤ x := within.low

theorem overflow_lt : overflow < 10 ^ (exponentLimit - 1) := by
  have powers : (2 : ℚ) ^ 1024 < 10 ^ 399 := two_pow_lt_ten_pow (by norm_num) (by norm_num)
  exact (sub_lt_self _ (by positivity)).trans powers

theorem ofFloat_value (canonical : Canonical mantissa exponent) (positive : 0 < mantissa)
    (within : Within mantissa exponent n.size) :
    ofFloat n.value = .finite n.negative mantissa exponent := by
  have above := lt_of_within canonical positive within
  have below := (lt_overflow_of_within canonical within).trans overflow_lt
  have some : 0 < n.digits := by
    rw [Nat.pos_iff_ne_zero]
    intro zero
    rw [Numeral.size, zero, Nat.cast_zero, zero_mul] at above
    exact absurd above (not_lt.mpr (by positivity))
  obtain ⟨first, next⟩ := size_limits some
  have low := (zpow_lt_zpow_iff_right₀ (by norm_num : (1 : ℚ) < 10)).mp (above.trans next)
  have high := (zpow_lt_zpow_iff_right₀ (by norm_num : (1 : ℚ) < 10)).mp (first.trans_lt below)
  rw [value_of_limits some.ne' (by omega) (by omega)]
  refine ofFloat_nearest canonical (nearestBits_of_within canonical ?_ ?_ ?_) n.negative
  · exact Nat.mul_pos some (by simp only [Nat.pow_eq]; positivity)
  · exact Ratio.scale_den_pos (by decide : 0 < 1) (by decide) n.exponent
  · rw [Ratio.value_scale _ (by decide)]
    simpa [Ratio.value, Numeral.size] using within

end LineCalc.Decimal
