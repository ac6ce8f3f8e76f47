import LineCalc.Decimal
import Mathlib.Algebra.Order.Field.Power
import Mathlib.Algebra.Order.Field.Rat
import Mathlib.Tactic.FieldSimp
import Mathlib.Tactic.Linarith
import Mathlib.Tactic.Positivity
import Mathlib.Tactic.Ring

/-!
The rational numbers that ratios stand for. Scaling multiplies by a power of the base, comparing
compares the numbers, and the rounded quotient is the integer nearest to the number, an even one
if two are as near.
-/
namespace LineCalc.Decimal

theorem distance_scaled (x k : ℚ) {unit : ℚ} (positive : 0 < unit) :
    |x - k * unit| = |x / unit - k| * unit := by
  calc |x - k * unit| = |(x / unit - k) * unit| := by rw [sub_mul, div_mul_cancel₀ x positive.ne']
    _ = |x / unit - k| * unit := by rw [abs_mul, abs_of_pos positive]

section Rounding

/-- n is the integer nearest to x, and is even if another one is as near. -/
def Rounded (x : ℚ) (n : Nat) : Prop := |x - n| ≤ 1 / 2 ∧ (|x - n| = 1 / 2 → n % 2 = 0)

variable {x : ℚ} {n k : Nat}

theorem rounded_self (n : Nat) : Rounded n n := by
  constructor <;> norm_num

theorem one_le_distances (x : ℚ) (differ : k ≠ n) : 1 ≤ |x - n| + |x - k| := by
  have apart : (1 : ℚ) ≤ |(n : ℚ) - k| := by
    exact_mod_cast Int.one_le_abs (by omega : (n : Int) - k ≠ 0)
  calc (1 : ℚ) ≤ |(n : ℚ) - k| := apart
    _ ≤ |(n : ℚ) - x| + |x - k| := abs_sub_le _ _ _
    _ = |x - n| + |x - k| := by rw [abs_sub_comm (n : ℚ)]

theorem rounded_unique (one : Rounded x n) (other : Rounded x k) : n = k := by
  by_contra differ
  have apart := one_le_distances x (Ne.symm differ)
  have even := one.2 (by linarith [one.1, other.1])
  have even' := other.2 (by linarith [one.1, other.1])
  have close : |(n : ℚ) - k| ≤ 1 := by
    have between := abs_sub_le (n : ℚ) x k
    rw [abs_sub_comm (n : ℚ) x] at between
    linarith [one.1, other.1]
  have close' : |(n : Int) - k| ≤ 1 := by exact_mod_cast close
  rw [abs_le] at close'
  omega

theorem le_of_rounded (rounded : Rounded x n) (k : Nat) :
    |x - n| ≤ |x - k| ∧ (|x - n| = |x - k| → k = n ∨ n % 2 = 0) := by
  by_cases same : k = n
  · rw [same]
    exact ⟨le_refl _, fun _ => Or.inl rfl⟩
  · have apart := one_le_distances x same
    have near := rounded.1
    exact ⟨by linarith, fun equal => Or.inr (rounded.2 (by linarith))⟩

theorem rounded_roundDiv (num : Nat) {den : Nat} (positive : 0 < den) :
    Rounded (num / den) (roundDiv num den) := by
  have denPos : (0 : ℚ) < den := by exact_mod_cast positive
  have split : (num : ℚ) / den = (num / den : Nat) + (num % den : Nat) / den := by
    have whole : (den : ℚ) * (num / den : Nat) + (num % den : Nat) = num := by
      exact_mod_cast Nat.div_add_mod num den
    field_simp
    linarith
  have part : (0 : ℚ) ≤ (num % den : Nat) / den := by positivity
  unfold roundDiv Rounded
  split_ifs with low high
  · have below : ((num % den : Nat) : ℚ) / den < 1 / 2 := by
      rw [div_lt_div_iff₀ denPos (by norm_num)]
      exact_mod_cast (by omega : num % den * 2 < 1 * den)
    rw [split, add_sub_cancel_left, abs_of_nonneg part]
    exact ⟨below.le, fun same => absurd same below.ne⟩
  · have above : 1 / 2 < ((num % den : Nat) : ℚ) / den := by
      rw [div_lt_div_iff₀ (by norm_num) denPos]
      exact_mod_cast (by omega : 1 * den < num % den * 2)
    have less : ((num % den : Nat) : ℚ) / den < 1 := by
      rw [div_lt_one denPos]
      exact_mod_cast Nat.mod_lt num positive
    have rest : (num : ℚ) / den - (num / den + 1 : Nat) = (num % den : Nat) / den - 1 := by
      rw [split]
      push_cast
      ring
    rw [rest, abs_of_nonpos (by linarith)]
    exact ⟨by linarith, fun same => absurd same (by linarith)⟩
  · have half : ((num % den : Nat) : ℚ) / den = 1 / 2 := by
      rw [div_eq_div_iff denPos.ne' (by norm_num)]
      exact_mod_cast (by omega : num % den * 2 = 1 * den)
    rcases Nat.mod_two_eq_zero_or_one (num / den) with even | odd
    · rw [even, Nat.add_zero, split, add_sub_cancel_left, half]
      exact ⟨by norm_num, fun _ => even⟩
    · rw [odd, split, half]
      push_cast
      refine ⟨?_, fun _ => by omega⟩
      rw [abs_le]
      constructor <;> linarith

end Rounding

namespace Ratio

variable {r s : Ratio}

def value (r : Ratio) : ℚ := r.num / r.den

theorem value_nonneg (r : Ratio) : 0 ≤ r.value := by
  unfold value
  positivity

theorem num_pos_of_value (positive : 0 < r.value) : 0 < r.num := by
  by_contra zero
  have none : r.num = 0 := by omega
  rw [value, none] at positive
  simp at positive

theorem scale_den_pos (den : 0 < r.den) {base : Nat} (positive : 0 < base) (exponent : Int) :
    0 < (r.scale base exponent).den := by
  simp only [scale, Nat.pow_eq]
  positivity

theorem value_scale (r : Ratio) {base : Nat} (positive : 0 < base) (exponent : Int) :
    (r.scale base exponent).value = r.value * (base : ℚ) ^ exponent := by
  have nonzero : (base : ℚ) ≠ 0 := by exact_mod_cast positive.ne'
  have split : exponent = exponent.toNat - (-exponent).toNat := by omega
  have power : (base : ℚ) ^ exponent =
      (base : ℚ) ^ exponent.toNat / (base : ℚ) ^ (-exponent).toNat := by
    calc (base : ℚ) ^ exponent
        = (base : ℚ) ^ ((exponent.toNat : Int) - ((-exponent).toNat : Int)) := by rw [← split]
      _ = _ := by rw [zpow_sub₀ nonzero, zpow_natCast, zpow_natCast]
  rw [power]
  simp only [value, scale, Nat.pow_eq, Nat.cast_mul, Nat.cast_pow]
  rw [mul_div_mul_comm]

theorem rounded_scale (r : Ratio) (den : 0 < r.den) {base : Nat} (positive : 0 < base)
    (exponent : Int) :
    Rounded (r.value * (base : ℚ) ^ exponent)
      (roundDiv (r.scale base exponent).num (r.scale base exponent).den) := by
  rw [← value_scale r positive]
  exact rounded_roundDiv _ (scale_den_pos den positive exponent)

theorem le_iff_value (hr : 0 < r.den) (hs : 0 < s.den) : r.le s = true ↔ r.value ≤ s.value := by
  have rPos : (0 : ℚ) < r.den := by exact_mod_cast hr
  have sPos : (0 : ℚ) < s.den := by exact_mod_cast hs
  rw [value, value, div_le_div_iff₀ rPos sPos]
  simp only [le, decide_eq_true_eq]
  exact_mod_cast Iff.rfl

theorem lt_iff_value (hr : 0 < r.den) (hs : 0 < s.den) : r.lt s = true ↔ r.value < s.value := by
  have rPos : (0 : ℚ) < r.den := by exact_mod_cast hr
  have sPos : (0 : ℚ) < s.den := by exact_mod_cast hs
  rw [value, value, div_lt_div_iff₀ rPos sPos]
  simp only [lt, decide_eq_true_eq]
  exact_mod_cast Iff.rfl

end Ratio

section Magnitude

variable {n : Nat} {r : Ratio}

theorem digitCount_pos (n : Nat) : 0 < digitCount n := Nat.length_toDigits_pos

theorem lt_pow_digitCount (n : Nat) : n < 10 ^ digitCount n :=
  (Nat.length_toDigits_le_iff (by decide) (digitCount_pos n)).mp (Nat.le_refl _)

theorem pow_digitCount_le (positive : 0 < n) : 10 ^ (digitCount n - 1) ≤ n := by
  by_contra less
  rcases Nat.eq_zero_or_pos (digitCount n - 1) with single | more
  · rw [single] at less
    omega
  · have fewer := (Nat.length_toDigits_le_iff (by decide) more).mpr (Nat.not_le.mp less)
    have some := digitCount_pos n
    unfold digitCount at *
    omega

theorem Ratio.pow_magnitude_le (num : 0 < r.num) (den : 0 < r.den) :
    (10 : ℚ) ^ r.magnitude ≤ r.value := by
  have denPos : (0 : ℚ) < r.den := by exact_mod_cast den
  unfold Ratio.magnitude Ratio.value
  split_ifs with large
  · have some := digitCount_pos (r.num / r.den)
    have whole : 10 ^ (digitCount (r.num / r.den) - 1) * r.den ≤ r.num :=
      (Nat.le_div_iff_mul_le den).mp (pow_digitCount_le (Nat.div_pos large den))
    have exponent : (digitCount (r.num / r.den) : Int) - 1 =
        ((digitCount (r.num / r.den) - 1 : Nat) : Int) := by omega
    rw [exponent, zpow_natCast, le_div_iff₀ denPos]
    exact_mod_cast whole
  · have below := lt_pow_digitCount ((r.den - 1) / r.num)
    rw [Nat.div_lt_iff_lt_mul num] at below
    have whole : r.den ≤ 10 ^ digitCount ((r.den - 1) / r.num) * r.num := by omega
    rw [zpow_neg, zpow_natCast, inv_eq_one_div, div_le_div_iff₀ (by positivity) denPos, one_mul,
      mul_comm]
    exact_mod_cast whole

end Magnitude

end LineCalc.Decimal
