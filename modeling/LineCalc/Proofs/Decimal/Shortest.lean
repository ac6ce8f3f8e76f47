import LineCalc.Decimal.Shortest
import LineCalc.Proofs.Decimal.Nearest

/-!
The shortest digits of a number lie within its interval. On a coarse grid a point is taken only if
it does; with seventeen digits the nearest point always does.
-/
namespace LineCalc.Decimal

open Binary

variable {mantissa : Nat} {exponent : Int} {r : Ratio}

theorem Scientific.ratio_den_pos (s : Scientific) : 0 < s.ratio.den :=
  Ratio.scale_den_pos (by decide : 0 < 1) (by decide) s.exponent

theorem Scientific.ratio_value (s : Scientific) : s.ratio.value = s.digits * 10 ^ s.exponent := by
  rw [Scientific.ratio, Ratio.value_scale _ (by decide)]
  simp [Ratio.value]

section Grid

variable {i : Interval} {point : Scientific}

/-- The nearest point on the grid is one of the two around the number. -/
theorem roundDiv_eq (num den : Nat) :
    roundDiv num den = num / den ∨ roundDiv num den = num / den + 1 := by
  have low := le_roundDiv num den
  have high := roundDiv_le num den
  omega

theorem holds_gridPoint (found : gridPoint i r exponent = some point) :
    i.holds point.ratio = true := by
  unfold gridPoint at found
  simp only at found
  split at found
  · next below above =>
    cases found
    rcases roundDiv_eq (r.scale 10 (-exponent)).num (r.scale 10 (-exponent)).den with same | same
    · rwa [same]
    · rwa [same]
  · next below _ =>
    cases found
    exact below
  · next _ above =>
    cases found
    exact above
  · cases found

theorem holds_shortestFrom {fuel : Nat}
    (last : i.holds (shortestFrom i r (exponent - fuel) 0).ratio = true) :
    i.holds (shortestFrom i r exponent fuel).ratio = true := by
  induction fuel generalizing exponent with
  | zero => simpa using last
  | succ more ih =>
    rw [shortestFrom]
    split
    · next point found => exact holds_gridPoint found
    · refine ih ?_
      rwa [Int.sub_sub, Int.add_comm 1, ← Int.natCast_succ]

end Grid

theorem value_strip (s : Scientific) (fuel : Nat) : (s.strip fuel).ratio.value = s.ratio.value := by
  induction fuel generalizing s with
  | zero => rfl
  | succ fuel ih =>
    rw [Scientific.strip]
    split_ifs with zeros
    · rw [ih, Scientific.ratio_value, Scientific.ratio_value, zpow_add_one₀ (by norm_num)]
      have tens : (s.digits : ℚ) = 10 * (s.digits / 10 : Nat) := by
        exact_mod_cast (by omega : s.digits = 10 * (s.digits / 10))
      rw [tens]
      ring
    · rfl

/-- Half a unit of the seventeenth digit is less than half the distance to a neighbour. -/
theorem within_of_close {x : ℚ} (fits : mantissa < 2 * fractionSize)
    (close : |magnitude mantissa exponent - x| ≤ magnitude mantissa exponent / (2 * 10 ^ 16)) :
    Within mantissa exponent x := by
  have unit := two_zpow_pos exponent
  have part : (mantissa : ℚ) / (2 * 10 ^ 16) < reach mantissa exponent := by
    rw [div_lt_iff₀ (by norm_num)]
    unfold reach
    split_ifs with power
    · rw [power.1, fractionSize_eq]
      norm_num
    · have small : (mantissa : ℚ) < 2 * fractionSize := by exact_mod_cast fits
      rw [fractionSize_eq] at small
      norm_num at small ⊢
      linarith
  have half := reach_le mantissa exponent
  have step : magnitude mantissa exponent / (2 * 10 ^ 16) <
      reach mantissa exponent * 2 ^ exponent := by
    rw [magnitude, mul_div_right_comm]
    exact mul_lt_mul_of_pos_right part unit
  have far : reach mantissa exponent * 2 ^ exponent ≤ 1 / 2 * 2 ^ exponent :=
    mul_le_mul_of_nonneg_right half unit.le
  obtain ⟨above, below⟩ := abs_lt.mp (lt_of_le_of_lt close step)
  unfold magnitude at above below
  have low : (mantissa - reach mantissa exponent) * 2 ^ exponent < x := by linarith
  have high : x < (mantissa + 1 / 2) * 2 ^ exponent := by linarith
  exact ⟨low.le, high.le, fun _ => ⟨low, high⟩⟩

theorem close_seventeen (num : 0 < r.num) (den : 0 < r.den) (i : Interval) :
    |r.value - (shortestFrom i r (r.magnitude - 16) 0).ratio.value| ≤ r.value / (2 * 10 ^ 16) := by
  have unit : (0 : ℚ) < 10 ^ (r.magnitude - 16) := by positivity
  have rounds := Ratio.rounded_scale r den (by decide : 0 < 10) (-(r.magnitude - 16))
  rw [Nat.cast_ofNat, zpow_neg, ← div_eq_mul_inv] at rounds
  have least : (10 : ℚ) ^ (r.magnitude - 16) ≤ r.value / 10 ^ 16 := by
    rw [zpow_sub₀ (by norm_num)]
    exact div_le_div_of_nonneg_right (Ratio.pow_magnitude_le num den) (by norm_num)
  generalize point : (shortestFrom i r (r.magnitude - 16) 0).ratio.value = x
  rw [Scientific.ratio_value, shortestFrom] at point
  simp only at point
  calc |r.value - x|
      = |r.value / 10 ^ (r.magnitude - 16) - (shortestFrom i r (r.magnitude - 16) 0).digits| *
          10 ^ (r.magnitude - 16) := by
        rw [← distance_scaled _ _ unit, ← point]
        rfl
    _ ≤ 1 / 2 * 10 ^ (r.magnitude - 16) := mul_le_mul_of_nonneg_right rounds.1 unit.le
    _ ≤ r.value / (2 * 10 ^ 16) := by
        rw [div_mul_eq_div_div_swap]
        linarith

theorem within_shortest (canonical : Canonical mantissa exponent) (positive : 0 < mantissa) :
    Within mantissa exponent (shortest mantissa exponent).ratio.value := by
  have num : 0 < (ratio mantissa exponent).num := by
    refine Ratio.num_pos_of_value ?_
    rw [Binary.ratio_value, magnitude]
    positivity
  have den := ratio_den_pos mantissa exponent
  have close := close_seventeen num den (interval mantissa exponent)
  rw [Binary.ratio_value] at close
  have last := (holds_iff_within positive (Scientific.ratio_den_pos _)).mpr
    (within_of_close canonical.fits close)
  have found := holds_shortestFrom last
  rw [shortest, value_strip, ← holds_iff_within positive (Scientific.ratio_den_pos _)]
  exact found

end LineCalc.Decimal
