import LineCalc.Proofs.Decimal.Binary

/-!
The nearest binary64 number. A ratio is rounded on a grid that has 53 binary digits for it, or on
the finest grid there is; no number that is coarser or finer than this grid lies nearer. The
ratios that lie within the interval of a number have it as their nearest number.
-/
namespace LineCalc.Binary

open Decimal

variable {r : Ratio} {mantissa : Nat} {exponent : Int}

def magnitude (mantissa : Nat) (exponent : Int) : ℚ := mantissa * 2 ^ exponent

theorem ratio_value (mantissa : Nat) (exponent : Int) :
    (ratio mantissa exponent).value = magnitude mantissa exponent := by
  rw [ratio, Ratio.value_scale _ (by decide), magnitude]
  simp [Ratio.value]

theorem ratio_den_pos (mantissa : Nat) (exponent : Int) : 0 < (ratio mantissa exponent).den :=
  Ratio.scale_den_pos (by decide : 0 < 1) (by decide) exponent

theorem two_zpow_pos (exponent : Int) : (0 : ℚ) < 2 ^ exponent := by positivity

theorem two_zpow_succ (exponent : Int) : (2 : ℚ) ^ (exponent + 1) = 2 * 2 ^ exponent := by
  rw [zpow_add_one₀ (by norm_num), mul_comm]

theorem two_zpow_fractionSize (exponent : Int) :
    (2 : ℚ) ^ (exponent + 52) = fractionSize * 2 ^ exponent := by
  rw [zpow_add₀ (by norm_num), mul_comm, fractionSize_eq]
  norm_num

theorem magnitude_on_grid (mantissa : Nat) {grid : Int} (le : grid ≤ exponent) :
    ∃ n : Nat, magnitude mantissa exponent = n * 2 ^ grid := by
  refine ⟨mantissa * 2 ^ (exponent - grid).toNat, ?_⟩
  have split : exponent = (exponent - grid).toNat + grid := by omega
  rw [magnitude]
  calc (mantissa : ℚ) * 2 ^ exponent
      = mantissa * 2 ^ (((exponent - grid).toNat : Int) + grid) := by rw [← split]
    _ = _ := by
      rw [zpow_add₀ (by norm_num), zpow_natCast]
      push_cast
      ring

section Grid

theorem pow_log2_le (num : 0 < r.num) (den : 0 < r.den) : (2 : ℚ) ^ log2 r ≤ r.value := by
  have numLow : ((2 ^ r.num.log2 : Nat) : ℚ) ≤ r.num := by
    exact_mod_cast Nat.log2_self_le num.ne'
  have denHigh : (r.den : ℚ) < (2 ^ (r.den.log2 + 1) : Nat) := by
    exact_mod_cast Nat.lt_log2_self
  have denPos : (0 : ℚ) < r.den := by exact_mod_cast den
  unfold log2
  simp only
  split_ifs with reached
  · rw [Ratio.le_iff_value (Ratio.scale_den_pos (by decide) (by decide) _) den,
      Ratio.value_scale _ (by decide)] at reached
    simpa [Ratio.value] using reached
  · rw [Ratio.value, le_div_iff₀ denPos]
    have exponents : (r.num.log2 : Int) - r.den.log2 - 1 =
        (r.num.log2 : Int) - ((r.den.log2 + 1 : Nat) : Int) := by omega
    rw [exponents, zpow_sub₀ (by norm_num), zpow_natCast, zpow_natCast, div_mul_eq_mul_div,
      div_le_iff₀ (by positivity)]
    push_cast at numLow denHigh
    exact mul_le_mul numLow denHigh.le denPos.le (by positivity)

theorem lt_pow_log2 (den : 0 < r.den) : r.value < (2 : ℚ) ^ (log2 r + 1) := by
  have numHigh : (r.num : ℚ) < (2 ^ (r.num.log2 + 1) : Nat) := by
    exact_mod_cast Nat.lt_log2_self
  have denLow : ((2 ^ r.den.log2 : Nat) : ℚ) ≤ r.den := by
    exact_mod_cast Nat.log2_self_le den.ne'
  have denPos : (0 : ℚ) < r.den := by exact_mod_cast den
  unfold log2
  simp only
  split_ifs with reached
  · rw [Ratio.value, div_lt_iff₀ denPos]
    have exponents : (r.num.log2 : Int) - r.den.log2 + 1 =
        ((r.num.log2 + 1 : Nat) : Int) - (r.den.log2 : Int) := by omega
    rw [exponents, zpow_sub₀ (by norm_num), zpow_natCast, zpow_natCast, div_mul_eq_mul_div,
      lt_div_iff₀ (by positivity)]
    push_cast at numHigh denLow
    exact mul_lt_mul numHigh denLow (by positivity) (by positivity)
  · rw [Ratio.le_iff_value (Ratio.scale_den_pos (by decide) (by decide) _) den,
      Ratio.value_scale _ (by decide), not_le] at reached
    rw [Int.sub_add_cancel]
    simpa [Ratio.value] using reached

theorem log2_lt {k : Int} (num : 0 < r.num) (den : 0 < r.den) (less : r.value < 2 ^ k) :
    log2 r < k :=
  (zpow_lt_zpow_iff_right₀ (by norm_num)).mp (lt_of_le_of_lt (pow_log2_le num den) less)

theorem le_log2 {k : Int} (den : 0 < r.den) (le : 2 ^ k ≤ r.value) : k ≤ log2 r := by
  have less : k < log2 r + 1 :=
    (zpow_lt_zpow_iff_right₀ (by norm_num)).mp (lt_of_le_of_lt le (lt_pow_log2 den))
  omega

/-- The exponent of the grid that the ratio is rounded on. -/
def gridExponent (r : Ratio) : Int := max leastExponent (log2 r - 52)

theorem leastExponent_le_grid (r : Ratio) : leastExponent ≤ gridExponent r := le_max_left _ _

theorem rounded_grid (den : 0 < r.den) : Rounded (r.value / 2 ^ gridExponent r)
    (roundDiv (r.scale 2 (-gridExponent r)).num (r.scale 2 (-gridExponent r)).den) := by
  have rounded := Ratio.rounded_scale r den (by decide : 0 < 2) (-gridExponent r)
  rwa [Nat.cast_ofNat, zpow_neg, ← div_eq_mul_inv] at rounded

theorem nearestBits_eq (num : 0 < r.num) (den : 0 < r.den) {n : Nat}
    (rounded : Rounded (r.value / 2 ^ gridExponent r) n) :
    nearestBits r =
      min infinityBits ((gridExponent r - leastExponent).toNat * fractionSize + n) := by
  rw [rounded_unique rounded (rounded_grid den), nearestBits, if_neg num.ne']
  rfl

theorem value_lt_grid (den : 0 < r.den) :
    r.value / 2 ^ gridExponent r < 2 * fractionSize := by
  rw [div_lt_iff₀ (two_zpow_pos _)]
  have fine : log2 r + 1 ≤ gridExponent r + 1 + 52 := by
    have le := le_max_right leastExponent (log2 r - 52)
    unfold gridExponent
    omega
  calc r.value < 2 ^ (log2 r + 1) := lt_pow_log2 den
    _ ≤ 2 ^ (gridExponent r + 1 + 52) := zpow_le_zpow_right₀ (by norm_num) fine
    _ = 2 * fractionSize * 2 ^ gridExponent r := by
      rw [two_zpow_fractionSize, two_zpow_succ]
      ring

theorem rounded_grid_le (den : 0 < r.den) {n : Nat}
    (rounded : Rounded (r.value / 2 ^ gridExponent r) n) : n ≤ 2 * fractionSize := by
  have near := abs_le.mp rounded.1
  have less := value_lt_grid den
  have close : (n : ℚ) < 2 * fractionSize + 1 := by linarith
  have close' : n < 2 * fractionSize + 1 := by exact_mod_cast close
  omega

theorem nearestBits_lt (num : 0 < r.num) (den : 0 < r.den)
    (small : r.value < 2 ^ (1023 : Int)) : nearestBits r < infinityBits := by
  have digits := rounded_grid_le den (rounded_grid den)
  have fine : gridExponent r ≤ 970 := by
    have upper := log2_lt num den small
    have least : leastExponent ≤ 970 := by decide
    unfold gridExponent
    omega
  rw [nearestBits_eq num den (rounded_grid den), min_lt_iff]
  right
  rw [fractionSize_eq] at *
  rw [leastExponent_eq, infinityBits_eq]
  omega

theorem grid_le_value (num : 0 < r.num) (den : 0 < r.den)
    (coarse : leastExponent < gridExponent r) :
    (fractionSize : ℚ) ≤ r.value / 2 ^ gridExponent r := by
  have same : gridExponent r + 52 = log2 r := by
    unfold gridExponent at *
    omega
  rw [le_div_iff₀ (two_zpow_pos _), ← two_zpow_fractionSize, same]
  exact pow_log2_le num den

end Grid

section Interval

/-- How far the interval of a number reaches below it, in units of its last digit. Below a power
    of two the next number lies half as far. -/
def reach (mantissa : Nat) (exponent : Int) : ℚ :=
  if mantissa = fractionSize ∧ leastExponent < exponent then 1 / 4 else 1 / 2

/-- No further away than halfway to the next number, and nearer for an odd mantissa. -/
structure Within (mantissa : Nat) (exponent : Int) (x : ℚ) : Prop where
  low : (mantissa - reach mantissa exponent) * 2 ^ exponent ≤ x
  high : x ≤ (mantissa + 1 / 2) * 2 ^ exponent
  inside : mantissa % 2 = 1 → (mantissa - reach mantissa exponent) * 2 ^ exponent < x ∧
    x < (mantissa + 1 / 2) * 2 ^ exponent

theorem reach_le (mantissa : Nat) (exponent : Int) : reach mantissa exponent ≤ 1 / 2 := by
  unfold reach
  split_ifs <;> norm_num

theorem quarter_le_reach (mantissa : Nat) (exponent : Int) : 1 / 4 ≤ reach mantissa exponent := by
  unfold reach
  split_ifs <;> norm_num

theorem low_value (positive : 0 < mantissa) (exponent : Int) :
    (interval mantissa exponent).low.value =
      (mantissa - reach mantissa exponent) * 2 ^ exponent := by
  have double := two_zpow_succ (exponent - 1)
  have again := two_zpow_succ (exponent - 1 - 1)
  rw [Int.sub_add_cancel] at double again
  unfold interval reach
  simp only
  split_ifs
  · rw [ratio_value, magnitude, double, again, Int.sub_sub, Nat.cast_sub (by omega)]
    push_cast
    ring
  · rw [ratio_value, magnitude, double, Nat.cast_sub (by omega)]
    push_cast
    ring

theorem high_value (mantissa : Nat) (exponent : Int) :
    (interval mantissa exponent).high.value = (mantissa + 1 / 2) * 2 ^ exponent := by
  have double := two_zpow_succ (exponent - 1)
  rw [Int.sub_add_cancel] at double
  unfold interval
  simp only
  rw [ratio_value, magnitude, double]
  push_cast
  ring

theorem low_den_pos (mantissa : Nat) (exponent : Int) :
    0 < (interval mantissa exponent).low.den := by
  unfold interval
  simp only
  split_ifs <;> exact ratio_den_pos _ _

theorem holds_iff_within (positive : 0 < mantissa) (den : 0 < r.den) :
    (interval mantissa exponent).holds r = true ↔ Within mantissa exponent r.value := by
  have low := low_den_pos mantissa exponent
  have high : 0 < (interval mantissa exponent).high.den := ratio_den_pos _ _
  have whole : (interval mantissa exponent).holds r = true ↔
      if mantissa % 2 = 0 then
        (mantissa - reach mantissa exponent) * 2 ^ exponent ≤ r.value ∧
          r.value ≤ (mantissa + 1 / 2) * 2 ^ exponent
      else (mantissa - reach mantissa exponent) * 2 ^ exponent < r.value ∧
        r.value < (mantissa + 1 / 2) * 2 ^ exponent := by
    rw [← low_value positive, ← high_value, ← Ratio.le_iff_value low den,
      ← Ratio.le_iff_value den high, ← Ratio.lt_iff_value low den, ← Ratio.lt_iff_value den high]
    unfold Interval.holds
    by_cases even : mantissa % 2 = 0 <;> simp [interval, even]
  rw [whole]
  split_ifs with even
  · exact ⟨fun ends => ⟨ends.1, ends.2, fun odd => by omega⟩,
      fun within => ⟨within.low, within.high⟩⟩
  · exact ⟨fun ends => ⟨ends.1.le, ends.2.le, fun _ => ends⟩,
      fun within => within.inside (by omega)⟩

theorem within_self (mantissa : Nat) (exponent : Int) :
    Within mantissa exponent (magnitude mantissa exponent) := by
  have unit := two_zpow_pos exponent
  have some := quarter_le_reach mantissa exponent
  have low : (mantissa - reach mantissa exponent) * 2 ^ exponent < magnitude mantissa exponent :=
    mul_lt_mul_of_pos_right (by linarith) unit
  have high : magnitude mantissa exponent < (mantissa + 1 / 2) * 2 ^ exponent :=
    mul_lt_mul_of_pos_right (by linarith) unit
  exact ⟨low.le, high.le, fun _ => ⟨low, high⟩⟩

theorem num_pos_of_within (positive : 0 < mantissa) (within : Within mantissa exponent r.value) :
    0 < r.num := by
  have first : (1 : ℚ) ≤ mantissa := by exact_mod_cast positive
  have small := reach_le mantissa exponent
  have low : 0 < (mantissa - reach mantissa exponent) * 2 ^ exponent :=
    mul_pos (by linarith) (two_zpow_pos exponent)
  exact Ratio.num_pos_of_value (lt_of_lt_of_le low within.low)

theorem rounded_of_within {x : ℚ} (within : Within mantissa exponent x) :
    Rounded (x / 2 ^ exponent) mantissa := by
  have unit := two_zpow_pos exponent
  have small := reach_le mantissa exponent
  have low := (le_div_iff₀ unit).mpr within.low
  have high := (div_le_iff₀ unit).mpr within.high
  refine ⟨abs_le.mpr ⟨by linarith, by linarith⟩, ?_⟩
  intro half
  by_contra odd
  obtain ⟨above, below⟩ := within.inside (by omega)
  rw [← lt_div_iff₀ unit] at above
  rw [← div_lt_iff₀ unit] at below
  have nearer : |x / 2 ^ exponent - mantissa| < 1 / 2 := abs_lt.mpr ⟨by linarith, by linarith⟩
  exact absurd half nearer.ne

end Interval

section Correct

theorem log2_lt_of_within (canonical : Canonical mantissa exponent) (num : 0 < r.num)
    (den : 0 < r.den) (within : Within mantissa exponent r.value) :
    log2 r < exponent + 1 + 52 := by
  have fits : (mantissa : ℚ) + 1 ≤ 2 * fractionSize := by exact_mod_cast canonical.fits
  refine log2_lt num den ?_
  calc r.value ≤ (mantissa + 1 / 2) * 2 ^ exponent := within.high
    _ < 2 * fractionSize * 2 ^ exponent :=
      mul_lt_mul_of_pos_right (by linarith) (two_zpow_pos exponent)
    _ = 2 ^ (exponent + 1 + 52) := by
      rw [two_zpow_fractionSize, two_zpow_succ]
      ring

/-- Only the interval of a power of two reaches below the numbers with 53 binary digits, and not
    far. -/
theorem log2_of_within_below (full : fractionSize ≤ mantissa) (num : 0 < r.num) (den : 0 < r.den)
    (within : Within mantissa exponent r.value) (less : r.value < fractionSize * 2 ^ exponent) :
    mantissa = fractionSize ∧ log2 r = exponent + 51 := by
  have unit := two_zpow_pos exponent
  have small := reach_le mantissa exponent
  have near : (mantissa : ℚ) - reach mantissa exponent < fractionSize :=
    lt_of_mul_lt_mul_right (lt_of_le_of_lt within.low less) unit.le
  have same : mantissa = fractionSize := by
    have next : (mantissa : ℚ) < fractionSize + 1 := by linarith
    have next' : mantissa < fractionSize + 1 := by exact_mod_cast next
    omega
  have upper : log2 r < exponent + 52 := by
    rw [← two_zpow_fractionSize] at less
    exact log2_lt num den less
  have lower : exponent - 1 + 52 ≤ log2 r := by
    refine le_log2 den ?_
    have double := two_zpow_succ (exponent - 1)
    rw [Int.sub_add_cancel] at double
    calc (2 : ℚ) ^ (exponent - 1 + 52) = fractionSize / 2 * 2 ^ exponent := by
          rw [two_zpow_fractionSize, double]
          ring
      _ ≤ (mantissa - reach mantissa exponent) * 2 ^ exponent := by
        have large : (1 : ℚ) ≤ fractionSize := by exact_mod_cast (by decide : 1 ≤ fractionSize)
        rw [same] at small ⊢
        exact mul_le_mul_of_nonneg_right (by linarith) unit.le
      _ ≤ r.value := within.low
  exact ⟨same, by omega⟩

theorem gridExponent_of_within (canonical : Canonical mantissa exponent) (num : 0 < r.num)
    (den : 0 < r.den) (within : Within mantissa exponent r.value) :
    gridExponent r = exponent ∨ gridExponent r = exponent - 1 ∧ mantissa = fractionSize ∧
      leastExponent < exponent ∧ r.value < fractionSize * 2 ^ exponent := by
  have upper := log2_lt_of_within canonical num den within
  have least := canonical.least
  unfold gridExponent
  by_cases normal : (fractionSize : ℚ) * 2 ^ exponent ≤ r.value
  · left
    rw [← two_zpow_fractionSize] at normal
    have lower := le_log2 den normal
    omega
  · rw [not_le] at normal
    rcases canonical.full with full | finest
    · obtain ⟨power, log⟩ := log2_of_within_below full num den within normal
      rcases Int.lt_or_eq_of_le least with fine | finest
      · exact Or.inr ⟨by omega, power, fine, normal⟩
      · left
        omega
    · left
      rw [← two_zpow_fractionSize] at normal
      have below := log2_lt num den normal
      omega

theorem nearestBits_of_within (canonical : Canonical mantissa exponent) (num : 0 < r.num)
    (den : 0 < r.den) (within : Within mantissa exponent r.value) :
    nearestBits r = magnitudeBits mantissa exponent := by
  have finite := magnitudeBits_lt canonical
  rcases gridExponent_of_within canonical num den within with same | ⟨finer, power, fine, less⟩
  · have rounded := rounded_of_within within
    rw [← same] at rounded
    rw [nearestBits_eq num den rounded, same]
    exact Nat.min_eq_right finite.le
  · have unit := two_zpow_pos (exponent - 1)
    have double := two_zpow_succ (exponent - 1)
    rw [Int.sub_add_cancel] at double
    have low := within.low
    have reaches : reach mantissa exponent = 1 / 4 := if_pos ⟨power, fine⟩
    rw [reaches, power, double] at low
    rw [double] at less
    -- On the finer grid the power of two has one digit more.
    have rounded : Rounded (r.value / 2 ^ gridExponent r) (2 * fractionSize) := by
      rw [finer]
      have above : (2 * fractionSize : ℚ) - 1 / 2 ≤ r.value / 2 ^ (exponent - 1) := by
        rw [le_div_iff₀ unit]
        linarith
      have below : r.value / 2 ^ (exponent - 1) < 2 * fractionSize := by
        rw [div_lt_iff₀ unit]
        linarith
      have digits : ((2 * fractionSize : Nat) : ℚ) = 2 * fractionSize := by push_cast; rfl
      unfold Rounded
      rw [digits]
      exact ⟨abs_le.mpr ⟨by linarith, by linarith⟩, fun _ => Nat.mul_mod_right 2 _⟩
    have place : (gridExponent r - leastExponent).toNat * fractionSize + 2 * fractionSize =
        magnitudeBits mantissa exponent := by
      rw [finer, power, magnitudeBits, fractionSize_eq]
      omega
    rw [nearestBits_eq num den rounded, place]
    exact Nat.min_eq_right finite.le

/-- No number lies nearer to x, and another one as near only if the mantissa is even. -/
def NearestMagnitude (x : ℚ) (mantissa : Nat) (exponent : Int) : Prop :=
  ∀ m e, Canonical m e →
    |x - magnitude mantissa exponent| ≤ |x - magnitude m e| ∧
      (|x - magnitude mantissa exponent| = |x - magnitude m e| →
        magnitude m e = magnitude mantissa exponent ∨ mantissa % 2 = 0)

theorem nearestMagnitude_of_rounded (num : 0 < r.num) (den : 0 < r.den) {n : Nat}
    (rounded : Rounded (r.value / 2 ^ gridExponent r) n)
    (same : magnitude mantissa exponent = n * 2 ^ gridExponent r)
    (parity : n % 2 = 0 → mantissa % 2 = 0) : NearestMagnitude r.value mantissa exponent := by
  have unit := two_zpow_pos (gridExponent r)
  intro m e canonical
  rw [same, distance_scaled _ _ unit]
  by_cases coarse : gridExponent r ≤ e
  · obtain ⟨k, other⟩ := magnitude_on_grid m coarse
    obtain ⟨nearer, tie⟩ := le_of_rounded rounded k
    rw [other, distance_scaled _ _ unit]
    refine ⟨mul_le_mul_of_nonneg_right nearer unit.le, fun equal => ?_⟩
    rcases tie (mul_right_cancel₀ unit.ne' equal) with rfl | even
    · exact Or.inl rfl
    · exact Or.inr (parity even)
  · -- A finer number lies below the first power of two on the grid, and that one lies nearer.
    rw [not_le] at coarse
    have least := canonical.least
    have front := grid_le_value num den (by omega)
    have less : magnitude m e < fractionSize * 2 ^ gridExponent r := by
      have fits : (m : ℚ) < 2 * fractionSize := by exact_mod_cast canonical.fits
      have double := two_zpow_succ (gridExponent r - 1)
      rw [Int.sub_add_cancel] at double
      calc magnitude m e < 2 * fractionSize * 2 ^ e := mul_lt_mul_of_pos_right fits (two_zpow_pos e)
        _ ≤ 2 * fractionSize * 2 ^ (gridExponent r - 1) := by
          refine mul_le_mul_of_nonneg_left ?_ (by positivity)
          exact zpow_le_zpow_right₀ (by norm_num) (by omega)
        _ = fractionSize * 2 ^ gridExponent r := by
          rw [double]
          ring
    have nearer := (le_of_rounded rounded fractionSize).1
    rw [abs_of_nonneg (by linarith : (0 : ℚ) ≤ r.value / 2 ^ gridExponent r - fractionSize)]
      at nearer
    have power : fractionSize * 2 ^ gridExponent r ≤ r.value := (le_div_iff₀ unit).mp front
    have scaled : |r.value / 2 ^ gridExponent r - n| * 2 ^ gridExponent r ≤
        r.value - fractionSize * 2 ^ gridExponent r := by
      calc |r.value / 2 ^ gridExponent r - n| * 2 ^ gridExponent r
          ≤ (r.value / 2 ^ gridExponent r - fractionSize) * 2 ^ gridExponent r :=
            mul_le_mul_of_nonneg_right nearer unit.le
        _ = _ := by rw [sub_mul, div_mul_cancel₀ _ unit.ne']
    have far : |r.value - magnitude m e| = r.value - magnitude m e := abs_of_nonneg (by linarith)
    rw [far]
    exact ⟨by linarith, fun equal => by linarith⟩

/-- Reading a ratio that is not out of range gives the number nearest to it. -/
theorem nearestBits_nearest (num : 0 < r.num) (den : 0 < r.den)
    (finite : nearestBits r < infinityBits) :
    ∃ mantissa exponent, Canonical mantissa exponent ∧
      nearestBits r = magnitudeBits mantissa exponent ∧
      NearestMagnitude r.value mantissa exponent := by
  obtain ⟨n, rounded⟩ : ∃ n, Rounded (r.value / 2 ^ gridExponent r) n := ⟨_, rounded_grid den⟩
  have near := abs_le.mp rounded.1
  have bits := nearestBits_eq num den rounded
  have least := leastExponent_le_grid r
  have most := rounded_grid_le den rounded
  have front : fractionSize ≤ n ∨ gridExponent r = leastExponent := by
    rcases Int.lt_or_eq_of_le least with coarse | same
    · left
      have above := grid_le_value num den coarse
      have close : (fractionSize : ℚ) < n + 1 := by linarith
      have close' : fractionSize < n + 1 := by exact_mod_cast close
      omega
    · exact Or.inr same.symm
  rw [bits, min_lt_iff] at finite
  have fits := finite.resolve_left (lt_irrefl _)
  rw [Nat.min_eq_right fits.le] at bits
  rcases Nat.lt_or_eq_of_le most with ordinary | carry
  · have canonical : Canonical n (gridExponent r) := by
      refine ⟨ordinary, least, ?_, front⟩
      rw [fractionSize_eq, infinityBits_eq, leastExponent_eq] at *
      omega
    exact ⟨n, gridExponent r, canonical, bits,
      nearestMagnitude_of_rounded num den rounded rfl fun even => even⟩
  · have canonical : Canonical fractionSize (gridExponent r + 1) := by
      refine ⟨by decide, by omega, ?_, Or.inl (Nat.le_refl _)⟩
      rw [fractionSize_eq, infinityBits_eq, leastExponent_eq] at *
      omega
    have place : nearestBits r = magnitudeBits fractionSize (gridExponent r + 1) := by
      rw [bits, carry, magnitudeBits, fractionSize_eq]
      omega
    have same : magnitude fractionSize (gridExponent r + 1) = n * 2 ^ gridExponent r := by
      rw [magnitude, two_zpow_succ, carry]
      push_cast
      ring
    exact ⟨fractionSize, gridExponent r + 1, canonical, place,
      nearestMagnitude_of_rounded num den rounded same fun _ => by decide⟩

end Correct

end LineCalc.Binary
