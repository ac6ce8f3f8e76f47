import LineCalc.Proofs.Decimal.Float
import LineCalc.Proofs.Decimal.Nearest

/-!
Floating-point values as exact numbers. A finite value stands for one rational number, and a
rational number is read as the value nearest to it.
-/
namespace LineCalc.Binary

open Decimal

variable {negative : Bool} {mantissa : Nat} {exponent : Int} {r : Ratio}

section Signed

def signed (negative : Bool) (q : ℚ) : ℚ := if negative then -q else q

theorem abs_signed (negative : Bool) (q : ℚ) : |signed negative q| = |q| := by
  cases negative
  · rfl
  · exact abs_neg q

theorem signed_sub (negative : Bool) (p q : ℚ) :
    signed negative p - signed negative q = signed negative (p - q) := by
  cases negative
  · rfl
  · simp only [signed, ↓reduceIte]
    ring

theorem signed_distance (negative : Bool) (p q : ℚ) :
    |signed negative p - signed negative q| = |p - q| := by
  rw [signed_sub, abs_signed]

theorem opposite_distance {sign : Bool} (differ : negative ≠ sign) {p q : ℚ} (hp : 0 ≤ p)
    (hq : 0 ≤ q) : |signed negative p - signed sign q| = p + q := by
  obtain rfl : sign = !negative := Bool.eq_not_iff.mpr differ.symm
  cases negative
  · simp only [signed, Bool.not_false, ↓reduceIte, Bool.false_eq_true, sub_neg_eq_add]
    exact abs_of_nonneg (by linarith)
  · simp only [signed, Bool.not_true, ↓reduceIte, Bool.false_eq_true]
    rw [abs_of_nonpos (by linarith)]
    ring

end Signed

def rational? (x : Float) : Option ℚ :=
  match ofFloat x with
  | .finite negative mantissa exponent => some (signed negative (magnitude mantissa exponent))
  | _ => none

theorem rational_iff {x : Float} {v : ℚ} :
    rational? x = some v ↔ ∃ negative mantissa exponent,
      ofFloat x = .finite negative mantissa exponent ∧
        v = signed negative (magnitude mantissa exponent) := by
  unfold rational?
  cases ofFloat x <;> simp [eq_comm]

theorem rational_of_ofFloat {x : Float} (read : ofFloat x = .finite negative mantissa exponent) :
    rational? x = some (signed negative (magnitude mantissa exponent)) :=
  rational_iff.mpr ⟨_, _, _, read, rfl⟩

theorem magnitude_nonneg (mantissa : Nat) (exponent : Int) : 0 ≤ magnitude mantissa exponent := by
  unfold magnitude
  positivity

theorem magnitude_pos (positive : 0 < mantissa) (exponent : Int) :
    0 < magnitude mantissa exponent := by
  unfold magnitude
  positivity

theorem canonical_zero : Canonical 0 leastExponent :=
  ⟨by decide, Int.le_refl _, by decide, Or.inr rfl⟩

theorem magnitude_zero (exponent : Int) : magnitude 0 exponent = 0 := by simp [magnitude]

/-- From here on a number is read as an infinity. -/
def overflow : ℚ := 2 ^ 1024 - 2 ^ 970

/-- The value q is read as: q is not out of range, no finite value lies nearer, and if another one
    lies as near the last bit is zero. -/
structure Nearest (q : ℚ) (x : Float) : Prop where
  inRange : |q| < overflow
  nearest : ∃ v, rational? x = some v ∧ ∀ y w, rational? y = some w →
    |q - v| ≤ |q - w| ∧ (|q - v| = |q - w| → w = v ∨ x.toBits.toNat % 2 = 0)

theorem overflow_eq : overflow = (2 * fractionSize - 1 / 2) * 2 ^ (971 : Int) := by
  have first : (2 : ℚ) ^ 1024 = 2 ^ 54 * 2 ^ 970 := by rw [← pow_add]
  have last : (2 : ℚ) ^ (971 : Int) = 2 * 2 ^ 970 := by
    rw [← pow_succ', ← zpow_natCast]
    rfl
  rw [overflow, fractionSize_eq, first, last]
  generalize (2 : ℚ) ^ 970 = power
  ring

theorem magnitudeBits_inj {m : Nat} {e : Int} (one : Canonical mantissa exponent)
    (other : Canonical m e) (same : magnitudeBits mantissa exponent = magnitudeBits m e) :
    mantissa = m ∧ exponent = e := by
  have read := ofBits_magnitudeBits one false
  rw [same, ofBits_magnitudeBits other false] at read
  cases read
  exact ⟨rfl, rfl⟩

theorem lt_overflow_of_within (canonical : Canonical mantissa exponent) {x : ℚ}
    (within : Within mantissa exponent x) : x < overflow := by
  have unit := two_zpow_pos exponent
  have power : (2 : ℚ) ^ exponent ≤ 2 ^ (971 : Int) :=
    zpow_le_zpow_right₀ (by norm_num) canonical.greatest
  have less : x < (2 * fractionSize - 1 / 2) * 2 ^ exponent := by
    rcases Nat.mod_two_eq_zero_or_one mantissa with even | odd
    · have fits : mantissa + 2 ≤ 2 * fractionSize := by
        have fits := canonical.fits
        omega
      have fits' : (mantissa : ℚ) + 2 ≤ 2 * fractionSize := by exact_mod_cast fits
      calc x ≤ (mantissa + 1 / 2) * 2 ^ exponent := within.high
        _ < _ := mul_lt_mul_of_pos_right (by linarith) unit
    · have fits : (mantissa : ℚ) + 1 ≤ 2 * fractionSize := by exact_mod_cast canonical.fits
      calc x < (mantissa + 1 / 2) * 2 ^ exponent := (within.inside odd).2
        _ ≤ _ := mul_le_mul_of_nonneg_right (by linarith) unit.le
  rw [overflow_eq]
  refine lt_of_lt_of_le less (mul_le_mul_of_nonneg_left power ?_)
  rw [fractionSize_eq]
  norm_num

theorem nearestMagnitude_of_within (canonical : Canonical mantissa exponent) (num : 0 < r.num)
    (den : 0 < r.den) (within : Within mantissa exponent r.value) :
    NearestMagnitude r.value mantissa exponent := by
  have bits := nearestBits_of_within canonical num den within
  have finite : nearestBits r < infinityBits := bits ▸ magnitudeBits_lt canonical
  obtain ⟨m, e, other, same, nearest⟩ := nearestBits_nearest num den finite
  obtain ⟨rfl, rfl⟩ := magnitudeBits_inj canonical other (bits.symm.trans same)
  exact nearest

theorem ofFloat_nearest (canonical : Canonical mantissa exponent)
    (bits : nearestBits r = magnitudeBits mantissa exponent) (negative : Bool) :
    ofFloat (nearest negative r) = .finite negative mantissa exponent := by
  have finite := magnitudeBits_lt canonical
  have read := ofBits_magnitudeBits canonical negative
  have number : ofBits (magnitudeBits mantissa exponent + if negative then signBit else 0) ≠
      .nan := by
    rw [read]
    simp
  have small : (magnitudeBits mantissa exponent + if negative then signBit else 0) <
      2 * signBit := by
    rw [infinityBits_eq] at finite
    rw [signBits_eq, signBit_eq]
    have sign := Bool.toNat_lt negative
    omega
  rw [nearest, bits, ofFloat_ofBits small number, read]

theorem rational_nearest (canonical : Canonical mantissa exponent)
    (bits : nearestBits r = magnitudeBits mantissa exponent) (negative : Bool) :
    rational? (nearest negative r) = some (signed negative (magnitude mantissa exponent)) :=
  rational_of_ofFloat (ofFloat_nearest canonical bits negative)

theorem parity_toBits {x : Float} (read : ofFloat x = .finite negative mantissa exponent) :
    x.toBits.toNat % 2 = mantissa % 2 := by
  rw [(finite_of_ofBits (toBits_lt x) read).2, signBits_eq, magnitudeBits, fractionSize_eq,
    signBit_eq]
  omega

theorem nearest_of_within {x : Float} (read : ofFloat x = .finite negative mantissa exponent)
    (positive : 0 < mantissa) (den : 0 < r.den)
    (within : Within mantissa exponent r.value) : Nearest (signed negative r.value) x := by
  have num := num_pos_of_within positive within
  have canonical := canonical_of_ofFloat read
  have nearest := nearestMagnitude_of_within canonical num den within
  have above := r.value_nonneg
  refine ⟨?_, _, rational_of_ofFloat read, fun y w number => ?_⟩
  · rw [abs_signed, abs_of_nonneg above]
    exact lt_overflow_of_within canonical within
  · obtain ⟨sign, m, e, other, rfl⟩ := rational_iff.mp number
    rw [signed_distance, parity_toBits read]
    by_cases same : negative = sign
    · subst same
      obtain ⟨nearer, tie⟩ := nearest m e (canonical_of_ofFloat other)
      rw [signed_distance]
      exact ⟨nearer, fun equal => (tie equal).imp_left fun same => by rw [same]⟩
    · have beyond := magnitude_nonneg m e
      obtain ⟨nearer, tie⟩ := nearest 0 leastExponent canonical_zero
      rw [magnitude_zero, sub_zero, abs_of_nonneg above] at nearer tie
      rw [opposite_distance same above beyond]
      refine ⟨by linarith, fun equal => ?_⟩
      rcases tie (by linarith) with empty | even
      · have full := magnitude_pos positive exponent
        linarith
      · exact Or.inr even

end LineCalc.Binary
