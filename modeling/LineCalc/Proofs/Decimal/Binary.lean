import LineCalc.Decimal.Binary
import LineCalc.Proofs.Decimal.Ratio

/-!
Finite binary64 numbers and their bits. But for its sign, such a number is a mantissa below 2 ^ 53
and an exponent, of which the mantissa has 53 digits or the exponent is the least one; each such
pair has its own bits.
-/
namespace LineCalc.Binary

open Decimal

variable {negative : Bool} {mantissa bits : Nat} {exponent : Int}

theorem fractionSize_eq : fractionSize = 4503599627370496 := rfl

theorem signBit_eq : signBit = 9223372036854775808 := rfl

theorem infinityBits_eq : infinityBits = 9218868437227405312 := rfl

theorem leastExponent_eq : leastExponent = -1074 := rfl

/-- The one way to write the absolute value of a finite number. -/
structure Canonical (mantissa : Nat) (exponent : Int) : Prop where
  fits : mantissa < 2 * fractionSize
  least : leastExponent ≤ exponent
  greatest : exponent ≤ 971
  full : fractionSize ≤ mantissa ∨ exponent = leastExponent

def magnitudeBits (mantissa : Nat) (exponent : Int) : Nat :=
  (exponent - leastExponent).toNat * fractionSize + mantissa

theorem magnitudeBits_lt (canonical : Canonical mantissa exponent) :
    magnitudeBits mantissa exponent < infinityBits := by
  obtain ⟨fits, least, greatest, _⟩ := canonical
  unfold magnitudeBits
  rw [fractionSize_eq] at *
  rw [leastExponent_eq] at *
  rw [infinityBits_eq]
  omega

theorem fields_of_sum {field fraction sign : Nat} (fieldFits : field < 2048)
    (fractionFits : fraction < fractionSize) (signFits : sign < 2) :
    (field * fractionSize + fraction + sign * signBit) / signBit % 2 = sign ∧
      (field * fractionSize + fraction + sign * signBit) / fractionSize % 2048 = field ∧
      (field * fractionSize + fraction + sign * signBit) % fractionSize = fraction := by
  rw [fractionSize_eq] at *
  rw [signBit_eq]
  refine ⟨?_, ?_, ?_⟩ <;> omega

theorem signBits_eq (negative : Bool) :
    (if negative then signBit else 0) = negative.toNat * signBit := by
  cases negative <;> simp

theorem ofBits_fields {field fraction : Nat} (finite : field < 2047)
    (small : fraction < fractionSize) (negative : Bool) :
    ofBits (field * fractionSize + fraction + if negative then signBit else 0) =
      if field = 0 then .finite negative fraction leastExponent
      else .finite negative (fractionSize + fraction) (field - 1075) := by
  have other : field ≠ 2047 := by omega
  obtain ⟨sign, middle, low⟩ :=
    fields_of_sum (by omega : field < 2048) small (Bool.toNat_lt negative)
  rw [signBits_eq, ofBits, sign, middle, low]
  simp only [other, ↓reduceIte]
  cases negative <;> rfl

theorem ofBits_magnitudeBits (canonical : Canonical mantissa exponent) (negative : Bool) :
    ofBits (magnitudeBits mantissa exponent + if negative then signBit else 0) =
      .finite negative mantissa exponent := by
  obtain ⟨fits, least, greatest, full⟩ := canonical
  unfold magnitudeBits
  by_cases normal : fractionSize ≤ mantissa
  · -- The first digit of the mantissa is left out and counts in the field above.
    have place : (exponent - leastExponent).toNat * fractionSize + mantissa =
        (exponent + 1075).toNat * fractionSize + (mantissa - fractionSize) := by
      rw [fractionSize_eq] at *
      rw [leastExponent_eq] at *
      omega
    have small : mantissa - fractionSize < fractionSize := by omega
    rw [leastExponent_eq] at least
    have field : ((exponent + 1075).toNat : Int) - 1075 = exponent := by omega
    rw [place, ofBits_fields (by omega) small, if_neg (by omega), field,
      Nat.add_sub_of_le normal]
  · have subnormal := full.resolve_left normal
    have none : (exponent - leastExponent).toNat = 0 := by omega
    rw [none, ofBits_fields (by omega) (Nat.not_le.mp normal), if_pos rfl, subnormal]

theorem exists_fields (small : bits < 2 * signBit) :
    ∃ field fraction, ∃ negative : Bool, field < 2048 ∧ fraction < fractionSize ∧
      bits = field * fractionSize + fraction + if negative then signBit else 0 := by
  rw [signBit_eq] at *
  rw [fractionSize_eq]
  refine ⟨bits / 4503599627370496 % 2048, bits % 4503599627370496,
    decide (9223372036854775808 ≤ bits), by omega, by omega, ?_⟩
  by_cases high : 9223372036854775808 ≤ bits
  · simp only [high, decide_true, ↓reduceIte]
    omega
  · simp only [high, decide_false, Bool.false_eq_true, ↓reduceIte]
    omega

theorem ofBits_not_finite {fraction : Nat} (small : fraction < fractionSize)
    (negative sign : Bool) :
    ofBits (2047 * fractionSize + fraction + if negative then signBit else 0) ≠
      .finite sign mantissa exponent := by
  obtain ⟨_, middle, low⟩ :=
    fields_of_sum (by decide : 2047 < 2048) small (Bool.toNat_lt negative)
  rw [signBits_eq, ofBits, middle, low]
  simp only [↓reduceIte]
  split <;> simp

theorem finite_of_ofBits (small : bits < 2 * signBit)
    (read : ofBits bits = .finite negative mantissa exponent) :
    Canonical mantissa exponent ∧
      bits = magnitudeBits mantissa exponent + if negative then signBit else 0 := by
  obtain ⟨field, fraction, sign, fieldFits, fractionFits, rfl⟩ := exists_fields small
  by_cases finite : field < 2047
  · rw [ofBits_fields finite fractionFits] at read
    by_cases zero : field = 0
    · rw [if_pos zero] at read
      cases read
      refine ⟨⟨by omega, Int.le_refl _, by decide, Or.inr rfl⟩, ?_⟩
      rw [magnitudeBits, Int.sub_self, zero, Int.toNat_zero]
    · rw [if_neg zero] at read
      cases read
      refine ⟨⟨by omega, ?_, by omega, Or.inl (by omega)⟩, ?_⟩
      · rw [leastExponent_eq]
        omega
      · have place : field * fractionSize + fraction =
            ((field : Int) - 1075 - leastExponent).toNat * fractionSize +
              (fractionSize + fraction) := by
          rw [leastExponent_eq, fractionSize_eq]
          omega
        rw [magnitudeBits, place]
  · obtain rfl : field = 2047 := by omega
    exact absurd read (ofBits_not_finite fractionFits sign negative)

end LineCalc.Binary
