import LineCalc.Proofs.Decimal.Binary
import Mathlib

/-!
The bits of a floating-point value. All patterns of bits are kept as they are but for those of
values that are no numbers, and a negation changes nothing but the sign.
-/
namespace LineCalc.Binary

open Float.Model Float.Model.UnpackedFloat

def negate : Binary → Binary
  | .nan => .nan
  | .infinite negative => .infinite (!negative)
  | .finite negative mantissa exponent => .finite (!negative) mantissa exponent

section Fields

variable (b : BitVec Format.binary64.numBits)

theorem sign_toNat : (unpackSign b).toNat = b.toNat / signBit % 2 := by
  rw [unpackSign_def, BitVec.extractLsb'_toNat, Nat.shiftRight_eq_div_pow]
  rfl

theorem exponent_toNat : (unpackExponent b).toNat = b.toNat / fractionSize % 2048 := by
  rw [unpackExponent_def, BitVec.extractLsb'_toNat, Nat.shiftRight_eq_div_pow]
  rfl

theorem fraction_toNat : (unpackMantissa b).toNat = b.toNat % fractionSize := by
  rw [unpackMantissa_def, BitVec.extractLsb'_toNat, Nat.shiftRight_eq_div_pow, Nat.pow_zero,
    Nat.div_one]
  rfl

theorem isNaNBits_iff : isNaNBits b = true ↔ ofBits b.toNat = .nan := by
  have full : unpackExponent b = -1#_ ↔ b.toNat / fractionSize % 2048 = 2047 := by
    rw [← exponent_toNat, ← BitVec.toNat_inj]
    rfl
  have none : unpackMantissa b = 0#_ ↔ b.toNat % fractionSize = 0 := by
    rw [← fraction_toNat, ← BitVec.toNat_inj]
    rfl
  rw [isNaNBits, decide_eq_true_iff, full, ne_eq, none, ofBits]
  split_ifs with infinite zero subnormal <;> simp [*]

theorem ofBits_flipped :
    ofBits (packComponents Format.binary64 (-Sign.ofBitVec (unpackSign b)) (unpackExponent b)
      (unpackMantissa b)).toNat = (ofBits b.toNat).negate := by
  have flipped : ((-Sign.ofBitVec (unpackSign b)).toBitVec.toNat == 1) =
      !((unpackSign b).toNat == 1) := by
    generalize unpackSign b = sign
    revert sign
    decide
  rw [ofBits, ← sign_toNat, ← exponent_toNat, ← fraction_toNat, unpackSign_packComponents,
    unpackExponent_packComponents, unpackMantissa_packComponents, flipped, ofBits,
    ← sign_toNat, ← exponent_toNat, ← fraction_toNat]
  simp only
  split_ifs <;> rfl

theorem neg_unpack :
    (unpack Format.binary64 b).neg = unpack Format.binary64
      (packComponents Format.binary64 (-Sign.ofBitVec (unpackSign b)) (unpackExponent b)
        (unpackMantissa b)) := by
  unfold UnpackedFloat.unpack
  simp only [unpackSign_packComponents, unpackExponent_packComponents,
    unpackMantissa_packComponents, Sign.ofBitVec_toBitVec]
  split_ifs <;> rfl

theorem pack_unpack_of_number (number : ofBits b.toNat ≠ .nan) :
    (unpack Format.binary64 b).pack Format.binary64 = b := by
  rw [pack_unpack b, if_neg (by rwa [isNaNBits_iff])]

theorem ofBits_pack_neg :
    ofBits ((unpack Format.binary64 b).neg.pack Format.binary64).toNat =
      (ofBits b.toNat).negate := by
  rw [neg_unpack, pack_unpack]
  split_ifs with nan
  · rw [isNaNBits_iff, ofBits_flipped] at nan
    rw [nan]
    decide
  · exact ofBits_flipped b

end Fields

theorem ofFloat_ofBits {bits : Nat} (small : bits < 2 * signBit) (number : ofBits bits ≠ .nan) :
    ofFloat (Float.ofBits (UInt64.ofNat bits)) = ofBits bits := by
  have same : (UInt64.ofNat bits).toBitVec.toNat = bits := Nat.mod_eq_of_lt small
  rw [← same] at number
  have kept : (Float.ofBits (UInt64.ofNat bits)).toBits.toBitVec = (UInt64.ofNat bits).toBitVec :=
    pack_unpack_of_number _ number
  rw [ofFloat, ← UInt64.toNat_toBitVec, kept, same]

theorem ofFloat_neg (x : Float) : ofFloat (-x) = (ofFloat x).negate :=
  ofBits_pack_neg x.toBits.toBitVec

theorem toBits_lt (x : Float) : x.toBits.toNat < 2 * signBit := x.toBits.toNat_lt

theorem eq_of_ofFloat {x y : Float} {negative : Bool} {mantissa : Nat} {exponent : Int}
    (left : ofFloat x = .finite negative mantissa exponent)
    (right : ofFloat y = .finite negative mantissa exponent) : x = y := by
  have one := (finite_of_ofBits (toBits_lt x) left).2
  have other := (finite_of_ofBits (toBits_lt y) right).2
  exact Float.toBits_inj.mp (UInt64.toNat_inj.mp (one.trans other.symm))

theorem canonical_of_ofFloat {x : Float} {negative : Bool} {mantissa : Nat} {exponent : Int}
    (read : ofFloat x = .finite negative mantissa exponent) : Canonical mantissa exponent :=
  (finite_of_ofBits (toBits_lt x) read).1

end LineCalc.Binary
