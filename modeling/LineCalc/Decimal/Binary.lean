import LineCalc.Decimal

/-! Binary64 numbers taken apart exactly, and the binary64 number nearest to a ratio. A finite
    number is a sign and a whole mantissa times a power of two. -/
namespace LineCalc

open Decimal

inductive Binary
  | nan
  | infinite (negative : Bool)
  | finite (negative : Bool) (mantissa : Nat) (exponent : Int)
  deriving DecidableEq, Repr

namespace Binary

def fractionSize : Nat := Nat.pow 2 52

def signBit : Nat := Nat.pow 2 63

def leastExponent : Int := -1074

def infinityBits : Nat := 2047 * fractionSize

def ofBits (bits : Nat) : Binary :=
  let negative := bits / signBit % 2 == 1
  let exponent := bits / fractionSize % 2048
  let fraction := bits % fractionSize
  if exponent = 2047 then
    if fraction = 0 then .infinite negative else .nan
  else if exponent = 0 then .finite negative fraction leastExponent
  else .finite negative (fractionSize + fraction) (exponent - 1075)

def ofFloat (x : Float) : Binary := ofBits x.toBits.toNat

def ratio (mantissa : Nat) (exponent : Int) : Ratio := Ratio.scale ⟨mantissa, 1⟩ 2 exponent

def log2 (r : Ratio) : Int :=
  let k : Int := r.num.log2 - r.den.log2
  if (Ratio.scale ⟨1, 1⟩ 2 k).le r then k else k - 1

/-- The bits of the non-negative binary64 number nearest to r, an exact half going to the even
    mantissa. A mantissa that rounds up to the next power of two carries into the exponent. -/
def nearestBits (r : Ratio) : Nat :=
  if r.num = 0 then 0
  else
    let exponent := max leastExponent (log2 r - 52)
    let scaled := r.scale 2 (-exponent)
    let mantissa := roundDiv scaled.num scaled.den
    min infinityBits ((exponent - leastExponent).toNat * fractionSize + mantissa)

def nearest (negative : Bool) (r : Ratio) : Float :=
  Float.ofBits (UInt64.ofNat (nearestBits r + if negative then signBit else 0))

/-- The numbers whose nearest binary64 number is mantissa * 2 ^ exponent lie between the two
    halfway points; the halfway points themselves count for an even mantissa. Below a power of two
    the neighbours lie twice as close. -/
structure Interval where
  low : Ratio
  high : Ratio
  closed : Bool

def Interval.holds (i : Interval) (r : Ratio) : Bool :=
  if i.closed then i.low.le r && r.le i.high else i.low.lt r && r.lt i.high

def interval (mantissa : Nat) (exponent : Int) : Interval where
  low :=
    if mantissa = fractionSize ∧ leastExponent < exponent then
      ratio (4 * mantissa - 1) (exponent - 2)
    else ratio (2 * mantissa - 1) (exponent - 1)
  high := ratio (2 * mantissa + 1) (exponent - 1)
  closed := mantissa % 2 = 0

end Binary
end LineCalc
