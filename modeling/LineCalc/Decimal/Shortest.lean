import LineCalc.Decimal.Binary

/-! The shortest decimal that reads back as a given binary64 number: of the grids of one, two,
    three and more significant digits, the first that has a point in the number's interval, and of
    its points there the one nearest to the number. -/
namespace LineCalc.Decimal

open Binary

structure Scientific where
  digits : Nat
  exponent : Int
  deriving DecidableEq, Repr

def Scientific.ratio (s : Scientific) : Ratio := Ratio.scale ⟨s.digits, 1⟩ 10 s.exponent

def gridPoint (i : Interval) (r : Ratio) (exponent : Int) : Option Scientific :=
  let scaled := r.scale 10 (-exponent)
  let floor : Scientific := ⟨scaled.num / scaled.den, exponent⟩
  let above : Scientific := ⟨scaled.num / scaled.den + 1, exponent⟩
  let nearer : Scientific := ⟨roundDiv scaled.num scaled.den, exponent⟩
  match i.holds floor.ratio, i.holds above.ratio with
  | true, true => some nearer
  | true, false => some floor
  | false, true => some above
  | false, false => none

/-- Seventeen significant digits tell any two binary64 numbers apart. -/
def shortestFrom (i : Interval) (r : Ratio) (exponent : Int) : Nat → Scientific
  | 0 =>
    let scaled := r.scale 10 (-exponent)
    ⟨roundDiv scaled.num scaled.den, exponent⟩
  | more + 1 =>
    match gridPoint i r exponent with
    | some point => point
    | none => shortestFrom i r (exponent - 1) more

def Scientific.strip (s : Scientific) : Nat → Scientific
  | 0 => s
  | fuel + 1 =>
    if s.digits ≠ 0 ∧ s.digits % 10 = 0 then
      Scientific.strip ⟨s.digits / 10, s.exponent + 1⟩ fuel
    else s

def shortest (mantissa : Nat) (exponent : Int) : Scientific :=
  let r := Binary.ratio mantissa exponent
  (shortestFrom (interval mantissa exponent) r r.magnitude 16).strip 17

def Scientific.lead (s : Scientific) : Int := s.exponent + digitCount s.digits - 1

end LineCalc.Decimal
