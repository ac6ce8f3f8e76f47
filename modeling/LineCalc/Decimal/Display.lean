import LineCalc.Decimal.Shortest

/-! The text of a number. Between 10 ^ -10 and 10 ^ 21 it is plain: ten places, a half going to
    the even neighbour, without zeros or a point at the end. Any other number but zero has the
    shortest digits that read back and an exponent. -/
namespace LineCalc.Decimal

open Binary

def places : Nat := 10

def trimZeros (t : Text) : Text := (t.reverse.dropWhile (· = '0')).reverse

def pointed (digits : Nat) : Text :=
  let one := Nat.pow 10 places
  let part := trimZeros ((Text.ofNat (one + digits % one)).drop 1)
  Text.ofNat (digits / one) ++ if part.isEmpty then [] else '.' :: part

def plain (r : Ratio) : Text :=
  let scaled := r.scale 10 places
  pointed (roundDiv scaled.num scaled.den)

def ofInt (n : Int) : Text :=
  (if n < 0 then ['-'] else []) ++ Text.ofNat n.natAbs

def scientific (s : Scientific) : Text :=
  match Text.ofNat s.digits with
  | [] => []
  | first :: others =>
    first :: (if others.isEmpty then [] else '.' :: others) ++ 'e' :: ofInt s.lead

def isPlain (r : Ratio) : Bool :=
  (Ratio.mk 1 (Nat.pow 10 10)).le r && r.lt ⟨Nat.pow 10 21, 1⟩

def magnitudeText (mantissa : Nat) (exponent : Int) : Text :=
  if mantissa = 0 then ['0']
  else if isPlain (ratio mantissa exponent) then plain (ratio mantissa exponent)
  else scientific (shortest mantissa exponent)

def display (x : Float) : Text :=
  match Binary.ofFloat x with
  | .nan => "NaN".toList
  | .infinite negative => (if negative then "-Infinity" else "Infinity").toList
  | .finite negative mantissa exponent =>
    (if negative ∧ mantissa ≠ 0 then ['-'] else []) ++ magnitudeText mantissa exponent

end LineCalc.Decimal
