import LineCalc.Decimal.Binary

/-! Reading a number: an optional sign, then inf, infinity or nan in any case, or decimal digits
    with an optional point and an optional exponent. The value is the nearest binary64 number. -/
namespace LineCalc.Decimal

open Binary

structure Numeral where
  negative : Bool
  digits : Nat
  exponent : Int
  deriving DecidableEq, Repr

/-- A number of this many digits before or after the point is out of range. -/
def exponentLimit : Int := 400

def Numeral.value (n : Numeral) : Float :=
  let lead := n.exponent + digitCount n.digits
  if n.digits = 0 ∨ lead < -exponentLimit then nearest n.negative ⟨0, 1⟩
  else if exponentLimit < lead then nearest n.negative ⟨Nat.pow 2 1024, 1⟩
  else nearest n.negative (Ratio.scale ⟨n.digits, 1⟩ 10 n.exponent)

def sign : Text → Bool × Text
  | '-' :: rest => (true, rest)
  | '+' :: rest => (false, rest)
  | rest => (false, rest)

def digits? (t : Text) : Option Nat :=
  if t.isEmpty || !t.all Char.isDigit then none else some (ofDigits t)

def exponent? : Text → Option Int
  | [] => some 0
  | c :: rest =>
    if c = 'e' ∨ c = 'E' then
      (digits? (sign rest).2).map fun n => if (sign rest).1 then -(n : Int) else n
    else none

def fraction : Text → Text × Text
  | '.' :: rest => (rest.takeWhile Char.isDigit, rest.dropWhile Char.isDigit)
  | rest => ([], rest)

def unsigned? (negative : Bool) (t : Text) : Option Numeral :=
  let whole := t.takeWhile Char.isDigit
  let (part, rest) := fraction (t.dropWhile Char.isDigit)
  if whole.isEmpty && part.isEmpty then none
  else (exponent? rest).map fun e => ⟨negative, ofDigits (whole ++ part), e - part.length⟩

def named? (negative : Bool) (t : Text) : Option Float :=
  let word := t.map Char.toLower
  if word = "inf".toList ∨ word = "infinity".toList then
    some (nearest negative ⟨Nat.pow 2 1024, 1⟩)
  else if word = "nan".toList then some (Float.ofBits 0x7FF8000000000000)
  else none

def read? (t : Text) : Option Float :=
  let (negative, body) := sign t
  match unsigned? negative body with
  | some n => some n.value
  | none => named? negative body

end LineCalc.Decimal
