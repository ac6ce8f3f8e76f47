import LineCalc.Text

/-! Decimal arithmetic on natural numbers: digit counts, scaling by powers of ten, and quotients
    rounded to the nearest integer. -/
namespace LineCalc.Decimal

def digitCount (n : Nat) : Nat := (Nat.toDigits 10 n).length

def digitValue (c : Char) : Nat := c.toNat - '0'.toNat

def ofDigits (t : Text) : Nat := t.foldl (fun n c => 10 * n + digitValue c) 0

/-- The integer nearest to num / den; an exact half goes to the even neighbour. -/
def roundDiv (num den : Nat) : Nat :=
  if 2 * (num % den) < den then num / den
  else if den < 2 * (num % den) then num / den + 1
  else num / den + num / den % 2

theorem le_roundDiv (num den : Nat) : num / den ≤ roundDiv num den := by
  unfold roundDiv
  split
  · exact Nat.le_refl _
  · split <;> omega

theorem roundDiv_le (num den : Nat) : roundDiv num den ≤ num / den + 1 := by
  unfold roundDiv
  split
  · omega
  · split <;> omega

structure Ratio where
  num : Nat
  den : Nat
  deriving DecidableEq, Repr

def Ratio.scale (r : Ratio) (base : Nat) (exponent : Int) : Ratio :=
  ⟨r.num * base.pow exponent.toNat, r.den * base.pow (-exponent).toNat⟩

def Ratio.lt (r s : Ratio) : Bool := r.num * s.den < s.num * r.den

def Ratio.le (r s : Ratio) : Bool := r.num * s.den ≤ s.num * r.den

def Ratio.magnitude (r : Ratio) : Int :=
  if r.den ≤ r.num then digitCount (r.num / r.den) - 1
  else -(digitCount ((r.den - 1) / r.num) : Int)

end LineCalc.Decimal
