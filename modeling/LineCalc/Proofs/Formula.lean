import LineCalc.Operator

/-!
Formulas and their values. A formula is computed from the left: the left operand,
the right operand, the operator. A zero divisor either counts as any other number
or ends the calculation.
-/
namespace LineCalc

inductive Formula
  | number (value : Float)
  | negation (operand : Formula)
  | binary (op : Operator) (start : Nat) (left right : Formula)

namespace Formula

/-- The left operand comes first, then the right one, then the operator. -/
def value (policy : ZeroDivision) : Formula → Except CalcError Float
  | .number value => .ok value
  | .negation operand => do
    let value ← operand.value policy
    return -value
  | .binary op start left right => do
    let left ← left.value policy
    let right ← right.value policy
    op.apply policy start left right

def ieee : Formula → Float
  | .number value => value
  | .negation operand => -operand.ieee
  | .binary .add _ left right => left.ieee + right.ieee
  | .binary .subtract _ left right => left.ieee - right.ieee
  | .binary .multiply _ left right => left.ieee * right.ieee
  | .binary .divide _ left right => left.ieee / right.ieee

def zeroDivisions : Formula → List Nat
  | .number _ => []
  | .negation operand => operand.zeroDivisions
  | .binary op start left right =>
    left.zeroDivisions ++ right.zeroDivisions ++
      if op = .divide ∧ right.ieee == 0 then [start] else []

theorem value_ieee (f : Formula) : f.value .ieee = .ok f.ieee := by
  induction f with
  | number value => rfl
  | negation operand ih => simp only [value, ih]; rfl
  | binary op start left right hl hr =>
    simp only [value, hl, hr]
    cases op <;> rfl

theorem value_reject (f : Formula) :
    f.value .reject =
      match f.zeroDivisions with
      | [] => .ok f.ieee
      | start :: _ => .error (.zeroDivisor start) := by
  induction f with
  | number value => rfl
  | negation operand ih =>
    simp only [value, ih, zeroDivisions]
    cases operand.zeroDivisions <;> rfl
  | binary op start left right hl hr =>
    simp only [value, hl, hr, zeroDivisions]
    cases left.zeroDivisions with
    | cons first more => rfl
    | nil =>
      cases right.zeroDivisions with
      | cons first more => rfl
      | nil =>
        cases op with
        | divide =>
          by_cases zero : (right.ieee == 0) = true <;>
            simp [zero, Operator.apply, ieee, bind, Except.bind]
        | _ => rfl

end Formula

end LineCalc
