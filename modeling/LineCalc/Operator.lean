import LineCalc.CalcError

/-! The four binary operators. Equal levels fold from the left. -/
namespace LineCalc

inductive ZeroDivision
  | ieee
  | reject
  deriving DecidableEq, Repr

inductive Operator
  | add
  | subtract
  | multiply
  | divide
  deriving DecidableEq, Repr

namespace Operator

def ofSymbol? : Char → Option Operator
  | '+' => some .add
  | '-' => some .subtract
  | '*' => some .multiply
  | '/' => some .divide
  | _ => none

def symbol : Operator → Char
  | .add => '+'
  | .subtract => '-'
  | .multiply => '*'
  | .divide => '/'

def level : Operator → Nat
  | .add | .subtract => 1
  | .multiply | .divide => 2

def apply (policy : ZeroDivision) (start : Nat) (left right : Float) :
    Operator → Except CalcError Float
  | .add => .ok (left + right)
  | .subtract => .ok (left - right)
  | .multiply => .ok (left * right)
  | .divide =>
    if policy = .reject ∧ right == 0 then .error (.zeroDivisor start) else .ok (left / right)

theorem ofSymbol?_symbol (op : Operator) : ofSymbol? op.symbol = some op := by
  cases op <;> rfl

theorem ofSymbol?_eq_some_iff {c : Char} {op : Operator} :
    ofSymbol? c = some op ↔ c = op.symbol := by
  constructor
  · intro h
    unfold ofSymbol? at h
    split at h <;> simp_all [symbol] <;> subst h <;> rfl
  · rintro rfl
    exact ofSymbol?_symbol op

end Operator
end LineCalc
