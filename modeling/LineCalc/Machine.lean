import LineCalc.Operator
import LineCalc.Token
import LineCalc.Decimal.Numeral

/-! The operator-precedence machine. Values and pending operators wait on two stacks, innermost
    first; an operator is applied once the next one binds no tighter. -/
namespace LineCalc

inductive Pending
  | group
  | negation
  | binary (op : Operator)
  deriving DecidableEq, Repr

namespace Pending

def level : Pending → Nat
  | .group => 0
  | .binary op => op.level
  | .negation => 3

def symbol : Pending → Char
  | .group => '('
  | .negation => '-'
  | .binary op => op.symbol

end Pending

abbrev Values := List Float

abbrev Stack := List (Pending × Nat)

def applyPending (policy : ZeroDivision) (values : Values) :
    Pending × Nat → Except CalcError Values
  | (.group, _) => .error (.notAnOperator '(')
  | (.negation, start) =>
    match values with
    | value :: rest => .ok (-value :: rest)
    | [] => .error (.missingOperand '-' start)
  | (.binary op, start) =>
    match values with
    | right :: left :: rest =>
      match op.apply policy start left right with
      | .ok value => .ok (value :: rest)
      | .error e => .error e
    | _ => .error (.missingOperand op.symbol start)

/-- Applies what binds at least as tightly as level, within the innermost group. -/
def reduce (policy : ZeroDivision) (level : Nat) (values : Values) :
    Stack → Except CalcError (Values × Stack)
  | [] => .ok (values, [])
  | top :: stack =>
    if top.1 = .group ∨ top.1.level < level then .ok (values, top :: stack)
    else
      match applyPending policy values top with
      | .ok values => reduce policy level values stack
      | .error e => .error e

def closeGroup (policy : ZeroDivision) (start : Nat) (values : Values) :
    Stack → Except CalcError (Values × Stack)
  | [] => .error (.unbalanced start)
  | top :: stack =>
    if top.1 = .group then .ok (values, stack)
    else
      match applyPending policy values top with
      | .ok values => closeGroup policy start values stack
      | .error e => .error e

def applyAll (policy : ZeroDivision) (values : Values) : Stack → Except CalcError Values
  | [] => .ok values
  | top :: stack =>
    match applyPending policy values top with
    | .ok values => applyAll policy values stack
    | .error e => .error e

/-- Where an operand is wanted, a minus is a negation and no subtraction. -/
structure Machine where
  values : Values
  stack : Stack
  wantsOperand : Bool

namespace Machine

def start : Machine := ⟨[], [], true⟩

def operand (m : Machine) (value : Float) : Machine := ⟨value :: m.values, m.stack, false⟩

def openGroup (m : Machine) (start : Nat) : Machine :=
  ⟨m.values, (.group, start) :: m.stack, true⟩

def negate (m : Machine) (start : Nat) : Machine :=
  ⟨m.values, (.negation, start) :: m.stack, m.wantsOperand⟩

def close (m : Machine) (policy : ZeroDivision) (start : Nat) : Except CalcError Machine :=
  match closeGroup policy start m.values m.stack with
  | .ok (values, stack) => .ok ⟨values, stack, false⟩
  | .error e => .error e

def binary (m : Machine) (policy : ZeroDivision) (op : Operator) (start : Nat) :
    Except CalcError Machine :=
  match reduce policy op.level m.values m.stack with
  | .ok (values, stack) => .ok ⟨values, (.binary op, start) :: stack, true⟩
  | .error e => .error e

/-- An operator token without text stands for the null character. -/
def operator (m : Machine) (policy : ZeroDivision) (symbol : Char) (start : Nat) :
    Except CalcError Machine :=
  if symbol = '(' then .ok (m.openGroup start)
  else if symbol = ')' then m.close policy start
  else if symbol = '-' ∧ m.wantsOperand then .ok (m.negate start)
  else
    match Operator.ofSymbol? symbol with
    | some op => m.binary policy op start
    | none => .error (.notAnOperator symbol)

def step (policy : ZeroDivision) (m : Machine) (t : Token) : Except CalcError Machine :=
  match t.kind with
  | .blank => .ok m
  | .unknown => .error (.unknownCharacter t.text t.start)
  | .number =>
    match Decimal.read? t.text with
    | some value => .ok (m.operand value)
    | none => .error (.badNumber t.text t.start)
  | .operator => m.operator policy (t.text.headD '\x00') t.start

def run (policy : ZeroDivision) (m : Machine) : List Token → Except CalcError Machine
  | [] => .ok m
  | t :: ts =>
    match m.step policy t with
    | .ok m => m.run policy ts
    | .error e => .error e

def result (m : Machine) (policy : ZeroDivision) : Except CalcError Float :=
  match applyAll policy m.values m.stack with
  | .ok [value] => .ok value
  | .ok values => .error (.notOneValue values.length)
  | .error e => .error e

theorem run_append (policy : ZeroDivision) (m : Machine) (before after : List Token) :
    m.run policy (before ++ after) =
      match m.run policy before with
      | .ok m => m.run policy after
      | .error e => .error e := by
  induction before generalizing m with
  | nil => rfl
  | cons t ts ih =>
    simp only [List.cons_append, run]
    cases m.step policy t with
    | ok m => exact ih m
    | error e => rfl

end Machine
end LineCalc
