import LineCalc.Machine
import LineCalc.Parens
import LineCalc.Token.Scan

/-! The rules of a calculation: what happens to characters that mean nothing, and to zero
    divisors. A text is cut into tokens, the rules pick the tokens to keep, their parentheses must
    match, and the machine computes the value. -/
namespace LineCalc

inductive Unknowns
  | strict
  | lenient
  deriving DecidableEq, Repr

structure Rules where
  unknowns : Unknowns := .strict
  zeroDivision : ZeroDivision := .ieee
  deriving DecidableEq, Repr

namespace Rules

/-- Drops white space, and unknown characters under the lenient rule. -/
def keep (rules : Rules) : List Token → Except CalcError (List Token)
  | [] => .ok []
  | t :: ts =>
    match t.kind, rules.unknowns with
    | .blank, _ | .unknown, .lenient => rules.keep ts
    | .unknown, .strict => .error (.unknownCharacter t.text t.start)
    | .number, _ | .operator, _ => (rules.keep ts).map (t :: ·)

def evaluateRaw (rules : Rules) (ts : List Token) : Except CalcError Float :=
  match Machine.start.run rules.zeroDivision ts with
  | .ok m => m.result rules.zeroDivision
  | .error e => .error e

def evaluateTokens (rules : Rules) (ts : List Token) : Except CalcError Float :=
  match rules.keep ts with
  | .error e => .error e
  | .ok kept =>
    match Parens.balance kept with
    | .error e => .error e
    | .ok () => rules.evaluateRaw kept

def evaluate (rules : Rules) (t : Text) : Except CalcError Float :=
  rules.evaluateTokens (tokenize t)

end Rules
end LineCalc
