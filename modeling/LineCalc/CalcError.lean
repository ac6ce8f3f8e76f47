import LineCalc.Text

/-! Why a text has no value. Five causes concern the form of the text, two its calculation. -/
namespace LineCalc

inductive CalcError
  | unbalanced (start : Nat)
  | unknownCharacter (character : Text) (start : Nat)
  | missingOperand (symbol : Char) (start : Nat)
  | badNumber (literal : Text) (start : Nat)
  | notOneValue (count : Nat)
  | notAnOperator (symbol : Char)
  | zeroDivisor (start : Nat)
  deriving DecidableEq, Repr

namespace CalcError

def isSyntax : CalcError → Bool
  | .notAnOperator _ | .zeroDivisor _ => false
  | _ => true

def position : CalcError → Option Nat
  | .unbalanced p | .unknownCharacter _ p | .missingOperand _ p | .badNumber _ p
  | .zeroDivisor p => some p
  | .notOneValue _ | .notAnOperator _ => none

def detail : CalcError → Text
  | .unbalanced p => s!"Unbalanced parentheses at position {p}".toList
  | .unknownCharacter c p =>
    "Unrecognized character '".toList ++ c ++ s!"' at position {p}".toList
  | .missingOperand c p => s!"Missing operand for '{c}' at position {p}".toList
  | .badNumber literal p =>
    "Invalid number '".toList ++ literal ++ s!"' at position {p}".toList
  | .notOneValue n =>
    s!"Malformed expression: expected a single result, found {n} values".toList
  | .notAnOperator c => s!"Invalid operator '{c}'".toList
  | .zeroDivisor p => s!"Division by zero at position {p}".toList

def message (e : CalcError) : Text :=
  (if e.isSyntax then "Syntax Error: " else "Error: ").toList ++ e.detail

end CalcError
end LineCalc
