import LineCalc.Text

/-! A token is a piece of the text with its kind and the byte at which it starts. -/
namespace LineCalc

inductive Kind
  | number
  | operator
  | blank
  | unknown
  deriving DecidableEq, Repr

def Kind.label : Kind → Text
  | .number => "number".toList
  | .operator => "operator".toList
  | .blank => "whitespace".toList
  | .unknown => "identifier".toList

structure Token where
  text : Text
  kind : Kind
  start : Nat
  deriving DecidableEq, Repr

namespace Token

def stop (t : Token) : Nat := t.start + t.text.size

def symbol? (t : Token) : Option Char := if t.kind = .operator then t.text.head? else none

def opens (t : Token) : Bool := t.symbol? = some '('

def closes (t : Token) : Bool := t.symbol? = some ')'

def shift (n : Nat) (t : Token) : Token := { t with start := t.start + n }

end Token
end LineCalc
