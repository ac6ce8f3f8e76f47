import LineCalc.Token

/-! JSON values, and what writes them as texts. -/
namespace LineCalc

inductive Json
  | null
  | natural (n : Nat)
  | number (x : Float)
  | text (t : Text)
  | array (items : List Json)
  | object (members : List (Text × Json))

namespace Json

/-- What writes values as texts, on one line or on many. -/
class Writer where
  compact : Json → Text
  indented : Json → Text

def ofOption (f : α → Json) : Option α → Json
  | none => .null
  | some a => f a

def ofToken (t : Token) : Json :=
  .object [("value".toList, .text t.text), ("kind".toList, .text t.kind.label),
    ("position".toList, .natural t.start)]

def ofTokens (ts : List Token) : Json := .array (ts.map ofToken)

end Json
end LineCalc
