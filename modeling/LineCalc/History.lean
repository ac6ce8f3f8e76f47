import LineCalc.Decimal.Display
import LineCalc.Json
import LineCalc.Text.Blank

/-! Past results, oldest first. A full history forgets its oldest entry for each new one. -/
namespace LineCalc

structure Entry where
  expression : Text
  result : Float

namespace Entry

def display (e : Entry) : Text := e.expression ++ " = ".toList ++ Decimal.display e.result

def json (e : Entry) : Json :=
  .object [("expression".toList, .text e.expression), ("result".toList, .number e.result)]

end Entry

structure History where
  capacity : Nat
  entries : List Entry

namespace History

def defaultCapacity : Nat := 100

def empty (capacity : Nat) : History := ⟨max capacity 1, []⟩

def record (h : History) (expression : Text) (result : Float) : History :=
  if expression.IsBlank then h
  else
    let kept := if h.entries.length < h.capacity then h.entries else h.entries.drop 1
    { h with entries := kept ++ [⟨expression, result⟩] }

def accepts (expression : Text) : Bool := ¬ expression.IsBlank

def clear (h : History) : History := { h with entries := [] }

def size (h : History) : Nat := h.entries.length

def newestFirst (h : History) : List Entry := h.entries.reverse

def first? (h : History) : Option Entry := h.entries.head?

def last? (h : History) : Option Entry := h.entries.getLast?

def get? (h : History) (i : Nat) : Option Entry := h.entries[i]?

def newest (h : History) (n : Nat) : List Entry := h.newestFirst.take n

def json (h : History) : Json := .array (h.entries.map Entry.json)

def jsonText [Json.Writer] (h : History) : Text := Json.Writer.compact h.json

def lines (h : History) : Text := Text.joinLines (h.entries.map Entry.display)

def listing (h : History) : Text :=
  Text.joinLines (h.entries.mapIdx fun i e =>
    (Text.ofNat (i + 1)).padLeft 3 ++ "  ".toList ++ e.display)

end History
end LineCalc
