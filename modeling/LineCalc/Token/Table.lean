import LineCalc.Token
import LineCalc.Text.Quoted

/-! Tokens as a table: the quoted text, the kind and the start of each, under a heading. A column
    is as wide as its widest cell. -/
namespace LineCalc

def columnWidth (cells : List Text) : Nat := (cells.map List.length).foldl max 0

def tokenRow (textWidth kindWidth : Nat) (text kind start : Text) : Text :=
  text.padRight textWidth ++ "  ".toList ++ kind.padRight kindWidth ++ "  ".toList ++ start

def tableHeading : Text × Text × Text := ("Token".toList, "Type".toList, "Index".toList)

def tableLines (ts : List Token) : List Text :=
  let rows := ts.map fun t => (t.text.quoted, t.kind.label, Text.ofNat t.start)
  let all := tableHeading :: rows
  let textWidth := columnWidth (all.map (·.1))
  let kindWidth := columnWidth (all.map (·.2.1))
  all.map fun row => tokenRow textWidth kindWidth row.1 row.2.1 row.2.2

def tokenTable (ts : List Token) : Text := Text.joinLines (tableLines ts)

def Token.summary (t : Token) : Text :=
  t.text.quoted ++ ' ' :: t.kind.label ++ " @".toList ++ Text.ofNat t.start

end LineCalc
