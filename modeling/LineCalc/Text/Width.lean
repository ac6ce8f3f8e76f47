import LineCalc.Text.Wide
import LineCalc.Text.Cluster

/-! How many columns of a terminal a text takes. -/
namespace LineCalc.Text

def isControlCharacter (c : Char) : Bool := c.toNat ≤ 0x1F || isWithin 0x7F 0x9F c

/-- A control character that reaches the terminal is counted as one column. -/
def charWidth (c : Char) : Nat :=
  if ' ' ≤ c ∧ c ≤ '~' then 1
  else if isControlCharacter c then 1
  else if c = '\u115f' then 2
  else if inRanges ignorableRanges c || isExtending c || isVowelOrTrailing c then 0
  else if inRanges wideRanges c then 2
  else 1

def takesPresentation (c : Char) : Bool :=
  c.isDigit || c = '#' || c = '*' || inRanges pictographRanges c

/-- A carriage return and its line feed take one column together. -/
def width : Text → Nat
  | [] => 0
  | '\r' :: '\n' :: rest => 1 + width rest
  | c :: '\ufe0f' :: rest => (if takesPresentation c then 2 else charWidth c) + width rest
  | c :: rest => charWidth c + width rest

end LineCalc.Text
