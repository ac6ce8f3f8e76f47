import LineCalc.Text.Unprintable
import LineCalc.Text.Extending
import LineCalc.Text

/-! A text between quotes, so written that every character can be seen: an escape stands for each
    character that has no visible form or joins the one before it. -/
namespace LineCalc

def inRanges (ranges : List (Nat × Nat)) (c : Char) : Bool :=
  ranges.any fun r => r.1 ≤ c.toNat && c.toNat ≤ r.2

def isUnprintable (c : Char) : Bool := inRanges unprintableRanges c

def isExtending (c : Char) : Bool := 0x300 ≤ c.toNat && inRanges extendingRanges c

def hexDigits (n : Nat) : Text := Nat.toDigits 16 n

namespace Text

def quoteChar (c : Char) : Text :=
  if c = '"' ∨ c = '\\' then ['\\', c]
  else if c = '\n' then ['\\', 'n']
  else if c = '\r' then ['\\', 'r']
  else if c = '\t' then ['\\', 't']
  else if c = '\x00' then ['\\', '0']
  else if ' ' ≤ c ∧ c ≤ '~' then [c]
  else if isUnprintable c || isExtending c then
    ['\\', 'u', '\x7b'] ++ hexDigits c.toNat ++ ['\x7d']
  else [c]

def quoted (t : Text) : Text := '"' :: t.flatMap quoteChar ++ ['"']

end Text
end LineCalc
