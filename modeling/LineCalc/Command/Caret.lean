import LineCalc.Text

/-! Pointing at a byte of a text: the text, and below it a caret in the same column. -/
namespace LineCalc.Command

def caret? (t : Text) (position : Nat) : Option Text :=
  if position < t.size ∧ t.IsBoundary position then
    some ("  ".toList ++ t ++ "\n  ".toList ++ Text.spaces (t.cut position).1.length ++ ['^'])
  else none

end LineCalc.Command
