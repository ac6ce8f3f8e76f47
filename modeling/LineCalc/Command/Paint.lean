import LineCalc.Text

/-! Colours of the output. -/
namespace LineCalc.Command

inductive Ink
  | success
  | failure
  | heading
  deriving DecidableEq, Repr

/-- What colours a text for a terminal. A line that is coloured stays one line. -/
class Painter where
  paint : Ink → Text → Text
  single : ∀ ink t, '\n' ∉ t → '\n' ∉ paint ink t

def paint [Painter] (colored : Bool) (ink : Ink) (t : Text) : Text :=
  if colored then Painter.paint ink t else t

def answerInk? (isBlank isSuccess : Bool) : Option Ink :=
  if isBlank then none else if isSuccess then some .success else some .failure

end LineCalc.Command
