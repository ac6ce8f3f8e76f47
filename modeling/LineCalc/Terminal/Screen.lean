import LineCalc.Terminal.Editor
import LineCalc.Terminal.Panel

/-! The screen of an editor: the expression line, its result, its tokens, the history and the
    keys, each in a panel. -/
namespace LineCalc.Terminal

def cursorStyle : Style := { ink? := some .black, ground? := some .white }

def errorStyle : Style := { ink? := some .red, underlined := true }

def characterStyle (cursor : Nat) (error? : Option Nat) (start : Nat) : Style :=
  if start = cursor then cursorStyle
  else if error? = some start then errorStyle
  else .plain

def characterSpans (cursor : Nat) (error? : Option Nat) (start : Nat) : Text → List Span
  | [] => []
  | c :: rest =>
    ⟨[c], characterStyle cursor error? start⟩ ::
      characterSpans cursor error? (start + c.utf8Size) rest

/-- Behind the last character the cursor stands on a blank. -/
def lineSpans (e : Editor) : List Span :=
  characterSpans e.cursor e.answer.errorPosition? 0 e.text ++
    if e.text.size ≤ e.cursor then [⟨[' '], cursorStyle⟩] else []

def expressionPanel (e : Editor) (width height : Nat) : Picture :=
  frame .cyan " Expression ".toList width height [runningRow (width - 2) (lineSpans e)]

def messageStyle (a : Answer) : Style :=
  if a.isBlank then .ink .gray
  else if a.isSuccess then { ink? := some .green, bold := true }
  else .ink .red

def resultPanel (e : Editor) (width height : Nat) : Picture :=
  frame .yellow " Result ".toList width height
    [runningRow (width - 2) [⟨e.answer.message, messageStyle e.answer⟩]]

def kindWidth : Nat := 11
def startWidth : Nat := 6

def tokenLine (style : Style) (width : Nat) (text kind start : Text) : Row :=
  let gap : Row := [⟨[' '], style⟩]
  let column := fun width t => labelRow style width [⟨t, .plain⟩]
  column (width - kindWidth - startWidth - 2) text ++ gap ++ column kindWidth kind ++ gap ++
    column startWidth start

def kindStyle : Kind → Style
  | .unknown => .ink .yellow
  | .blank => .ink .darkGray
  | .number | .operator => .plain

def tokenPanel (e : Editor) (width height : Nat) : Picture :=
  let heading := tokenLine { ink? := some .cyan, bold := true } (width - 2)
    "Token".toList "Type".toList "Index".toList
  let rows := (e.answer.tokens.take (height - 3)).map fun t =>
    tokenLine (kindStyle t.kind) (width - 2) t.text.quoted t.kind.label (Text.ofNat t.start)
  frame .magenta " Tokens ".toList width height (heading :: rows)

def entrySpans (e : Entry) : List Span :=
  [⟨e.expression, .ink .gray⟩, ⟨" = ".toList, .plain⟩, ⟨Decimal.display e.result, .ink .cyan⟩]

def historyPanel (e : Editor) (width height : Nat) : Picture :=
  frame .blue " History (newest first) ".toList width height
    ((e.session.history.newest (height - 2)).map fun entry =>
      labelRow .plain (width - 2) (entrySpans entry))

def keyNames : List (Text × Text) :=
  [("Enter".toList, "Submit".toList), ("Esc".toList, "Clear".toList), ("↑".toList, "Recall".toList),
    ("←/→".toList, "Move cursor".toList), ("Ctrl+L".toList, "Clear all".toList),
    ("Ctrl+C".toList, "Quit".toList)]

def helpPanel (width height : Nat) : Picture :=
  let keys := keyNames.map fun (key, does) =>
    [⟨key.padLeft 7, .ink .yellow⟩, ⟨[' '], .plain⟩, ⟨does, .ink .gray⟩]
  let lines : List (List Span) := keys ++ [[], [⟨"Ops: + - * /  ( )".toList, .ink .cyan⟩]]
  frame .darkGray " Help ".toList width height (lines.map (labelRow .plain (width - 2)))

def helpWidth : Nat := 24

/-- Fifty-five percent, rounded to the nearest column. -/
def tokensWidth (width : Nat) : Nat := (11 * width + 10) / 20

def mainPart (e : Editor) (width height : Nat) : Picture :=
  expressionPanel e width 3 ++ resultPanel e width 3 ++
    beside (tokenPanel e (tokensWidth width) (height - 6))
      (historyPanel e (width - tokensWidth width) (height - 6))

def screen (e : Editor) (width height : Nat) : Picture :=
  frame .white " NumberNoodle ".toList width height
    (beside (mainPart e (width - 2 - helpWidth) (height - 2)) (helpPanel helpWidth (height - 2)))

end LineCalc.Terminal
