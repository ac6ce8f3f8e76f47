import LineCalc.Text.Width

/-! Cells of a screen and pieces of styled text laid out in them. A text of two columns fills a
    cell and leaves the next one blank. -/
namespace LineCalc.Terminal

inductive Hue
  | black
  | red
  | green
  | yellow
  | blue
  | magenta
  | cyan
  | gray
  | darkGray
  | white
  deriving DecidableEq, Repr

structure Style where
  ink? : Option Hue := none
  ground? : Option Hue := none
  bold : Bool := false
  underlined : Bool := false
  deriving DecidableEq, Repr

namespace Style

def plain : Style := {}

def ink (h : Hue) : Style := { ink? := some h }

def onto (top under : Style) : Style where
  ink? := top.ink? <|> under.ink?
  ground? := top.ground? <|> under.ground?
  bold := top.bold || under.bold
  underlined := top.underlined || under.underlined

end Style

structure Cell where
  symbol : Text
  style : Style
  deriving DecidableEq, Repr

abbrev Row := List Cell

def Cell.blank : Cell := ⟨[' '], .plain⟩

def blanks (n : Nat) : Row := List.replicate n .blank

def fit (width : Nat) (filler : Cell) (row : Row) : Row :=
  (row ++ List.replicate (width - row.length) filler).take width

theorem length_fit (width : Nat) (filler : Cell) (row : Row) :
    (fit width filler row).length = width := by
  simp only [fit, List.length_take, List.length_append, List.length_replicate]
  omega

structure Span where
  text : Text
  style : Style
  deriving DecidableEq, Repr

structure Glyph where
  symbol : Text
  style : Style

def Glyph.width (g : Glyph) : Nat := Text.width g.symbol

def Span.glyphs (s : Span) : List Glyph :=
  ((Text.clusters s.text).filter (· ≠ ['\n'])).map fun symbol => ⟨symbol, s.style⟩

/-- The glyphs of a running text up to the first that does not fit; one that is wider than the
    whole room is passed over. -/
def takeFitting (room left : Nat) : List Glyph → List Glyph
  | [] => []
  | g :: rest =>
    if room < g.width then takeFitting room left rest
    else if left < g.width then []
    else g :: takeFitting room (left - g.width) rest

def Glyph.cells (g : Glyph) : Row :=
  if g.width = 0 then [] else ⟨g.symbol, g.style⟩ :: blanks (g.width - 1)

def runningRow (width : Nat) (spans : List Span) : Row :=
  fit width .blank ((takeFitting width width (spans.flatMap Span.glyphs)).flatMap Glyph.cells)

/-- The cells of one piece of a label, newest first, on cells of the given style. Glyphs without
    width join the cell before them, or the first cell; the hidden half of a wide glyph has no
    style. -/
def labelCells (under : Style) (room used : Nat) (drawn : Row) : List Glyph → Row
  | [] => drawn
  | g :: rest =>
    if room < used + g.width then drawn
    else
      match drawn, used, g.width with
      | c :: cs, 0, w =>
        labelCells under room w
          (blanks (w - 1) ++ ⟨c.symbol ++ g.symbol, g.style.onto c.style⟩ :: cs) rest
      | c :: cs, _, 0 =>
        labelCells under room used (⟨c.symbol ++ g.symbol, g.style.onto c.style⟩ :: cs) rest
      | cs, _, w =>
        labelCells under room (used + w)
          (blanks (w - 1) ++ ⟨g.symbol, g.style.onto under⟩ :: cs) rest

def labelRow (under : Style) (width : Nat) : List Span → Row
  | [] => List.replicate width ⟨[' '], under⟩
  | s :: more =>
    let taken := min width (Text.width s.text)
    if taken = 0 then labelRow under width more
    else
      fit taken ⟨[' '], under⟩ (labelCells under width 0 [] s.glyphs).reverse ++
        labelRow under (width - taken) more

def runsFrom (start : Nat) (style : Style) (count : Nat) : Row → List (Nat × Nat × Style)
  | [] => [(start, count, style)]
  | c :: rest =>
    if c.style = style then runsFrom start style (count + 1) rest
    else (start, count, style) :: runsFrom (start + count) c.style 1 rest

def runs : Row → List (Nat × Nat × Style)
  | [] => []
  | c :: rest => runsFrom 0 c.style 1 rest

end LineCalc.Terminal
