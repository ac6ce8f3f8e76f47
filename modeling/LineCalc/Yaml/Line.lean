import LineCalc.Text

/-! Lines of a YAML text: breaks, gaps and comments, and the place where the next content
    stands. -/
namespace LineCalc.Yaml

def isBreak (c : Char) : Bool :=
  c = '\n' || c = '\r' || c = '\x85' || c = '\u2028' || c = '\u2029'

def isGap (c : Char) : Bool := c = ' ' || c = '\t'

def isAllowed (c : Char) : Bool :=
  let n := c.toNat
  n == 0x9 || n == 0xA || n == 0xD || (0x20 ≤ n && n ≤ 0x7E) || n == 0x85 ||
    (0xA0 ≤ n && n ≤ 0xFFFD) || 0x10000 ≤ n

def atBlank : Text → Bool
  | [] => true
  | c :: _ => isGap c || isBreak c

def dropGaps (t : Text) : Text := t.dropWhile isGap

def dropBreak : Text → Text
  | '\r' :: '\n' :: rest => rest
  | c :: rest => if isBreak c then rest else c :: rest
  | [] => []

def dropComment : Text → Text
  | '#' :: rest => rest.dropWhile fun c => ¬ isBreak c
  | t => t

/-- What follows the line, when nothing but gaps and a comment is left on it. -/
def endLine? (t : Text) : Option Text :=
  match dropComment (dropGaps t) with
  | [] => some []
  | c :: rest => if isBreak c then some (dropBreak (c :: rest)) else none

/-- Content and the column it stands in; no content is left at the end of the text. -/
structure Place where
  column : Nat
  rest : Text

/-- A byte order mark at the start of a line takes a column of its own, as a blank does. -/
def blankMark : Text → Text
  | '\ufeff' :: rest => ' ' :: rest
  | t => t

/-- Looks for content from the start of a line on. Only blanks may stand before it. Behind an
    unquoted scalar, blank lines and the first comment may have tabs from the column tabsFrom
    on. -/
def nextPlaceFrom (tabsFrom? : Option Nat) : Nat → Text → Option Place
  | 0, _ => none
  | fuel + 1, t =>
    let t := blankMark t
    let column := (t.takeWhile (· = ' ')).length
    let rest := t.dropWhile (· = ' ')
    match rest with
    | [] => some ⟨column, []⟩
    | '#' :: _ => nextPlaceFrom none fuel (dropBreak (dropComment rest))
    | '\t' :: _ =>
      match tabsFrom? with
      | none => none
      | some least =>
        if column < least then none
        else
          match dropGaps rest with
          | [] => some ⟨column, []⟩
          | '#' :: more => nextPlaceFrom none fuel (dropBreak (dropComment ('#' :: more)))
          | c :: more =>
            if isBreak c then nextPlaceFrom tabsFrom? fuel (dropBreak (c :: more)) else none
    | c :: _ =>
      if isBreak c then nextPlaceFrom tabsFrom? fuel (dropBreak rest) else some ⟨column, rest⟩

def nextPlace? (tabsFrom? : Option Nat) (t : Text) : Option Place :=
  nextPlaceFrom tabsFrom? (t.length + 1) t

def Place.isMarker (p : Place) (mark : Char) : Bool :=
  p.column = 0 && p.rest.take 3 = [mark, mark, mark] && atBlank (p.rest.drop 3)

inductive Spot
  | start
  | inside
  | comment
  deriving DecidableEq

/-- Inside braces line breaks and comments are gaps like any other, and so is a byte order mark at
    the start of a line. -/
def dropSpace (spot : Spot) : Text → Text
  | [] => []
  | c :: rest =>
    if isBreak c then dropSpace .start rest
    else if spot = .comment then dropSpace .comment rest
    else if isGap c || (spot = .start && c = '\ufeff') then dropSpace .inside rest
    else if c = '#' then dropSpace .comment rest
    else c :: rest

end LineCalc.Yaml
