import LineCalc.Token
import LineCalc.Text.Blank

/-! Cutting a text into tokens: digits with at most one point among or after them, one operator
    character, a run of white space, or one character of any other sort. -/
namespace LineCalc

def isOperator (c : Char) : Bool :=
  c = '+' || c = '-' || c = '*' || c = '/' || c = '(' || c = ')'

def fractionPart : Text → Text × Text
  | '.' :: rest => ('.' :: rest.takeWhile Char.isDigit, rest.dropWhile Char.isDigit)
  | rest => ([], rest)

def numberPart (t : Text) : Text × Text :=
  let part := fractionPart (t.dropWhile Char.isDigit)
  (t.takeWhile Char.isDigit ++ part.1, part.2)

def lexeme (c : Char) (rest : Text) : Kind × Text × Text :=
  if c.isDigit then (.number, numberPart rest)
  else if isOperator c then (.operator, [], rest)
  else if isBlank c then (.blank, rest.takeWhile isBlank, rest.dropWhile isBlank)
  else (.unknown, [], rest)

theorem fractionPart_append (t : Text) : (fractionPart t).1 ++ (fractionPart t).2 = t := by
  unfold fractionPart
  split <;> simp

theorem numberPart_append (t : Text) : (numberPart t).1 ++ (numberPart t).2 = t := by
  simp [numberPart, fractionPart_append]

theorem lexeme_append (c : Char) (rest : Text) :
    (lexeme c rest).2.1 ++ (lexeme c rest).2.2 = rest := by
  unfold lexeme
  split
  · exact numberPart_append rest
  · split
    · rfl
    · split <;> simp

/-- A scan stands at a byte of the whole text and holds what is left. -/
structure Scan where
  position : Nat
  remaining : Text

namespace Scan

def ofText (t : Text) : Scan := ⟨0, t⟩

def next? (s : Scan) : Option (Token × Scan) :=
  match s.remaining with
  | [] => none
  | c :: rest =>
    let found := lexeme c rest
    let token : Token := ⟨c :: found.2.1, found.1, s.position⟩
    some (token, ⟨token.stop, found.2.2⟩)

theorem next?_append {s s' : Scan} {t : Token} (step : s.next? = some (t, s')) :
    s.remaining = t.text ++ s'.remaining ∧ t.start = s.position ∧ s'.position = t.stop := by
  unfold next? at step
  split at step
  · cases step
  · next c rest left =>
    simp only [Option.some.injEq, Prod.mk.injEq] at step
    obtain ⟨rfl, rfl⟩ := step
    simp [left, lexeme_append]

theorem next?_shorter {s s' : Scan} {t : Token} (step : s.next? = some (t, s')) :
    s'.remaining.length < s.remaining.length := by
  unfold next? at step
  split at step
  · cases step
  · next c rest left =>
    simp only [Option.some.injEq, Prod.mk.injEq] at step
    obtain ⟨rfl, rfl⟩ := step
    have whole := congrArg List.length (lexeme_append c rest)
    simp only [List.length_append] at whole
    simp only [left, List.length_cons]
    omega

def tokens (s : Scan) : List Token :=
  match _step : s.next? with
  | none => []
  | some (t, s') => t :: s'.tokens
termination_by s.remaining.length
decreasing_by exact next?_shorter _step

/-- The first n tokens, none for each one past the end, and what is left after each. -/
def steps (s : Scan) : Nat → List (Option Token × Scan)
  | 0 => []
  | n + 1 =>
    match s.next? with
    | none => (none, s) :: s.steps n
    | some (t, s') => (some t, s') :: s'.steps n

end Scan

def tokenize (t : Text) : List Token := (Scan.ofText t).tokens

end LineCalc
