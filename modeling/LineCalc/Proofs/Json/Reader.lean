import LineCalc.Decimal.Numeral
import LineCalc.Proofs.Text.Quoted

/-!
A reader of JSON. A text is cut into marks and scalars, and these are put together by the grammar
of JSON; nothing else is read. A number that has a fraction or an exponent is read as the nearest
binary64 number, any other one as an integer.
-/
namespace LineCalc.Json

open Decimal

inductive Value
  | null
  | boolean (b : Bool)
  | integer (n : Int)
  | number (x : Float)
  | text (t : Text)
  | array (items : List Value)
  | object (members : List (Text × Value))

inductive Lexeme
  | mark (c : Char)
  | scalar (v : Value)

section Strings

def unit? : Text → Option (Nat × Text)
  | a :: b :: c :: d :: rest => (ofHex? [a, b, c, d]).map fun n => (n, rest)
  | _ => none

def isLeading (n : Nat) : Bool := 0xD800 ≤ n && n < 0xDC00

def isTrailing (n : Nat) : Bool := 0xDC00 ≤ n && n < 0xE000

/-- Of the two units of a character beyond the first plane, neither stands alone. -/
def unicode? (t : Text) : Option (Char × Text) :=
  match unit? t with
  | none => none
  | some (high, rest) =>
    if isLeading high then
      match rest with
      | '\\' :: 'u' :: behind =>
        match unit? behind with
        | some (low, rest) =>
          if isTrailing low then
            some (Char.ofNat (0x10000 + (high - 0xD800) * 0x400 + (low - 0xDC00)), rest)
          else none
        | none => none
      | _ => none
    else if isTrailing high then none
    else some (Char.ofNat high, rest)

def escape? : Text → Option (Char × Text)
  | '"' :: rest => some ('"', rest)
  | '\\' :: rest => some ('\\', rest)
  | '/' :: rest => some ('/', rest)
  | 'b' :: rest => some ('\x08', rest)
  | 'f' :: rest => some ('\x0c', rest)
  | 'n' :: rest => some ('\n', rest)
  | 'r' :: rest => some ('\r', rest)
  | 't' :: rest => some ('\t', rest)
  | 'u' :: rest => unicode? rest
  | _ => none

def stringChar? : Text → Option (Char × Text)
  | [] => none
  | c :: rest =>
    if c = '\\' then escape? rest
    else if c < ' ' then none
    else some (c, rest)

end Strings

section Numbers

def minus : Text → Bool × Text
  | '-' :: rest => (true, rest)
  | rest => (false, rest)

def fraction? : Text → Option (Text × Text)
  | '.' :: rest =>
    let part := rest.takeWhile Char.isDigit
    if part = [] then none else some (part, rest.dropWhile Char.isDigit)
  | rest => some ([], rest)

def power? : Text → Option (Option Int × Text)
  | [] => some (none, [])
  | c :: rest =>
    if c = 'e' ∨ c = 'E' then
      let (negative, body) := sign rest
      let digits := body.takeWhile Char.isDigit
      if digits = [] then none
      else
        let size : Int := ofDigits digits
        some (some (if negative then -size else size), body.dropWhile Char.isDigit)
    else some (none, c :: rest)

def numberValue (negative : Bool) (whole part : Text) (power? : Option Int) : Value :=
  match part, power? with
  | [], none =>
    let size : Int := ofDigits whole
    .integer (if negative then -size else size)
  | _, _ =>
    .number (Numeral.value ⟨negative, ofDigits (whole ++ part), power?.getD 0 - part.length⟩)

def number? (t : Text) : Option (Value × Text) :=
  let (negative, body) := minus t
  let whole := body.takeWhile Char.isDigit
  if whole = [] ∨ (whole.head? = some '0' ∧ whole ≠ ['0']) then none
  else
    match fraction? (body.dropWhile Char.isDigit) with
    | none => none
    | some (part, behind) =>
      (power? behind).map fun r => (numberValue negative whole part r.1, r.2)

end Numbers

section Lexemes

def isSpace (c : Char) : Bool := c = ' ' || c = '\t' || c = '\n' || c = '\r'

def isMark (c : Char) : Bool := c ∈ ['[', ']', '\x7b', '\x7d', ',', ':']

def scalar? : Text → Option (Value × Text)
  | 'n' :: 'u' :: 'l' :: 'l' :: rest => some (.null, rest)
  | 't' :: 'r' :: 'u' :: 'e' :: rest => some (.boolean true, rest)
  | 'f' :: 'a' :: 'l' :: 's' :: 'e' :: rest => some (.boolean false, rest)
  | '"' :: rest => (Text.untilQuote? stringChar? rest).map fun r => (.text r.1, r.2)
  | t => number? t

def lex? : Text → Option (List Lexeme)
  | [] => some []
  | c :: rest =>
    if isSpace c then lex? rest
    else if isMark c then (lex? rest).map (.mark c :: ·)
    else
      match scalar? (c :: rest) with
      | none => none
      | some (v, behind) =>
        if _shorter : behind.length < (c :: rest).length then (lex? behind).map (.scalar v :: ·)
        else none
termination_by t => t.length
decreasing_by
  · exact Nat.lt_succ_self rest.length
  · exact Nat.lt_succ_self rest.length
  · exact _shorter

end Lexemes

section Values

mutual

/-- A value at the front. No value has more parts inside each other than it has lexemes. -/
def value? : Nat → List Lexeme → Option (Value × List Lexeme)
  | _ + 1, .scalar v :: rest => some (v, rest)
  | _ + 1, .mark '[' :: .mark ']' :: rest => some (.array [], rest)
  | _ + 1, .mark '\x7b' :: .mark '\x7d' :: rest => some (.object [], rest)
  | size + 1, .mark '[' :: rest => (items? size rest).map fun r => (.array r.1, r.2)
  | size + 1, .mark '\x7b' :: rest => (members? size rest).map fun r => (.object r.1, r.2)
  | _, _ => none

def items? : Nat → List Lexeme → Option (List Value × List Lexeme)
  | 0, _ => none
  | size + 1, ls =>
    match value? size ls with
    | some (v, .mark ',' :: rest) => (items? size rest).map fun r => (v :: r.1, r.2)
    | some (v, .mark ']' :: rest) => some ([v], rest)
    | _ => none

def members? : Nat → List Lexeme → Option (List (Text × Value) × List Lexeme)
  | size + 1, .scalar (.text name) :: .mark ':' :: ls =>
    match value? size ls with
    | some (v, .mark ',' :: rest) => (members? size rest).map fun r => ((name, v) :: r.1, r.2)
    | some (v, .mark '\x7d' :: rest) => some ([(name, v)], rest)
    | _ => none
  | _, _ => none

end

def read? (t : Text) : Option Value :=
  match lex? t with
  | none => none
  | some ls =>
    match value? ls.length ls with
    | some (v, []) => some v
    | _ => none

end Values

end LineCalc.Json
