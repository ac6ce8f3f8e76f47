import LineCalc.Decimal.Shortest
import LineCalc.Json
import LineCalc.Text.Quoted

/-! A way to write JSON. A number that is not finite is written as null. -/
namespace LineCalc.Json

open Decimal

def escapeChar (c : Char) : Text :=
  if c = '"' ∨ c = '\\' then ['\\', c]
  else if c = '\x08' then ['\\', 'b']
  else if c = '\x0c' then ['\\', 'f']
  else if c = '\n' then ['\\', 'n']
  else if c = '\r' then ['\\', 'r']
  else if c = '\t' then ['\\', 't']
  else if c < ' ' then "\\u".toList ++ List.replicate (4 - (hexDigits c.toNat).length) '0' ++
    hexDigits c.toNat
  else [c]

def stringText (t : Text) : Text := '"' :: t.flatMap escapeChar ++ ['"']

def positional (s : Scientific) : Text :=
  let digits := Text.ofNat s.digits
  if 0 ≤ s.exponent then digits ++ List.replicate s.exponent.toNat '0' ++ ".0".toList
  else
    let after := (-s.exponent).toNat
    let padded := List.replicate (after + 1 - digits.length) '0' ++ digits
    padded.take (padded.length - after) ++ '.' :: padded.drop (padded.length - after)

def exponential (s : Scientific) : Text :=
  match Text.ofNat s.digits with
  | [] => []
  | first :: others =>
    first :: (if others.isEmpty then [] else '.' :: others) ++
      ['e', if s.lead < 0 then '-' else '+'] ++ Text.ofNat s.lead.natAbs

/-- The shortest digits that read back. They are positional while the first digit stands for a
    power of ten from -5 to 15. -/
def numberText (x : Float) : Text :=
  match Binary.ofFloat x with
  | .nan | .infinite _ => "null".toList
  | .finite negative mantissa exponent =>
    let s := shortest mantissa exponent
    (if negative then ['-'] else []) ++
      if mantissa = 0 then "0.0".toList
      else if -5 ≤ s.lead ∧ s.lead ≤ 15 then positional s
      else exponential s

mutual

def compact : Json → Text
  | .null => "null".toList
  | .natural n => Text.ofNat n
  | .number x => numberText x
  | .text t => stringText t
  | .array items => '[' :: compactItems items ++ [']']
  | .object members => '\x7b' :: compactMembers members ++ ['\x7d']

def compactItems : List Json → Text
  | [] => []
  | [item] => item.compact
  | item :: next :: more => item.compact ++ ',' :: compactItems (next :: more)

def compactMembers : List (Text × Json) → Text
  | [] => []
  | [(name, value)] => stringText name ++ ':' :: value.compact
  | (name, value) :: next :: more =>
    stringText name ++ ':' :: value.compact ++ ',' :: compactMembers (next :: more)

end

def newLine (depth : Nat) : Text := '\n' :: Text.spaces (2 * depth)

mutual

def pretty (depth : Nat) : Json → Text
  | .array (item :: more) =>
    '[' :: prettyItems (depth + 1) (item :: more) ++ newLine depth ++ [']']
  | .object (member :: more) =>
    '\x7b' :: prettyMembers (depth + 1) (member :: more) ++ newLine depth ++ ['\x7d']
  | .array [] => ['[', ']']
  | .object [] => ['\x7b', '\x7d']
  | .null => "null".toList
  | .natural n => Text.ofNat n
  | .number x => numberText x
  | .text t => stringText t

def prettyItems (depth : Nat) : List Json → Text
  | [] => []
  | [item] => newLine depth ++ item.pretty depth
  | item :: next :: more =>
    newLine depth ++ item.pretty depth ++ ',' :: prettyItems depth (next :: more)

def prettyMembers (depth : Nat) : List (Text × Json) → Text
  | [] => []
  | [(name, value)] => newLine depth ++ stringText name ++ ": ".toList ++ value.pretty depth
  | (name, value) :: next :: more =>
    newLine depth ++ stringText name ++ ": ".toList ++ value.pretty depth ++
      ',' :: prettyMembers depth (next :: more)

end

end LineCalc.Json
