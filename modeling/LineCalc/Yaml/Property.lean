import LineCalc.Yaml.Line
import LineCalc.Decimal

/-! What may stand before a scalar or a mapping: an anchor and a tag. A tag is a handle and a
    suffix; directives before the document say what a handle stands for. -/
namespace LineCalc.Yaml

structure Handle where
  name : Text
  stands : Text

def defaultHandles : List Handle :=
  [⟨"!".toList, "!".toList⟩, ⟨"!!".toList, "tag:yaml.org,2002:".toList⟩]

def isWordChar (c : Char) : Bool := c.isAlphanum || c = '_' || c = '-'

def isTagChar (c : Char) : Bool := isWordChar c || ";/?:@&=+$.%!~*'()".toList.contains c

def isVerbatimChar (c : Char) : Bool := isTagChar c || c = ',' || c = '[' || c = ']'

def hexDigit? (c : Char) : Option Nat :=
  if c.isDigit then some (c.toNat - '0'.toNat)
  else if 'a' ≤ c ∧ c ≤ 'f' then some (c.toNat - 'a'.toNat + 10)
  else if 'A' ≤ c ∧ c ≤ 'F' then some (c.toNat - 'A'.toNat + 10)
  else none

def hexValue? (t : Text) : Option Nat :=
  t.foldlM (fun n c => (hexDigit? c).map (16 * n + ·)) 0

/-- Each run of percent signs with two hexadecimal digits stands for a character's bytes; here for
    one byte at a time below 128. -/
def unescape? : Text → Option Text
  | [] => some []
  | '%' :: a :: b :: rest =>
    match hexValue? [a, b] with
    | some n => if n < 128 then (unescape? rest).map (Char.ofNat n :: ·) else none
    | none => none
  | c :: rest => if c = '%' then none else (unescape? rest).map (c :: ·)

def standsFor? (handles : List Handle) (name : Text) : Option Text :=
  (handles.find? fun h => h.name = name).map Handle.stands

def tag? (handles : List Handle) (t : Text) : Option (Text × Text) :=
  match t with
  | '<' :: rest =>
    match rest.dropWhile isVerbatimChar with
    | '>' :: after =>
      if (rest.takeWhile isVerbatimChar).isEmpty then none
      else (unescape? (rest.takeWhile isVerbatimChar)).map fun uri => (uri, after)
    | _ => none
  | _ =>
    match t.dropWhile isWordChar with
    | '!' :: rest =>
      if (rest.takeWhile isTagChar).isEmpty then none
      else
        match standsFor? handles ('!' :: t.takeWhile isWordChar ++ ['!']),
            unescape? (rest.takeWhile isTagChar) with
        | some stands, some suffix => some (stands ++ suffix, rest.dropWhile isTagChar)
        | _, _ => none
    | _ =>
      if (t.takeWhile isTagChar).isEmpty then some (['!'], t)
      else
        match standsFor? handles ['!'], unescape? (t.takeWhile isTagChar) with
        | some stands, some suffix => some (stands ++ suffix, t.dropWhile isTagChar)
        | _, _ => none

structure Properties where
  anchored : Bool := false
  tag? : Option Text := none

def endsAnchor : Text → Bool
  | [] => true
  | c :: _ => isGap c || isBreak c || "?:,]\x7d%@\x60".toList.contains c

def endsTag (inBraces : Bool) (t : Text) : Bool :=
  atBlank t || (inBraces && t.head? = some ',')

def property? (handles : List Handle) (inBraces : Bool) (p : Properties) :
    Text → Option (Option (Properties × Text))
  | '&' :: t =>
    let rest := t.dropWhile isWordChar
    if p.anchored || (t.takeWhile isWordChar).isEmpty || ¬ endsAnchor rest then none
    else some (some ({ p with anchored := true }, rest))
  | '!' :: t =>
    match p.tag?, tag? handles t with
    | none, some (tag, rest) =>
      if endsTag inBraces rest then some (some ({ p with tag? := some tag }, rest)) else none
    | _, _ => none
  | _ => some none

def propertiesFrom (handles : List Handle) (inBraces : Bool) (p : Properties) :
    Nat → Text → Option (Properties × Text)
  | 0, _ => none
  | fuel + 1, t =>
    match property? handles inBraces p t with
    | none => none
    | some none => some (p, t)
    | some (some (p, rest)) => propertiesFrom handles inBraces p fuel (dropGaps rest)

def properties? (handles : List Handle) (inBraces : Bool) (t : Text) : Option (Properties × Text) :=
  propertiesFrom handles inBraces {} 3 t

end LineCalc.Yaml
