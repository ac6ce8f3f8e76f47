import LineCalc.Yaml.Property

/-! Scalars: plain, quoted, and blocks of one line. A scalar that runs over several lines holds a
    blank or a break, which no setting has, so only those line breaks are read that leave nothing
    behind. -/
namespace LineCalc.Yaml

inductive Style
  | plain
  | quoted
  | literal
  | folded
  deriving DecidableEq, Repr

structure Scalar where
  style : Style
  text : Text
  tag? : Option Text
  deriving DecidableEq, Repr

def isBrace (c : Char) : Bool := ",[]\x7b\x7d".toList.contains c

def isIndicator (c : Char) : Bool := isBrace c || "-?:#&*!|>'\"%@\x60".toList.contains c

def endsPlain (inBraces : Bool) (c : Char) (rest : Text) : Bool :=
  isBreak c ||
    (c = ':' && (atBlank rest || (inBraces && (rest.head?.map isBrace).getD false))) ||
    (isGap c && (dropGaps rest).head? = some '#') ||
    (inBraces && isBrace c)

def plainSpan (inBraces : Bool) : Text → Text × Text
  | [] => ([], [])
  | c :: rest =>
    if endsPlain inBraces c rest then ([], c :: rest)
    else (c :: (plainSpan inBraces rest).1, (plainSpan inBraces rest).2)

def trimGaps (t : Text) : Text := (t.reverse.dropWhile isGap).reverse

/-- Between braces a byte order mark goes on with a plain scalar of the lines before. -/
def goesOn (inBraces : Bool) (rest : Text) : Bool :=
  inBraces && (rest.dropWhile fun c => isGap c || isBreak c).head? = some '\ufeff'

def plain? (inBraces : Bool) (t : Text) : Option (Text × Text) :=
  match t with
  | [] => none
  | c :: _ =>
    if isIndicator c || isGap c || isBreak c || goesOn inBraces (plainSpan inBraces t).2 then none
    else some (trimGaps (plainSpan inBraces t).1, (plainSpan inBraces t).2)

def singleQuoted? : Text → Option (Text × Text)
  | '\'' :: '\'' :: rest => (singleQuoted? rest).map fun r => ('\'' :: r.1, r.2)
  | c :: rest =>
    if c = '\'' then some ([], rest)
    else if isBreak c then none
    else (singleQuoted? rest).map fun r => (c :: r.1, r.2)
  | [] => none

def simpleEscape? : Char → Option Char
  | '0' => some '\x00'
  | 'a' => some '\x07'
  | 'b' => some '\x08'
  | 't' | '\t' => some '\t'
  | 'n' => some '\n'
  | 'v' => some '\x0b'
  | 'f' => some '\x0c'
  | 'r' => some '\r'
  | 'e' => some '\x1b'
  | ' ' => some ' '
  | '"' => some '"'
  | '/' => some '/'
  | '\\' => some '\\'
  | 'N' => some '\x85'
  | '_' => some '\xa0'
  | 'L' => some '\u2028'
  | 'P' => some '\u2029'
  | _ => none

def codeLength? : Char → Option Nat
  | 'x' => some 2
  | 'u' => some 4
  | 'U' => some 8
  | _ => none

def scalarValue? (n : Nat) : Option Char := if n.isValidChar then some (Char.ofNat n) else none

def escape? (c : Char) (rest : Text) : Option (Char × Text) :=
  match codeLength? c with
  | some n =>
    if rest.length < n then none
    else ((hexValue? (rest.take n)).bind scalarValue?).map fun d => (d, rest.drop n)
  | none => (simpleEscape? c).map fun d => (d, rest)

/-- A backslash before a break hides the break and the gaps of the next line. -/
def doubleQuotedFrom (lines : Bool) : Nat → Text → Option (Text × Text)
  | 0, _ | _, [] => none
  | fuel + 1, c :: rest =>
    if c = '"' then some ([], rest)
    else if isBreak c then none
    else if c = '\\' then
      match rest with
      | [] => none
      | d :: more =>
        if isBreak d then
          if lines then doubleQuotedFrom lines fuel (dropGaps (dropBreak (d :: more))) else none
        else
          match escape? d more with
          | none => none
          | some (e, after) => (doubleQuotedFrom lines fuel after).map fun r => (e :: r.1, r.2)
    else (doubleQuotedFrom lines fuel rest).map fun r => (c :: r.1, r.2)

def doubleQuoted? (lines : Bool) (t : Text) : Option (Text × Text) :=
  doubleQuotedFrom lines (t.length + 1) t

def inline? (inBraces lines : Bool) (t : Text) : Option (Style × Text × Text) :=
  match t with
  | '\'' :: rest => (singleQuoted? rest).map fun r => (.quoted, r.1, r.2)
  | '"' :: rest => (doubleQuoted? lines rest).map fun r => (.quoted, r.1, r.2)
  | _ => (plain? inBraces t).map fun r => (.plain, r.1, r.2)

inductive Chomp
  | strip
  | clip
  | keep
  deriving DecidableEq, Repr

def chomp? : Char → Option Chomp
  | '-' => some .strip
  | '+' => some .keep
  | _ => none

def indentation? (c : Char) : Option Nat :=
  if '1' ≤ c ∧ c ≤ '9' then some (c.toNat - '0'.toNat) else none

def blockHeader (t : Text) : Chomp × Option Nat × Text :=
  match t with
  | a :: b :: rest =>
    match chomp? a, indentation? b, indentation? a, chomp? b with
    | some chomp, some n, _, _ => (chomp, some n, rest)
    | some chomp, none, _, _ => (chomp, none, b :: rest)
    | none, _, some n, some chomp => (chomp, some n, rest)
    | none, _, some n, none => (.clip, some n, b :: rest)
    | none, _, none, _ => (.clip, none, a :: b :: rest)
  | [a] =>
    match chomp? a, indentation? a with
    | some chomp, _ => (chomp, none, [])
    | none, some n => (.clip, some n, [])
    | none, none => (.clip, none, [a])
  | [] => (.clip, none, [])

/-- Blank lines end a block of one line; a line that goes on at its indentation does not. -/
def blockTail? (indent : Nat) : Nat → Text → Option Text
  | 0, _ => none
  | fuel + 1, t =>
    let column := (t.takeWhile (· = ' ')).length
    match t.dropWhile (· = ' ') with
    | [] => if indent < column then none else some []
    | c :: rest =>
      if isBreak c then
        if indent < column then none else blockTail? indent fuel (dropBreak (c :: rest))
      else if indent ≤ column then none
      else some t

def block? (column : Nat) (t : Text) : Option (Text × Text) :=
  match blockHeader t with
  | (chomp, indentation?, rest) =>
    match endLine? rest with
    | none => none
    | some body =>
      let found := (body.takeWhile (· = ' ')).length
      let indent := match indentation? with
        | some n => column + n
        | none => found
      if found ≠ indent ∨ indent ≤ column then none
      else
        let line := (body.drop indent).takeWhile fun c => ¬ isBreak c
        let after := (body.drop indent).dropWhile fun c => ¬ isBreak c
        let final := if chomp = .strip ∨ after.isEmpty then [] else ['\n']
        if line.isEmpty then none
        else (blockTail? indent (t.length + 1) (dropBreak after)).map fun r => (line ++ final, r)

end LineCalc.Yaml
