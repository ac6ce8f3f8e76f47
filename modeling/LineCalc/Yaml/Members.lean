import LineCalc.Yaml.Scalar

/-! A flat mapping: names with scalar values, between braces or one below the other in one
    column. -/
namespace LineCalc.Yaml

abbrev Members := List (Text × Scalar)

def emptyScalar (p : Properties) : Scalar := ⟨.plain, [], p.tag?⟩

/-- Behind a plain scalar that ends its line, blank lines may hold tabs. -/
def afterPlain? (column : Nat) (rest : Text) : Option Place :=
  let tabsFrom? := if (dropGaps rest).head? = some '#' then none else some (column + 1)
  (endLine? rest).bind (nextPlace? tabsFrom?)

/-- A scalar that belongs to a mapping in the given column, on this line or deeper on the next
    ones, and the place of the content behind it. -/
def nodeFrom (handles : List Handle) (column : Nat) (p : Properties) :
    Nat → Text → Option (Scalar × Place)
  | 0, _ => none
  | fuel + 1, t =>
    match property? handles false p t with
    | none => none
    | some (some (p, rest)) => nodeFrom handles column p fuel (dropGaps rest)
    | some none =>
      match endLine? t with
      | some next =>
        match nextPlace? none next with
        | none => none
        | some place =>
          if place.rest.isEmpty ∨ place.column ≤ column then some (emptyScalar p, place)
          else nodeFrom handles column p fuel place.rest
      | none =>
        match t with
        | '|' :: rest =>
          (block? column rest).bind fun r =>
            (nextPlace? none r.2).map fun place => (⟨.literal, r.1, p.tag?⟩, place)
        | '>' :: rest =>
          (block? column rest).bind fun r =>
            (nextPlace? none r.2).map fun place => (⟨.folded, r.1, p.tag?⟩, place)
        | _ =>
          match inline? false true t with
          | none => none
          | some (.plain, text, rest) =>
            (afterPlain? column rest).map fun place => (⟨.plain, text, p.tag?⟩, place)
          | some (style, text, rest) =>
            ((endLine? rest).bind (nextPlace? none)).map fun place =>
              (⟨style, text, p.tag?⟩, place)

def node? (handles : List Handle) (column : Nat) (t : Text) : Option (Scalar × Place) :=
  nodeFrom handles column {} (t.length + 4) t

def nameLimit : Nat := 1024

/-- A name and its colon on one line, not too far behind its start, and the text behind the
    colon. -/
def name? (handles : List Handle) (inBraces : Bool) (t : Text) : Option (Text × Text) :=
  match properties? handles inBraces t with
  | none => none
  | some (_, bare) =>
    match inline? inBraces false bare with
    | none => none
    | some (style, text, rest) =>
      match dropGaps rest with
      | ':' :: after =>
        if nameLimit < t.length - after.length - 1 then none
        else if atBlank after ∨ (inBraces ∧ style = .quoted) ∨
            (inBraces ∧ (after.head?.map isBrace).getD false) then some (text, after)
        else none
      | _ => none

def dropBlanks? (t : Text) : Option Text :=
  match t.dropWhile (· = ' ') with
  | '\t' :: _ => none
  | rest => some rest

def explicitMember? (handles : List Handle) (column : Nat) (t : Text) :
    Option ((Text × Scalar) × Place) :=
  ((dropBlanks? t).bind (node? handles column)).bind fun (name, place) =>
    match place.rest with
    | ':' :: after =>
      if place.column = column ∧ atBlank after then
        ((dropBlanks? after).bind (node? handles column)).map fun (value, place) =>
          ((name.text, value), place)
      else none
    | _ => none

def member? (handles : List Handle) (column : Nat) (t : Text) : Option ((Text × Scalar) × Place) :=
  match t with
  | '?' :: after =>
    if atBlank after then explicitMember? handles column after else none
  | _ =>
    (name? handles false t).bind fun (name, after) =>
      (node? handles column (dropGaps after)).map fun (value, place) => ((name, value), place)

def columnFrom (handles : List Handle) (column : Nat) : Nat → Text → Option (Members × Place)
  | 0, _ => none
  | fuel + 1, t =>
    match member? handles column t with
    | none => none
    | some (m, place) =>
      if place.rest.isEmpty ∨ place.column ≠ column ∨ place.isMarker '.' ∨ place.isMarker '-' then
        some ([m], place)
      else (columnFrom handles column fuel place.rest).map fun r => (m :: r.1, r.2)

def column? (handles : List Handle) (p : Place) : Option (Members × Place) :=
  columnFrom handles p.column (p.rest.length + 1) p.rest

def braceValueFrom (handles : List Handle) (p : Properties) :
    Nat → Text → Option (Scalar × Text)
  | 0, _ => none
  | fuel + 1, t =>
    match property? handles true p t with
    | none => none
    | some (some (p, rest)) => braceValueFrom handles p fuel (dropSpace .inside rest)
    | some none =>
      match t with
      | ',' :: _ | '\x7d' :: _ => some (emptyScalar p, t)
      | _ => (inline? true true t).map fun (style, text, rest) => (⟨style, text, p.tag?⟩, rest)

def braceValue? (handles : List Handle) (t : Text) : Option (Scalar × Text) :=
  braceValueFrom handles {} 3 (dropSpace .inside t)

def braceMember? (handles : List Handle) (t : Text) : Option ((Text × Scalar) × Text) :=
  match t with
  | '?' :: rest =>
    (braceValue? handles rest).bind fun (name, rest) =>
      match dropSpace .inside rest with
      | ':' :: after =>
        (braceValue? handles after).map fun (value, rest) => ((name.text, value), rest)
      | _ => none
  | _ =>
    (name? handles true t).bind fun (name, after) =>
      (braceValue? handles after).map fun (value, rest) => ((name, value), rest)

def bracesFrom (handles : List Handle) : Nat → Text → Option (Members × Text)
  | 0, _ => none
  | fuel + 1, t =>
    match dropSpace .inside t with
    | '\x7d' :: rest => some ([], rest)
    | start =>
      match braceMember? handles start with
      | none => none
      | some (m, rest) =>
        match dropSpace .inside rest with
        | ',' :: more => (bracesFrom handles fuel more).map fun r => (m :: r.1, r.2)
        | '\x7d' :: rest => some ([m], rest)
        | _ => none

def braces? (handles : List Handle) (t : Text) : Option (Members × Text) :=
  bracesFrom handles (t.length + 1) t

end LineCalc.Yaml
