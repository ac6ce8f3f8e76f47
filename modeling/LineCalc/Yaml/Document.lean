import LineCalc.Yaml.Members

/-! A text that holds at most one document, which is empty or a flat mapping. -/
namespace LineCalc.Yaml

def decimal? (t : Text) : Option Nat :=
  if t.isEmpty || 9 < t.length || ¬ t.all Char.isDigit then none else some (Decimal.ofDigits t)

def isVersion (t : Text) : Bool :=
  let major := t.takeWhile Char.isDigit
  match t.dropWhile Char.isDigit with
  | '.' :: minor =>
    decimal? major = some 1 && (decimal? minor = some 1 || decimal? minor = some 2)
  | _ => false

def isHandle (t : Text) : Bool :=
  match t with
  | '!' :: rest => rest.dropWhile isWordChar = ['!'] || rest.isEmpty
  | _ => false

structure Directives where
  versioned : Bool := false
  handles : List Handle := []

def Directives.allHandles (d : Directives) : List Handle := d.handles ++ defaultHandles

def words (t : Text) : List Text :=
  match t with
  | [] => []
  | c :: rest =>
    match isGap c, words rest, rest with
    | true, ws, _ => ws
    | false, ws, [] => [c] :: ws
    | false, w :: ws, d :: _ => if isGap d then [c] :: w :: ws else (c :: w) :: ws
    | false, [], _ => [[c]]

def Directives.add? (d : Directives) (line : Text) : Option Directives :=
  match words line with
  | [name, version] =>
    if name = "YAML".toList ∧ isVersion version ∧ ¬ d.versioned then
      some { d with versioned := true }
    else none
  | [name, handle, stands] =>
    if name = "TAG".toList ∧ isHandle handle ∧ stands.all isVerbatimChar ∧
        ¬ d.handles.any (fun h => h.name = handle) then
      (unescape? stands).map fun stands => { d with handles := ⟨handle, stands⟩ :: d.handles }
    else none
  | _ => none

def withoutComment : Text → Text
  | [] => []
  | c :: rest =>
    if isGap c ∧ (dropGaps rest).head? = some '#' then [] else c :: withoutComment rest

def directivesFrom (d : Directives) : Nat → Place → Option (Directives × Place)
  | 0, _ => none
  | fuel + 1, place =>
    match place.column, place.rest with
    | 0, '%' :: rest =>
      let line := rest.takeWhile fun c => ¬ isBreak c
      let after := dropBreak (rest.dropWhile fun c => ¬ isBreak c)
      match d.add? (withoutComment line), nextPlace? none after with
      | some d, some place =>
        if place.isMarker '-' ∨ (place.column = 0 ∧ place.rest.head? = some '%') then
          directivesFrom d fuel place
        else none
      | _, _ => none
    | _, _ => some (d, place)

def isTrailer : Nat → Place → Bool
  | 0, _ => false
  | fuel + 1, place =>
    place.rest.isEmpty ||
      (place.isMarker '.' &&
        match (endLine? (place.rest.drop 3)).bind (nextPlace? none) with
        | some next => isTrailer fuel next
        | none => false)

def closed? (content : Members × Place) : Option Members :=
  if isTrailer (content.2.rest.length + 1) content.2 then some content.1 else none

/-- The content of a document. A mapping in a column has to start its line. -/
def contentFrom (handles : List Handle) (p : Properties) :
    Nat → Bool → Place → Option (Members × Place)
  | 0, _, _ => none
  | fuel + 1, startsLine, place =>
    match place.rest with
    | [] => some ([], place)
    | '\x7b' :: rest =>
      (braces? handles rest).bind fun (members, rest) =>
        ((endLine? rest).bind (nextPlace? none)).map fun place => (members, place)
    | _ =>
      if startsLine ∧ (place.isMarker '.' ∨ place.isMarker '-') then some ([], place)
      else
        match propertiesFrom handles false p 3 place.rest with
        | none => if startsLine then column? handles place else none
        | some (p, rest) =>
          match endLine? rest with
          | some next =>
            (nextPlace? none next).bind fun place => contentFrom handles p fuel true place
          | none =>
            if rest.head? = some '\x7b' then contentFrom handles p fuel false ⟨place.column, rest⟩
            else if startsLine then column? handles place
            else none

def read? (t : Text) : Option Members :=
  if ¬ t.all isAllowed then none
  else
    (nextPlace? none t).bind fun first =>
      (directivesFrom {} (t.length + 1) first).bind fun (d, place) =>
        let fuel := t.length + 1
        if place.isMarker '-' then
          (contentFrom d.allHandles {} fuel false ⟨3, dropGaps (place.rest.drop 3)⟩).bind closed?
        else if place.isMarker '.' then none
        else (contentFrom d.allHandles {} fuel true place).bind closed?

end LineCalc.Yaml
