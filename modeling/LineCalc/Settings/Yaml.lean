import LineCalc.Settings
import LineCalc.Yaml.Document

/-! A way to read settings: a YAML mapping in which every name is optional. -/
namespace LineCalc.Settings

open Yaml

def bounded? (n : Nat) : Option Nat := if n < wordLimit then some n else none

def octalDigit? (base : Nat) (c : Char) : Option Nat :=
  if c.isDigit ∧ c.toNat - '0'.toNat < base then some (c.toNat - '0'.toNat) else none

def inBase? (base : Nat) (digit? : Char → Option Nat) (t : Text) : Option Nat :=
  if t.isEmpty then none
  else (t.foldlM (fun n c => (digit? c).map (base * n + ·)) 0).bind bounded?

/-- A whole number: decimal without zeros in front, or hexadecimal, octal or binary behind its
    mark, each with an optional plus. -/
def whole? (t : Text) : Option Nat :=
  match (match t with | '+' :: rest => rest | _ => t) with
  | '0' :: 'x' :: digits => inBase? 16 hexDigit? digits
  | '0' :: 'o' :: digits => inBase? 8 (octalDigit? 8) digits
  | '0' :: 'b' :: digits => inBase? 2 (octalDigit? 2) digits
  | ['0'] => some 0
  | '0' :: _ => none
  | digits => inBase? 10 (octalDigit? 10) digits

def capacity? (s : Scalar) : Option Nat :=
  if s.style = .plain ∨
      (s.style = .literal ∧ s.tag? = some "tag:yaml.org,2002:int".toList) then whole? s.text
  else none

def isNull (t : Text) : Bool :=
  t.isEmpty || t = "~".toList || t = "null".toList || t = "Null".toList || t = "NULL".toList

/-- A choice is named by the text or, with a null for the text, by a tag of the document's own. -/
def choice? (ofLabel? : Text → Option α) (s : Scalar) : Option α :=
  match s.tag? with
  | some ('!' :: c :: name) =>
    if s.style = .plain ∧ isNull s.text then ofLabel? (c :: name) else none
  | _ => ofLabel? s.text

def member? (members : Members) (name : Text) (value? : Scalar → Option α) : Option (Option α) :=
  match members.lookup name with
  | none => some none
  | some scalar => (value? scalar).map some

/-- No name may stand twice, and no other name at all. -/
def wording? (members : Members) : Option Wording :=
  if (members.map (·.1)).Nodup ∧
      ∀ m ∈ members, m.1 ∈ [capacityName, unknownsName, zeroDivisionName] then
    match member? members capacityName capacity?,
        member? members unknownsName (choice? Unknowns.ofLabel?),
        member? members zeroDivisionName (choice? ZeroDivision.ofLabel?) with
    | some capacity?, some unknowns?, some zeroDivision? =>
      some ⟨capacity?, unknowns?, zeroDivision?⟩
    | _, _, _ => none
  else none

def readYaml (t : Text) : Except Text Wording :=
  match (Yaml.read? t).bind wording? with
  | some w => .ok w
  | none => .error "expected a mapping of settings".toList

end LineCalc.Settings
