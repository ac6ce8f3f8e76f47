import LineCalc.History
import LineCalc.Rules

/-! A session answers texts under its rules and remembers the ones that had a value. -/
namespace LineCalc

def isFinite (x : Float) : Bool :=
  match Binary.ofFloat x with
  | .finite _ _ _ => true
  | .nan | .infinite _ => false

/-- What is shown for a text. A blank text has tokens and no outcome. -/
structure Answer where
  text : Text
  tokens : List Token
  outcome? : Option (Except CalcError Float)

namespace Answer

def ofText (rules : Rules) (t : Text) : Answer where
  text := t
  tokens := tokenize t
  outcome? := if t.IsBlank then none else some (rules.evaluateTokens (tokenize t))

def value? (a : Answer) : Option Float :=
  match a.outcome? with
  | some (.ok value) => some value
  | _ => none

def error? (a : Answer) : Option CalcError :=
  match a.outcome? with
  | some (.error e) => some e
  | _ => none

def errorPosition? (a : Answer) : Option Nat := a.error?.bind CalcError.position

def isBlank (a : Answer) : Bool := a.outcome?.isNone

def isSuccess (a : Answer) : Bool := a.value?.isSome

def prompt : Text := "Enter an expression to see the result".toList

def message (a : Answer) : Text :=
  match a.outcome? with
  | none => prompt
  | some (.ok value) => "Result: ".toList ++ Decimal.display value
  | some (.error e) => e.message

def report (a : Answer) (withTokens : Bool) : Json :=
  .object (
    [("input".toList, .text a.text),
      ("value".toList, Json.ofOption .number (a.value?.filter isFinite)),
      ("display".toList, Json.ofOption (.text ∘ Decimal.display) a.value?),
      ("error".toList, Json.ofOption (.text ∘ CalcError.message) a.error?),
      ("position".toList, Json.ofOption .natural a.errorPosition?),
      ("message".toList, .text a.message)] ++
    if withTokens then [("tokens".toList, Json.ofTokens a.tokens)] else [])

end Answer

structure Session where
  rules : Rules
  history : History

namespace Session

def preview (s : Session) (t : Text) : Answer := Answer.ofText s.rules t

def submission (s : Session) (t : Text) : Answer × Session :=
  let answer := s.preview t
  match answer.value? with
  | some value => (answer, { s with history := s.history.record t value })
  | none => (answer, s)

def submit (s : Session) (t : Text) : Session := (s.submission t).2

def clear (s : Session) : Session := { s with history := s.history.clear }

end Session
end LineCalc
