import LineCalc.Command.Options
import LineCalc.Command.Paint
import LineCalc.Command.Caret
import LineCalc.Token.Table

/-! The commands that look at one expression: its value, its tokens, or only its parentheses. -/
namespace LineCalc.Command

inductive Format
  | text
  | json
  deriving DecidableEq, Repr

def Format.ofName? (t : Text) : Option Format :=
  if t = "text".toList then some .text
  else if t = "json".toList then some .json
  else none

structure Effect where
  out : Text := []
  err : Text := []
  failure? : Option Failure := none

def line (t : Text) : Text := t ++ ['\n']

def lineIfAny : Option Text → Text
  | none => []
  | some t => line t

structure EvalRequest where
  expression : Text
  raw : Bool := false
  format : Format := .text
  tokens : Bool := false
  deriving DecidableEq, Repr

def paintedMessage [Painter] (colored : Bool) (a : Answer) : Text :=
  match answerInk? a.isBlank a.isSuccess with
  | none => a.message
  | some ink => paint colored ink a.message

def answerCaret? (a : Answer) : Option Text := a.errorPosition?.bind (caret? a.text)

def rawEffect [Painter] (colored : Bool) (a : Answer) : Effect :=
  match a.outcome? with
  | some (.ok value) => { out := line (Decimal.display value) }
  | some (.error e) => { err := line (paint colored .failure e.message) }
  | none => {}

def textOutput [Painter] (colored withTokens : Bool) (a : Answer) : Text :=
  line (paintedMessage colored a) ++ lineIfAny (answerCaret? a) ++
    if withTokens then line [] ++ line (tokenTable a.tokens) else []

/-- A failed evaluation is the command's failure in every form of output. -/
def eval [Json.Writer] [Painter] (rules : Rules) (colored : Bool) (r : EvalRequest) : Effect :=
  let a := Answer.ofText rules r.expression
  let shown : Effect :=
    if r.raw then rawEffect colored a
    else match r.format with
      | .json => { out := line (Json.Writer.indented (a.report r.tokens)) }
      | .text => { out := textOutput colored r.tokens a }
  { shown with failure? := a.error?.map .calculation }

def tokens [Json.Writer] [Painter] (colored : Bool) (expression : Text) (format : Format) :
    Effect :=
  match format with
  | .json => { out := line (Json.Writer.indented (Json.ofTokens (tokenize expression))) }
  | .text =>
    match tableLines (tokenize expression) with
    | [] => {}
    | heading :: rows =>
      { out := line (paint colored .heading heading) ++ (rows.map line).flatten }

def check (expression : Text) : Effect :=
  let ts := tokenize expression
  match Parens.balance ts with
  | .ok () =>
    { out := line ("Balanced (max depth ".toList ++ Text.ofNat (Parens.depth ts) ++ [')']) }
  | .error cause =>
    let failure := Failure.parentheses cause
    { out := line failure.message ++ lineIfAny (cause.position.bind (caret? expression))
      failure? := some failure }

end LineCalc.Command
