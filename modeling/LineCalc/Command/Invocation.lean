import LineCalc.Command.Perform

/-! What the arguments ask for. Flags may stand before and behind the subcommand unless they belong
    to one, and a subcommand may take an expression. -/
namespace LineCalc.Command

inductive Scope
  | root
  | eval
  | tokens
  | check
  | repl
  | screen
  deriving DecidableEq, Repr

namespace Scope

def name : Scope → Text
  | .root => "noodle".toList
  | .eval => "eval".toList
  | .tokens => "tokens".toList
  | .check => "check".toList
  | .repl => "repl".toList
  | .screen => "tui".toList

def subcommands : List Scope := [.eval, .tokens, .check, .repl, .screen]

def ofName? (t : Text) : Option Scope := subcommands.find? fun s => s.name = t

def takesExpression : Scope → Bool
  | .eval | .tokens | .check => true
  | .root | .repl | .screen => false

end Scope

inductive Flag
  | verbose
  | quiet
  | color
  | config
  | lenient
  | rejectZero
  | historySize
  | raw
  | format
  | tokens
  | help
  | version
  deriving DecidableEq, Repr

namespace Flag

def all : List Flag :=
  [.verbose, .quiet, .color, .config, .lenient, .rejectZero, .historySize, .raw, .format, .tokens,
    .help, .version]

def long : Flag → Text
  | .verbose => "verbose".toList
  | .quiet => "quiet".toList
  | .color => "color".toList
  | .config => "config".toList
  | .lenient => "lenient".toList
  | .rejectZero => "reject-division-by-zero".toList
  | .historySize => "history-size".toList
  | .raw => "raw".toList
  | .format => "format".toList
  | .tokens => "tokens".toList
  | .help => "help".toList
  | .version => "version".toList

def short? : Flag → Option Char
  | .verbose => some 'v'
  | .quiet => some 'q'
  | .format => some 'f'
  | .tokens => some 't'
  | .help => some 'h'
  | .version => some 'V'
  | _ => none

def takesValue : Flag → Bool
  | .color | .config | .historySize | .format => true
  | _ => false

def isKnown (scope : Scope) : Flag → Bool
  | .raw | .tokens => scope = .eval
  | .format => scope = .eval || scope = .tokens
  | _ => true

end Flag

inductive Stop
  | usage
  | help
  | version (scope : Scope)
  deriving DecidableEq, Repr

structure Given where
  more? : Option Nat := none
  quiet : Bool := false
  color? : Option Color := none
  config? : Option Text := none
  lenient : Bool := false
  rejectZero : Bool := false
  historySize? : Option Nat := none
  raw : Bool := false
  format? : Option Format := none
  tokens : Bool := false
  expression? : Option Text := none
  deriving DecidableEq, Repr

inductive Action
  | eval (request : EvalRequest)
  | tokens (expression : Text) (format : Format)
  | check (expression : Text)
  | repl
  | screen
  deriving DecidableEq, Repr

/-- The action of a subcommand. Raw output and a named format exclude each other. -/
def Given.action? (g : Given) (scope : Scope) : Option Action :=
  match scope, g.expression? with
  | .eval, some e =>
    if g.raw ∧ g.format?.isSome then none
    else some (.eval ⟨e, g.raw, g.format?.getD .text, g.tokens⟩)
  | .tokens, some e => some (.tokens e (g.format?.getD .text))
  | .check, some e => some (.check e)
  | .repl, _ => some .repl
  | .screen, _ => some .screen
  | _, _ => none

/-- Flags behind the subcommand win over the same flags before it, and flags over the
    environment. -/
def Given.options (before after : Given) (environment? : Option Text) : Options where
  more := (after.more? <|> before.more?).getD 0
  quiet := before.quiet || after.quiet
  color := (after.color? <|> before.color?).getD .auto
  settingsFile? := after.config? <|> before.config? <|> environment?
  lenient := before.lenient || after.lenient
  rejectZero := before.rejectZero || after.rejectZero
  historySize? := after.historySize? <|> before.historySize?

structure Invocation where
  action : Action
  options : Options
  deriving DecidableEq, Repr

def Given.invocation (before after : Given) (scope : Scope) (environment? : Option Text) :
    Except Stop Invocation :=
  match after.action? scope with
  | none => .error .usage
  | some action => .ok ⟨action, before.options after environment?⟩

/-- What splits arguments into flags, a subcommand and its expression, and what it prints if they
    yield no command. -/
class Splitter where
  parse : Option Text → List Text → Except Stop Invocation
  notice : Stop → Text

end LineCalc.Command
