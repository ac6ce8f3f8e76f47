import LineCalc.Command.Dialogue
import LineCalc.Command.Invocation

/-! The program from its arguments to its exit code. -/
namespace LineCalc.Command

structure Surroundings where
  environment? : Option Text := none
  read : Text → Except ReadError Text
  input : List UInt8 := []
  inputIsTerminal : Bool := false
  outputIsTerminal : Bool := false

structure Ending where
  code : Nat
  out : Text := []
  err : Text := []

def Stop.ending [Splitter] (stop : Stop) : Ending :=
  match stop with
  | .usage => { code := 2, err := line (Splitter.notice stop) }
  | .help | .version _ => { code := 0, out := line (Splitter.notice stop) }

/-- A failure that the command has not shown is shown at the end. -/
def finish [Painter] (colored : Bool) (e : Effect) : Ending :=
  match e.failure? with
  | none => { code := 0, out := e.out, err := e.err }
  | some failure =>
    let shown :=
      if failure.isShown then []
      else line (paint colored .failure ("Error: ".toList ++ failure.message))
    { code := 1, out := e.out, err := e.err ++ shown }

def Dialogue.effect (d : Dialogue) : Effect := { out := d.said, failure? := d.failure? }

def noScreen : Failure := .argument "the full-screen interface needs a terminal".toList

def perform [Json.Writer] [Painter] (config : Config) (s : Surroundings) (colored : Bool) :
    Action → Effect
  | .eval request => eval config.settings.rules colored request
  | .tokens expression format => tokens colored expression format
  | .check expression => check expression
  | .repl =>
    (dialogue config.settings.session colored config.verbosity.isQuiet s.inputIsTerminal
      s.input).effect
  | .screen => { failure? := some noScreen }

structure Job where
  config : Config
  action : Action

namespace Job

/-- Failures of the configuration are shown without colour: none has been chosen yet. -/
def ofArguments [Splitter] [Settings.Reader] (s : Surroundings) (args : List Text) :
    Except Ending Job :=
  match Splitter.parse s.environment? args with
  | .error stop => .error stop.ending
  | .ok invocation =>
    match invocation.options.config s.read with
    | .error failure => .error { code := 1, err := line ("Error: ".toList ++ failure.message) }
    | .ok config => .ok ⟨config, invocation.action⟩

def isColored (j : Job) (s : Surroundings) : Bool := j.config.color.applies s.outputIsTerminal

def ending [Json.Writer] [Painter] (j : Job) (s : Surroundings) : Ending :=
  finish (j.isColored s) (perform j.config s (j.isColored s) j.action)

end Job

def run [Splitter] [Settings.Reader] [Json.Writer] [Painter] (s : Surroundings)
    (args : List Text) : Ending :=
  match Job.ofArguments s args with
  | .error ending => ending
  | .ok job => job.ending s

end LineCalc.Command
