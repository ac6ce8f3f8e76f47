import LineCalc.Settings

/-! The choices that hold for every command: how much is said, in which colours, and the settings
    of the session. A flag wins over the settings file, and the file over the defaults. -/
namespace LineCalc.Command

inductive Verbosity
  | quiet
  | normal
  | verbose
  | debug
  deriving DecidableEq, Repr

namespace Verbosity

def ofFlags (quiet : Bool) (more : Nat) : Verbosity :=
  if quiet then .quiet
  else match more with
    | 0 => .normal
    | 1 => .verbose
    | _ => .debug

def label : Verbosity → Text
  | .quiet => "Quiet".toList
  | .normal => "Normal".toList
  | .verbose => "Verbose".toList
  | .debug => "Debug".toList

def logLevel : Verbosity → Text
  | .quiet => "warn".toList
  | .normal => "info".toList
  | .verbose => "debug".toList
  | .debug => "trace".toList

def isQuiet (v : Verbosity) : Bool := v = .quiet

def isVerbose (v : Verbosity) : Bool := v = .verbose || v = .debug

end Verbosity

inductive Color
  | auto
  | always
  | never
  deriving DecidableEq, Repr

namespace Color

def label : Color → Text
  | .auto => "Auto".toList
  | .always => "Always".toList
  | .never => "Never".toList

def ofName? (t : Text) : Option Color :=
  if t = "auto".toList then some .auto
  else if t = "always".toList then some .always
  else if t = "never".toList then some .never
  else none

def applies (c : Color) (terminal : Bool) : Bool :=
  match c with
  | .auto => terminal
  | .always => true
  | .never => false

end Color

inductive Failure
  | settings (cause : SettingsError)
  | argument (reason : Text)
  | calculation (cause : CalcError)
  | parentheses (cause : CalcError)
  | input (cause : ReadError)
  deriving DecidableEq, Repr

namespace Failure

def message : Failure → Text
  | .settings cause => "Configuration error: ".toList ++ cause.message
  | .argument reason => "Invalid argument: ".toList ++ reason
  | .calculation cause => cause.message
  | .parentheses cause => "Syntax Error: ".toList ++ cause.detail
  | .input cause => "I/O error: ".toList ++ cause.message

def isShown : Failure → Bool
  | .calculation _ | .parentheses _ => true
  | _ => false

end Failure

structure Options where
  more : Nat := 0
  quiet : Bool := false
  color : Color := .auto
  settingsFile? : Option Text := none
  lenient : Bool := false
  rejectZero : Bool := false
  historySize? : Option Nat := none
  deriving DecidableEq, Repr

structure Config where
  verbosity : Verbosity
  color : Color
  settings : Settings
  deriving DecidableEq, Repr

namespace Options

def noHistory : Failure := .argument "--history-size must be at least 1".toList

def fileSettings [Settings.Reader] (read : Text → Except ReadError Text) :
    Option Text → Except Failure Settings
  | none => .ok {}
  | some path =>
    match read path with
    | .error cause => .error (.settings (.unreadable path cause))
    | .ok content =>
      match Settings.ofYaml content with
      | .error cause => .error (.settings cause)
      | .ok s => .ok s

def overridden (o : Options) (s : Settings) : Settings where
  capacity := o.historySize?.getD s.capacity
  rules :=
    { unknowns := if o.lenient then .lenient else s.rules.unknowns
      zeroDivision := if o.rejectZero then .reject else s.rules.zeroDivision }

/-- The file is read before the flags are looked at, so its failures come first. -/
def config [Settings.Reader] (o : Options) (read : Text → Except ReadError Text) :
    Except Failure Config :=
  match fileSettings read o.settingsFile? with
  | .error e => .error e
  | .ok s =>
    if o.historySize? = some 0 then .error noHistory
    else .ok ⟨Verbosity.ofFlags o.quiet o.more, o.color, o.overridden s⟩

end Options

def Config.json (c : Config) : Json :=
  .object [("verbosity".toList, .text c.verbosity.label), ("color".toList, .text c.color.label),
    ("session".toList, c.settings.json)]

end LineCalc.Command
