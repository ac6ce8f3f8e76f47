import LineCalc.Session

/-! Settings of a session. They are read from a text that says any of them, and written as JSON. -/
namespace LineCalc

structure Settings where
  capacity : Nat := History.defaultCapacity
  rules : Rules := {}
  deriving DecidableEq, Repr

inductive ReadError
  | missing
  | folder
  | notFolder
  | badName
  | longName
  | forbidden
  | notText
  deriving DecidableEq, Repr

def ReadError.message : ReadError → Text
  | .missing => "No such file or directory (os error 2)".toList
  | .folder => "Is a directory (os error 21)".toList
  | .notFolder => "Not a directory (os error 20)".toList
  | .badName => "file name contained an unexpected NUL byte".toList
  | .longName => "File name too long (os error 36)".toList
  | .forbidden => "Permission denied (os error 13)".toList
  | .notText => "stream did not contain valid UTF-8".toList

inductive SettingsError
  | unreadable (path : Text) (cause : ReadError)
  | malformed {reason : Text}
  | noCapacity
  deriving DecidableEq, Repr

def SettingsError.message : SettingsError → Text
  | .unreadable path cause =>
    "failed to read config ".toList ++ path ++ ": ".toList ++ cause.message
  | @malformed reason => "invalid config YAML: ".toList ++ reason
  | .noCapacity => "invalid config value: history_capacity must be at least 1".toList

namespace Unknowns

def label : Unknowns → Text
  | .strict => "strict".toList
  | .lenient => "lenient".toList

def ofLabel? (t : Text) : Option Unknowns :=
  if t = "strict".toList then some .strict
  else if t = "lenient".toList then some .lenient
  else none

theorem ofLabel?_label (u : Unknowns) : ofLabel? u.label = some u := by cases u <;> decide

end Unknowns

namespace ZeroDivision

def label : ZeroDivision → Text
  | .ieee => "ieee".toList
  | .reject => "reject".toList

def ofLabel? (t : Text) : Option ZeroDivision :=
  if t = "ieee".toList then some .ieee
  else if t = "reject".toList then some .reject
  else none

theorem ofLabel?_label (z : ZeroDivision) : ofLabel? z.label = some z := by cases z <;> decide

end ZeroDivision

namespace Settings

structure Wording where
  capacity? : Option Nat := none
  unknowns? : Option Unknowns := none
  zeroDivision? : Option ZeroDivision := none
  deriving DecidableEq, Repr

/-- What is not said has its default. -/
def Wording.settings (w : Wording) : Settings where
  capacity := w.capacity?.getD History.defaultCapacity
  rules := { unknowns := w.unknowns?.getD .strict, zeroDivision := w.zeroDivision?.getD .ieee }

/-- What reads a YAML text of settings. It gives a reason if the text is none. -/
class Reader where
  read : Text → Except Text Wording

def capacityName : Text := "history_capacity".toList
def unknownsName : Text := "input_policy".toList
def zeroDivisionName : Text := "division_policy".toList

def json (s : Settings) : Json :=
  .object [(capacityName, .natural s.capacity), (unknownsName, .text s.rules.unknowns.label),
    (zeroDivisionName, .text s.rules.zeroDivision.label)]

/-- Capacities fit a machine word. -/
def wordLimit : Nat := Nat.pow 2 64

def check (s : Settings) : Except SettingsError Settings :=
  if s.capacity = 0 then .error .noCapacity else .ok s

def ofYaml [Reader] (t : Text) : Except SettingsError Settings :=
  if t.IsBlank then .ok {}
  else
    match Reader.read t with
    | .error reason => .error (@SettingsError.malformed reason)
    | .ok w => w.settings.check

def session (s : Settings) : Session := ⟨s.rules, History.empty s.capacity⟩

end Settings
end LineCalc
