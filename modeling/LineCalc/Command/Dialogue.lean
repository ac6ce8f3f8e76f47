import LineCalc.Command.Perform

/-! A dialogue over lines. A line is an expression for the session, or a command behind a colon;
    blank lines say nothing. -/
namespace LineCalc.Command

def dialogueHelp : Text :=
  "Commands:
  :history        List past results, oldest first
  :tokens <expr>  Show the tokens of an expression
  :clear          Forget the history
  :help           Show this help
  :quit           Leave (also :q, :exit, or end of input)
Anything else is evaluated.".toList

inductive Line
  | blank
  | expression (t : Text)
  | quit
  | history
  | tokens (t : Text)
  | clear
  | help
  | unknown (name : Text)
  deriving DecidableEq, Repr

namespace Line

def ofCommand (t : Text) : Line :=
  let name := t.takeWhile fun c => ¬ isBlank c
  let rest := Text.trim (t.dropWhile fun c => ¬ isBlank c)
  if name = "quit".toList ∨ name = "q".toList ∨ name = "exit".toList then .quit
  else if name = "history".toList then .history
  else if name = "tokens".toList then .tokens rest
  else if name = "clear".toList then .clear
  else if name = "help".toList then .help
  else .unknown name

def ofText (t : Text) : Line :=
  match t.trim with
  | [] => .blank
  | ':' :: command => ofCommand command
  | _ => .expression t

end Line

structure Reply where
  said : Text
  session : Session
  quits : Bool

def historyOutput (h : History) : Text :=
  if h.entries.isEmpty then "(no history)".toList else h.listing

def reply [Painter] (colored : Bool) (s : Session) (t : Text) : Reply :=
  match Line.ofText t with
  | .blank => ⟨[], s, false⟩
  | .expression t =>
    let (answer, s) := s.submission t
    ⟨line (paintedMessage colored answer), s, false⟩
  | .quit => ⟨[], s, true⟩
  | .history => ⟨line (historyOutput s.history), s, false⟩
  | .tokens t => ⟨line (tokenTable (tokenize t)), s, false⟩
  | .clear => ⟨line "History cleared".toList, s.clear, false⟩
  | .help => ⟨line dialogueHelp, s, false⟩
  | .unknown name =>
    ⟨line ("Unknown command ':".toList ++ name ++ "' (try :help)".toList), s, false⟩

/-- Bytes cut into lines; a line feed ends a line, with one carriage return before it. -/
def byteLines : List UInt8 → List (List UInt8)
  | [] => []
  | 13 :: 10 :: rest => [] :: byteLines rest
  | b :: rest =>
    if b = 10 then [] :: byteLines rest
    else
      match byteLines rest with
      | [] => [[b]]
      | first :: more => (b :: first) :: more

structure Dialogue where
  said : Text
  session : Session
  failure? : Option Failure := none

def talk [Painter] (colored : Bool) (prompt : Text) (s : Session) : List (Option Text) → Dialogue
  | [] => ⟨prompt, s, none⟩
  | none :: _ => ⟨prompt, s, some (.input .notText)⟩
  | some t :: lines =>
    let r := reply colored s t
    if r.quits then ⟨prompt ++ r.said, r.session, none⟩
    else
      let rest := talk colored prompt r.session lines
      { rest with said := prompt ++ r.said ++ rest.said }

def banner : Text := "NumberNoodle 0.4.0 - :help for commands".toList

def greeting (quiet terminal : Bool) : Text := if terminal ∧ ¬ quiet then line banner else []

def prompt (terminal : Bool) : Text := if terminal then "noodle> ".toList else []

def dialogue [Painter] (s : Session) (colored quiet terminal : Bool) (input : List UInt8) :
    Dialogue :=
  let rest := talk colored (prompt terminal) s ((byteLines input).map Text.ofBytes?)
  { rest with said := greeting quiet terminal ++ rest.said }

end LineCalc.Command
