import LineCalc.Command.Folder
import LineCalc.Command.Program

/-! The program at work: what it reads, what it writes and its exit code. -/
namespace LineCalc.Command

/-- Some codes come with their sign turned. -/
def errorNumber (code : UInt32) : UInt32 := if code < 0x80000000 then code else 0 - code

def readCause : IO.Error → ReadError
  | .inappropriateType _ code _ => if errorNumber code = 20 then .notFolder else .folder
  | .invalidArgument _ code _ => if errorNumber code = 36 then .longName else .missing
  | .permissionDenied _ _ _ => .forbidden
  | _ => .missing

def readFile (path : Text) : IO (Except ReadError Text) := do
  if path.contains '\x00' then return .error .badName
  try
    let bytes ← IO.FS.readBinFile (String.ofList path)
    return decodeText bytes.toList
  catch cause => return .error (readCause cause)

def readSettings (environment? : Option Text) (args : List Text) : IO (Except ReadError Text) :=
  match Splitter.parse environment? args with
  | .ok { options := { settingsFile? := some path, .. }, .. } => readFile path
  | _ => return .error .missing

partial def readAll (stream : IO.FS.Stream) (before : ByteArray) : IO ByteArray := do
  let part ← stream.read 65536
  if part.isEmpty then return before else readAll stream (before ++ part)

def Ending.write (e : Ending) : IO UInt32 := do
  IO.print (String.ofList e.out)
  IO.eprint (String.ofList e.err)
  return e.code.toUInt32

/-- A dialogue at a terminal answers each line before it waits for the next. -/
partial def converse (colored : Bool) (s : Session) : IO Dialogue := do
  IO.print (String.ofList (prompt true))
  (← IO.getStdout).flush
  let text ← (← IO.getStdin).getLine
  match byteLines text.toUTF8.toList with
  | [] => return ⟨[], s, none⟩
  | bytes :: _ =>
    match Text.ofBytes? bytes with
    | none => return ⟨[], s, some (.input .notText)⟩
    | some t =>
      let r := reply colored s t
      IO.print (String.ofList r.said)
      if r.quits then return ⟨[], r.session, none⟩ else converse colored r.session

def Job.write (j : Job) (s : Surroundings) : IO UInt32 := do
  let input ← IO.getStdin
  if j.action ≠ .repl then (j.ending s).write
  else if ← input.isTty then
    IO.print (String.ofList (greeting j.config.verbosity.isQuiet true))
    let d ← converse (j.isColored s) j.config.settings.session
    (finish (j.isColored s) d.effect).write
  else
    let bytes ← readAll input .empty
    (j.ending { s with input := bytes.toList }).write

def start (args : List Text) : IO UInt32 := do
  let environment? := (← IO.getEnv "NOODLE_CONFIG").map String.toList
  let settings ← readSettings environment? args
  let s : Surroundings :=
    { environment? := environment?
      read := fun _ => settings
      outputIsTerminal := ← (← IO.getStdout).isTty }
  match Job.ofArguments s args with
  | .error ending => ending.write
  | .ok job => job.write s

end LineCalc.Command

def main (args : List String) : IO UInt32 := LineCalc.Command.start (args.map String.toList)
