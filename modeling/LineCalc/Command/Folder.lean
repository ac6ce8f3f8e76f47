import LineCalc.Command.Libraries

/-! A folder that holds files and no other folder, and what reading a path from inside it gives.
    -/
namespace LineCalc.Command

structure File where
  name : Text
  bytes : List UInt8

abbrev Folder := List File

def pathParts : Text → List Text
  | [] => [[]]
  | c :: rest =>
    if c = '/' then [] :: pathParts rest
    else
      match pathParts rest with
      | part :: parts => (c :: part) :: parts
      | [] => [[c]]

def nameLimit : Nat := 255

/-- Above the folder there are only folders that nothing is known of. -/
def outside (parts : List Text) : Except ReadError (Option File) :=
  if parts.all fun p => p.isEmpty || p = ['.'] || p = ['.', '.'] then .ok none
  else .error .missing

def walk (folder : Folder) : List Text → Except ReadError (Option File)
  | [] => .ok none
  | part :: parts =>
    if part.isEmpty ∨ part = ['.'] then walk folder parts
    else if part = ['.', '.'] then outside parts
    else if nameLimit < part.size then .error .longName
    else
      match folder.find? fun f => f.name = part with
      | none => .error .missing
      | some file => if parts.isEmpty then .ok (some file) else .error .notFolder

def Folder.find (folder : Folder) (path : Text) : Except ReadError (Option File) :=
  if path.contains '\x00' then .error .badName
  else
    match path with
    | [] => .error .missing
    | '/' :: rest => outside (pathParts rest)
    | _ => walk folder (pathParts path)

def decodeText (bytes : List UInt8) : Except ReadError Text :=
  match Text.ofBytes? bytes with
  | some t => .ok t
  | none => .error .notText

def Folder.read (folder : Folder) (path : Text) : Except ReadError Text :=
  match folder.find path with
  | .error e => .error e
  | .ok none => .error .folder
  | .ok (some file) => decodeText file.bytes

end LineCalc.Command
