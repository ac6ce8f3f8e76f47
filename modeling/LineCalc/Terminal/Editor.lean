import LineCalc.Settings
import LineCalc.Text.Width

/-! The expression line of the terminal. The cursor is a byte offset into the text, and the answer
    shown belongs to the text at all times. -/
namespace LineCalc.Terminal

structure Editor where
  text : Text
  cursor : Nat
  answer : Answer
  session : Session
  quits : Bool

namespace Editor

def start (s : Session) : Editor := ⟨[], 0, s.preview [], s, false⟩

def before (e : Editor) : Text := (e.text.cut e.cursor).1

def after (e : Editor) : Text := (e.text.cut e.cursor).2

def edited (e : Editor) (before after : Text) : Editor :=
  { e with
    text := before ++ after
    cursor := before.size
    answer := e.session.preview (before ++ after) }

def moved (e : Editor) (before : Text) : Editor := { e with cursor := before.size }

def setText (e : Editor) (t : Text) : Editor := e.edited t []

/-- The cursor goes to the last place between characters that is not past n. -/
def setCursor (e : Editor) (n : Nat) : Editor := e.moved (e.text.cut n).1

def insert (e : Editor) (c : Char) : Editor := e.edited (e.before ++ [c]) e.after

def deleteBefore (e : Editor) : Editor :=
  if e.before.isEmpty then e else e.edited e.before.dropLast e.after

def deleteAfter (e : Editor) : Editor :=
  if e.after.isEmpty then e else e.edited e.before (e.after.drop 1)

def left (e : Editor) : Editor := e.moved e.before.dropLast

def right (e : Editor) : Editor := e.moved (e.before ++ e.after.take 1)

def home (e : Editor) : Editor := e.moved []

def toEnd (e : Editor) : Editor := e.moved e.text

def clear (e : Editor) : Editor := e.edited [] []

def clearAll (e : Editor) : Editor :=
  { e.clear with session := e.session.clear }

def submit (e : Editor) : Editor :=
  let (answer, session) := e.session.submission e.text
  { e with answer, session }

def bringBack (e : Editor) : Editor :=
  match e.session.history.last? with
  | some entry => e.setText entry.expression
  | none => e

def quit (e : Editor) : Editor := { e with quits := true }

end Editor
end LineCalc.Terminal
