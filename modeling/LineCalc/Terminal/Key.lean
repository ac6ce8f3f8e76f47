import LineCalc.Terminal.Editor

/-! What the keys do. A control character is never typed into the line. -/
namespace LineCalc.Terminal

inductive KeyCode
  | char (c : Char)
  | enter
  | escape
  | backspace
  | delete
  | left
  | right
  | up
  | home
  | toEnd
  | other
  deriving DecidableEq, Repr

inductive Modifier
  | control
  | shift
  | alt
  | super
  | hyper
  | metaKey
  deriving DecidableEq, Repr

inductive Motion
  | press
  | again
  | release
  deriving DecidableEq, Repr

structure Key where
  code : KeyCode
  modifiers : List Modifier := []
  motion : Motion := .press
  deriving DecidableEq, Repr

inductive Edit
  | insert (c : Char)
  | backspace
  | delete
  | left
  | right
  | home
  | toEnd
  | clear
  deriving DecidableEq, Repr

inductive Action
  | edit (e : Edit)
  | submit
  | bringBack
  | reset
  | quit
  | ignore
  deriving DecidableEq, Repr

def controlAction : KeyCode → Action
  | .char 'c' | .char 'q' => .quit
  | .char 'l' => .reset
  | .char 'a' => .edit .home
  | .char 'e' => .edit .toEnd
  | .char 'u' => .edit .clear
  | _ => .ignore

def plainAction : KeyCode → Action
  | .char c => .edit (.insert c)
  | .enter => .submit
  | .escape => .edit .clear
  | .backspace => .edit .backspace
  | .delete => .edit .delete
  | .left => .edit .left
  | .right => .edit .right
  | .up => .bringBack
  | .home => .edit .home
  | .toEnd => .edit .toEnd
  | .other => .ignore

/-- Only the control key changes what a key means; letting go of a key means nothing. -/
def Key.action (k : Key) : Action :=
  if k.motion = .release then .ignore
  else if k.modifiers.contains .control then controlAction k.code
  else plainAction k.code

namespace Editor

def edit (e : Editor) : Edit → Editor
  | .insert c => if Text.isControlCharacter c then e else e.insert c
  | .backspace => e.deleteBefore
  | .delete => e.deleteAfter
  | .left => e.left
  | .right => e.right
  | .home => e.home
  | .toEnd => e.toEnd
  | .clear => e.clear

def act (e : Editor) : Action → Editor
  | .edit change => e.edit change
  | .submit => e.submit
  | .bringBack => e.bringBack
  | .reset => e.clearAll
  | .quit => e.quit
  | .ignore => e

def press (e : Editor) (k : Key) : Editor := e.act k.action

end Editor
end LineCalc.Terminal
