import LineCalc.Proofs.Session
import LineCalc.Terminal.Key

/-!
What can be asked of the editor: an operation, an action or a key. An action and a key ask
for one operation or for none, and then they change nothing.
-/
namespace LineCalc.Terminal

inductive Operation
  | setText (t : Text)
  | setCursor (n : Nat)
  | insert (c : Char)
  | deleteBefore
  | deleteAfter
  | left
  | right
  | home
  | toEnd
  | clear
  | clearAll
  | submit
  | bringBack
  | quit

inductive Call
  | operation (o : Operation)
  | action (a : Action)
  | key (k : Key)

def typed? (c : Char) : Option Operation :=
  if Text.isControlCharacter c then none else some (.insert c)

def Edit.operation? : Edit → Option Operation
  | .insert c => typed? c
  | .backspace => some .deleteBefore
  | .delete => some .deleteAfter
  | .left => some .left
  | .right => some .right
  | .home => some .home
  | .toEnd => some .toEnd
  | .clear => some .clear

def Action.operation? : Action → Option Operation
  | .edit change => change.operation?
  | .submit => some .submit
  | .bringBack => some .bringBack
  | .reset => some .clearAll
  | .quit => some .quit
  | .ignore => none

def controlOperation? : KeyCode → Option Operation
  | .char 'a' => some .home
  | .char 'c' => some .quit
  | .char 'e' => some .toEnd
  | .char 'l' => some .clearAll
  | .char 'q' => some .quit
  | .char 'u' => some .clear
  | _ => none

def plainOperation? : KeyCode → Option Operation
  | .char c => typed? c
  | .enter => some .submit
  | .escape => some .clear
  | .backspace => some .deleteBefore
  | .delete => some .deleteAfter
  | .left => some .left
  | .right => some .right
  | .up => some .bringBack
  | .home => some .home
  | .toEnd => some .toEnd
  | .other => none

def Key.operation? (k : Key) : Option Operation :=
  match k.motion with
  | .release => none
  | .press | .again =>
    if k.modifiers.contains .control then controlOperation? k.code else plainOperation? k.code

def Call.operation? : Call → Option Operation
  | .operation o => some o
  | .action a => a.operation?
  | .key k => k.operation?

theorem controlAction_operation? (code : KeyCode) :
    (controlAction code).operation? = controlOperation? code := by
  unfold controlAction
  split
  · rfl
  · rfl
  · rfl
  · rfl
  · rfl
  · rfl
  · simp [controlOperation?, Action.operation?]

theorem plainAction_operation? (code : KeyCode) :
    (plainAction code).operation? = plainOperation? code := by
  cases code <;> rfl

theorem action_operation? (k : Key) : k.action.operation? = k.operation? := by
  obtain ⟨code, modifiers, motion⟩ := k
  cases motion with
  | release => rfl
  | press | again =>
    simp only [Key.action, Key.operation?, reduceCtorEq, ↓reduceIte]
    split
    · exact controlAction_operation? code
    · exact plainAction_operation? code

namespace Editor

def operate (e : Editor) : Operation → Editor
  | .setText t => e.setText t
  | .setCursor n => e.setCursor n
  | .insert c => e.insert c
  | .deleteBefore => e.deleteBefore
  | .deleteAfter => e.deleteAfter
  | .left => e.left
  | .right => e.right
  | .home => e.home
  | .toEnd => e.toEnd
  | .clear => e.clear
  | .clearAll => e.clearAll
  | .submit => e.submit
  | .bringBack => e.bringBack
  | .quit => e.quit

def call (e : Editor) : Call → Editor
  | .operation o => e.operate o
  | .action a => e.act a
  | .key k => e.press k

def calls (e : Editor) (cs : List Call) : Editor := cs.foldl call e

def presses (e : Editor) (keys : List Key) : Editor := keys.foldl press e

theorem presses_eq_calls (e : Editor) (keys : List Key) :
    e.presses keys = e.calls (keys.map .key) := by
  rw [presses, calls, List.foldl_map]
  rfl

theorem edit_eq (e : Editor) (change : Edit) :
    e.edit change = change.operation?.elim e e.operate := by
  cases change with
  | insert c =>
    rw [edit, Edit.operation?, typed?]
    split <;> rfl
  | _ => rfl

theorem act_eq (e : Editor) (a : Action) : e.act a = a.operation?.elim e e.operate := by
  cases a with
  | edit change => exact edit_eq e change
  | _ => rfl

theorem press_eq (e : Editor) (k : Key) : e.press k = k.operation?.elim e e.operate := by
  rw [press, act_eq, action_operation?]

theorem call_eq (e : Editor) (c : Call) : e.call c = c.operation?.elim e e.operate := by
  cases c with
  | operation o => rfl
  | action a => exact act_eq e a
  | key k => exact press_eq e k

end Editor
end LineCalc.Terminal
