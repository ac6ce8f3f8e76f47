import LineCalc.Terminal.Key

/-! Running the editor over events. Before each attempt to read, the screen is drawn; only keys
    change the editor, and the run ends once it quits or reading fails. -/
namespace LineCalc.Terminal

inductive Event
  | key (k : Key)
  | focus (gained : Bool)
  | resize
  | mouse
  | paste (t : Text)
  | failure (reason : Text)

/-- What passes between a run and the terminal: an editor that is drawn, or an attempt to read,
    which meets no event behind the last one. -/
inductive Exchange
  | drawn (e : Editor)
  | read (event? : Option Event)

structure Run where
  editor : Editor
  exchanges : List Exchange
  failure? : Option Text

namespace Exchange

def editor? : Exchange → Option Editor
  | .drawn e => some e
  | .read _ => none

def event? : Exchange → Option Event
  | .drawn _ => none
  | .read event? => event?

end Exchange

namespace Run

def drawn (r : Run) : List Editor := r.exchanges.filterMap Exchange.editor?

/-- A failure to read counts as an attempt, the end of the events does not. -/
def attempts (r : Run) : Nat := (r.exchanges.filterMap Exchange.event?).length

end Run

def endOfEvents : Text := "no more events".toList

def Editor.handle (e : Editor) : Event → Editor
  | .key k => e.press k
  | _ => e

def run (e : Editor) : List Event → Run
  | [] =>
    if e.quits then ⟨e, [], none⟩ else ⟨e, [.drawn e, .read none], some endOfEvents⟩
  | event :: rest =>
    if e.quits then ⟨e, [], none⟩
    else
      match event with
      | .failure reason => ⟨e, [.drawn e, .read event], some reason⟩
      | event =>
        let r := run (e.handle event) rest
        { r with exchanges := .drawn e :: .read event :: r.exchanges }

end LineCalc.Terminal
