import LineCalc.Session

/-! A session shared by threads. A submission is evaluated outside the lock; only the append waits
    for the lock, so the entries stand in the order in which their appends took place. -/
namespace LineCalc.Shared

inductive Request
  | submit (t : Text)
  | clear
  | look

/-- An evaluated entry waits until its append. -/
structure Thread where
  waiting? : Option Entry
  requests : List Request

structure State where
  rules : Rules
  history : History
  threads : List Thread
  seen : List (List Entry)

def start (s : Session) (programs : List (List Request)) : State :=
  ⟨s.rules, s.history, programs.map fun requests => ⟨none, requests⟩, []⟩

def State.update (s : State) (i : Nat) (t : Thread) : State :=
  { s with threads := s.threads.set i t }

def State.step (s : State) (i : Nat) : State :=
  match s.threads[i]? with
  | none => s
  | some ⟨some e, requests⟩ =>
    { s.update i ⟨none, requests⟩ with history := s.history.record e.expression e.result }
  | some ⟨none, []⟩ => s
  | some ⟨none, .submit t :: requests⟩ =>
    let waiting? := (Answer.ofText s.rules t).value?.map fun value => ⟨t, value⟩
    s.update i ⟨waiting?, requests⟩
  | some ⟨none, .clear :: requests⟩ =>
    { s.update i ⟨none, requests⟩ with history := s.history.clear }
  | some ⟨none, .look :: requests⟩ =>
    { s.update i ⟨none, requests⟩ with seen := s.history.entries :: s.seen }

def State.run (s : State) (schedule : List Nat) : State := schedule.foldl State.step s

def inTurn (programs : List (List Request)) : List Nat :=
  (programs.mapIdx fun i requests => List.replicate (2 * requests.length) i).flatten

end LineCalc.Shared
