import LineCalc.Proofs.History

/-!
A history that is used under a lock. As long as nothing blank is appended it holds the last
of the entries that were appended since it was cleared, and no look at it finds more.
-/
namespace LineCalc.Shared

inductive Locked
  | append (e : Entry)
  | clear
  | look

namespace Locked

def isClear : Locked → Bool
  | .append _ | .look => false
  | .clear => true

def appended? : Locked → Option Entry
  | .append e => some e
  | .clear | .look => none

def change? : Locked → Option History.Change
  | .append e => some (.record e.expression e.result)
  | .clear => some .clear
  | .look => none

end Locked

/-- A history that nobody shares, and the looks at it, newest first. -/
structure Serial where
  history : History
  seen : List (List Entry)

def Serial.act (s : Serial) : Locked → Serial
  | .append e => { s with history := s.history.record e.expression e.result }
  | .clear => { s with history := s.history.clear }
  | .look => { s with seen := s.history.entries :: s.seen }

structure Serial.Fits (s : Serial) (capacity : Nat) : Prop where
  room : 0 < capacity
  same : s.history.capacity = capacity
  entries : s.history.entries.length ≤ capacity
  seen : ∀ snapshot ∈ s.seen, snapshot.length ≤ capacity

def appendedSinceClear (done : List Locked) : List Entry :=
  (done.rtakeWhile fun l => !l.isClear).filterMap Locked.appended?

section Serial

variable {capacity : Nat} {done : List Locked}

theorem act_fits {h : Serial} (fits : h.Fits capacity) (l : Locked) :
    (h.act l).Fits capacity := by
  obtain ⟨room, rfl, entries, seen⟩ := fits
  cases l with
  | append e =>
    refine ⟨room, ?_, ?_, seen⟩
    · exact History.change_capacity h.history (.record e.expression e.result)
    · exact History.length_record_le room entries e.expression e.result
  | clear => exact ⟨room, rfl, Nat.zero_le _, seen⟩
  | look =>
    refine ⟨room, rfl, entries, ?_⟩
    intro snapshot member
    rcases List.mem_cons.mp member with rfl | before
    · exact entries
    · exact seen snapshot before

theorem foldl_act_fits {h : Serial} (fits : h.Fits capacity) (done : List Locked) :
    (done.foldl Serial.act h).Fits capacity := by
  induction done generalizing h with
  | nil => exact fits
  | cons l done ih => exact ih (act_fits fits l)

theorem foldl_act_history (h : Serial) (done : List Locked) :
    (done.foldl Serial.act h).history = h.history.changeAll (done.filterMap Locked.change?) := by
  induction done generalizing h with
  | nil => rfl
  | cons l done ih =>
    rw [List.foldl_cons, ih]
    cases l <;> rfl

theorem change?_isClear (l : Locked) : l.change?.any History.Change.isClear = l.isClear := by
  cases l <;> rfl

theorem entries_of_serial (shown : ∀ e, .append e ∈ done → ¬ e.expression.IsBlank) :
    (done.foldl Serial.act ⟨History.empty capacity, []⟩).history.entries =
      (appendedSinceClear done).rtake (max capacity 1) := by
  have added : ∀ l ∈ done.rtakeWhile fun l => !l.isClear,
      l.change?.bind History.Change.added? = l.appended? := by
    intro l member
    have inside := (List.rtakeWhile_suffix _ _).subset member
    cases l with
    | append e => exact if_neg (shown e inside)
    | clear => rfl
    | look => rfl
  rw [foldl_act_history, History.entries_of_empty, History.sinceClear_filterMap]
  simp only [change?_isClear]
  rw [appendedSinceClear, List.filterMap_congr added]

theorem appendedSinceClear_of_noClear (kept : ∀ l ∈ done, l.isClear = false) :
    appendedSinceClear done = done.filterMap Locked.appended? := by
  have all : done.rtakeWhile (fun l => !l.isClear) = done := by
    rw [List.rtakeWhile_eq_self_iff]
    intro l member
    rw [kept l member]
    rfl
  rw [appendedSinceClear, all]

end Serial

end LineCalc.Shared
