import LineCalc.Proofs.Session
import LineCalc.Proofs.Session.Serial
import LineCalc.Session.Shared

/-!
Threads that share a session. A step of a thread takes one thing from what it has to do, and
what a run does under the lock is what its threads have done less to do.
-/
namespace LineCalc.Shared

variable {rules : Rules} {s : State} {schedule : List Nat}

def Request.added? (rules : Rules) : Request → Option Entry
  | .submit t => rules.success? t
  | .clear | .look => none

/-- What a request does under the lock: a text without a value does nothing. -/
def Request.locked? (rules : Rules) : Request → Option Locked
  | .submit t => (rules.success? t).map .append
  | .clear => some .clear
  | .look => some .look

namespace Thread

def locked? : Thread → Option Locked
  | ⟨some e, _⟩ => some (.append e)
  | ⟨none, .clear :: _⟩ => some .clear
  | ⟨none, .look :: _⟩ => some .look
  | ⟨none, .submit _ :: _⟩ | ⟨none, []⟩ => none

def next (rules : Rules) : Thread → Thread
  | ⟨some _, requests⟩ => ⟨none, requests⟩
  | ⟨none, .submit t :: requests⟩ => ⟨rules.success? t, requests⟩
  | ⟨none, .clear :: requests⟩ | ⟨none, .look :: requests⟩ | ⟨none, requests⟩ => ⟨none, requests⟩

def pending (rules : Rules) (t : Thread) : List Locked :=
  (t.waiting?.map Locked.append).toList ++ t.requests.filterMap (Request.locked? rules)

/-- The steps that are left, at most two for a request. -/
def left (t : Thread) : Nat := 2 * t.requests.length + t.waiting?.toList.length

def IsFinished (t : Thread) : Prop := t.waiting? = none ∧ t.requests = []

end Thread

namespace State

def serial (s : State) : Serial := ⟨s.history, s.seen⟩

def locked? (s : State) (i : Nat) : Option Locked := s.threads[i]?.bind Thread.locked?

def pending (s : State) (i : Nat) : List Locked :=
  s.threads[i]?.elim [] (Thread.pending s.rules)

def work (s : State) : List Locked := s.threads.flatMap (Thread.pending s.rules)

def left (s : State) (i : Nat) : Nat := s.threads[i]?.elim 0 Thread.left

/-- All that is done under the lock, in order, each with the thread that does it. -/
def log (s : State) : List Nat → List (Nat × Locked)
  | [] => []
  | i :: schedule => ((s.locked? i).map (i, ·)).toList ++ (s.step i).log schedule

def IsFinished (s : State) : Prop := ∀ t ∈ s.threads, t.IsFinished

end State

def ofThread (i : Nat) (log : List (Nat × Locked)) : List Locked :=
  log.filterMap fun done => if done.1 = i then some done.2 else none

section Step

theorem Thread.pending_next (rules : Rules) (t : Thread) :
    t.pending rules = t.locked?.toList ++ (t.next rules).pending rules := by
  rcases t with ⟨_ | e, requests⟩
  · cases requests with
    | nil => rfl
    | cons r requests =>
      cases r with
      | clear => rfl
      | look => rfl
      | submit t =>
        simp only [pending, next, locked?, List.filterMap_cons, Request.locked?]
        cases rules.success? t <;> rfl
  · rfl

theorem Thread.left_next (rules : Rules) (t : Thread) : (t.next rules).left ≤ t.left - 1 := by
  rcases t with ⟨_ | e, requests⟩
  · cases requests with
    | nil => simp [left, next]
    | cons r requests =>
      cases r with
      | clear => simp [left, next]; omega
      | look => simp [left, next]; omega
      | submit t =>
        cases success : rules.success? t <;> simp [left, next, success] <;> omega
  · simp [left, next]

/-- All that one step does: the thread moves on, and what it does under the lock is done. -/
theorem step_eq (s : State) (i : Nat) :
    (s.step i).rules = s.rules ∧
      (s.step i).threads = s.threads.modify i (Thread.next s.rules) ∧
      (s.step i).serial = (s.locked? i).toList.foldl Serial.act s.serial := by
  rw [List.modify_eq_set_getElem?, State.step, State.locked?]
  cases found : s.threads[i]? with
  | none => exact ⟨rfl, rfl, rfl⟩
  | some t =>
    rcases t with ⟨_ | e, requests⟩
    · cases requests with
      | nil =>
        obtain ⟨inside, same⟩ := List.getElem?_eq_some_iff.mp found
        have unmoved : s.threads.set i ⟨none, []⟩ = s.threads := by
          rw [← same, List.set_getElem_self]
        exact ⟨rfl, unmoved.symm, rfl⟩
      | cons r requests =>
        cases r with
        | clear => exact ⟨rfl, rfl, rfl⟩
        | look => exact ⟨rfl, rfl, rfl⟩
        | submit t =>
          refine ⟨rfl, ?_, rfl⟩
          simp only [Answer.value?_ofText]
          rfl
    · exact ⟨rfl, rfl, rfl⟩

theorem step_rules (s : State) (i : Nat) : (s.step i).rules = s.rules := (step_eq s i).1

theorem step_thread (s : State) (i j : Nat) :
    (s.step i).threads[j]? =
      s.threads[j]?.map fun t => if i = j then t.next s.rules else t := by
  rw [(step_eq s i).2.1, List.getElem?_modify]
  rfl

theorem step_pending (s : State) (i j : Nat) :
    s.pending j = (if i = j then (s.locked? i).toList else []) ++ (s.step i).pending j := by
  rw [State.pending, State.pending, step_thread, step_rules, State.locked?]
  by_cases same : i = j
  · subst same
    cases s.threads[i]? with
    | none => simp
    | some t => simpa using t.pending_next s.rules
  · cases s.threads[j]? <;> simp [same]

theorem step_left (s : State) (i j : Nat) :
    (s.step i).left j ≤ s.left j - if i = j then 1 else 0 := by
  rw [State.left, State.left, step_thread]
  by_cases same : i = j
  · subst same
    cases s.threads[i]? with
    | none => simp
    | some t => simpa using t.left_next s.rules
  · cases s.threads[j]? <;> simp [same]

theorem flatMap_pending (rules : Rules) (threads : List Thread) (i : Nat) :
    (threads.flatMap (Thread.pending rules)).Perm
      ((threads[i]?.bind Thread.locked?).toList ++
        (threads.modify i (Thread.next rules)).flatMap (Thread.pending rules)) := by
  induction threads generalizing i with
  | nil => simp
  | cons t threads ih =>
    cases i with
    | zero =>
      rw [List.modify_zero_cons, List.flatMap_cons, List.flatMap_cons, t.pending_next rules,
        List.append_assoc]
      exact .refl _
    | succ i =>
      rw [List.modify_succ_cons, List.flatMap_cons, List.flatMap_cons]
      exact ((ih i).append_left _).trans (List.perm_append_comm_assoc _ _ _)

theorem step_work (s : State) (i : Nat) :
    s.work.Perm ((s.locked? i).toList ++ (s.step i).work) := by
  rw [State.work, State.work, (step_eq s i).2.1, step_rules]
  exact flatMap_pending s.rules s.threads i

end Step

section Run

theorem log_cons (s : State) (i : Nat) (schedule : List Nat) :
    (s.log (i :: schedule)).map Prod.snd =
      (s.locked? i).toList ++ ((s.step i).log schedule).map Prod.snd := by
  rw [State.log, List.map_append]
  cases s.locked? i <;> rfl

theorem run_serial (s : State) (schedule : List Nat) :
    (s.run schedule).serial =
      ((s.log schedule).map Prod.snd).foldl Serial.act s.serial := by
  induction schedule generalizing s with
  | nil => rfl
  | cons i schedule ih =>
    rw [log_cons, List.foldl_append, ← (step_eq s i).2.2]
    exact ih (s.step i)

theorem run_pending (s : State) (schedule : List Nat) (j : Nat) :
    s.pending j = ofThread j (s.log schedule) ++ (s.run schedule).pending j := by
  induction schedule generalizing s with
  | nil => rfl
  | cons i schedule ih =>
    have first : ofThread j ((s.locked? i).map (i, ·)).toList =
        if i = j then (s.locked? i).toList else [] := by
      by_cases same : i = j <;> cases s.locked? i <;> simp [ofThread, same]
    rw [State.log, ofThread, List.filterMap_append, ← ofThread, ← ofThread, first,
      List.append_assoc]
    rw [step_pending s i j, ih (s.step i)]
    rfl

theorem run_work (s : State) (schedule : List Nat) :
    s.work.Perm ((s.log schedule).map Prod.snd ++ (s.run schedule).work) := by
  induction schedule generalizing s with
  | nil => exact .refl _
  | cons i schedule ih =>
    rw [log_cons, List.append_assoc]
    exact (step_work s i).trans ((ih (s.step i)).append_left _)

theorem run_left (s : State) (schedule : List Nat) (j : Nat) :
    (s.run schedule).left j ≤ s.left j - schedule.count j := by
  induction schedule generalizing s with
  | nil => exact Nat.le_refl _
  | cons i schedule ih =>
    have one := step_left s i j
    have rest := ih (s.step i)
    have both : s.run (i :: schedule) = (s.step i).run schedule := rfl
    rw [both, List.count_cons]
    by_cases same : i = j
    · simp only [same, if_true, beq_self_eq_true] at one rest ⊢
      omega
    · simp only [same, if_false, beq_iff_eq] at one rest ⊢
      omega

theorem run_finishes (long : ∀ i, s.left i ≤ schedule.count i) :
    (s.run schedule).IsFinished := by
  intro t member
  obtain ⟨i, found⟩ := List.mem_iff_getElem?.mp member
  have bound := run_left s schedule i
  have enough := long i
  have rest : (s.run schedule).left i = t.left := by
    rw [State.left, found]
    rfl
  rcases t with ⟨waiting?, requests⟩
  simp only [Thread.left] at rest
  have requests_done : requests.length = 0 := by omega
  have waiting_done : waiting?.toList.length = 0 := by omega
  refine ⟨?_, List.length_eq_zero_iff.mp requests_done⟩
  cases waiting? with
  | none => rfl
  | some e => cases waiting_done

theorem pending_of_finished (finished : s.IsFinished) (i : Nat) : s.pending i = [] := by
  rw [State.pending]
  cases found : s.threads[i]? with
  | none => rfl
  | some t =>
    obtain ⟨waiting, requests⟩ := finished t (List.mem_of_getElem? found)
    simp [Thread.pending, waiting, requests]

theorem work_of_finished (finished : s.IsFinished) : s.work = [] := by
  rw [State.work, List.flatMap_eq_nil_iff]
  intro t member
  obtain ⟨waiting, requests⟩ := finished t member
  simp [Thread.pending, waiting, requests]

end Run

section Requests

theorem locked?_appended? (rules : Rules) (r : Request) :
    (r.locked? rules).bind Locked.appended? = r.added? rules := by
  cases r with
  | clear => rfl
  | look => rfl
  | submit t =>
    rw [Request.locked?, Request.added?]
    cases rules.success? t <;> rfl

theorem mem_work_of_mem_log {l : Locked}
    (member : l ∈ (s.log schedule).map Prod.snd) : l ∈ s.work :=
  (run_work s schedule).mem_iff.mpr (List.mem_append_left _ member)

theorem not_isBlank_of_append {r : Request} {e : Entry}
    (does : r.locked? rules = some (.append e)) : ¬ e.expression.IsBlank := by
  cases r with
  | clear => cases does
  | look => cases does
  | submit t =>
    obtain ⟨_, success, same⟩ := Option.map_eq_some_iff.mp does
    cases same
    exact Rules.not_isBlank_of_success success

theorem isClear_of_locked? {r : Request} {l : Locked} (does : r.locked? rules = some l)
    (other : r ≠ .clear) : l.isClear = false := by
  cases r with
  | clear => exact absurd rfl other
  | look =>
    cases does
    rfl
  | submit t =>
    obtain ⟨value, _, rfl⟩ := Option.map_eq_some_iff.mp does
    rfl

end Requests

end LineCalc.Shared
