import LineCalc.Proofs.History
import LineCalc.Proofs.Rules
import LineCalc.Proofs.Token.Blanks
import LineCalc.Settings

/-!
Sessions over time. Whatever a host asks of a session, each answer depends on its text
alone, and the history holds the last of the submissions that had a value.
-/
namespace LineCalc

theorem Rules.evaluate_blank (rules : Rules) {t : Text} (blank : t.IsBlank) :
    rules.evaluate t = .error (.notOneValue 0) := by
  have nothing : Token.solid (tokenize t) = [] :=
    solid_tokens_blank (List.all_eq_true.mp blank) 0
  rw [evaluate, ← evaluateTokens_solid, nothing]
  rfl

theorem Answer.value?_ofText (rules : Rules) (t : Text) :
    (Answer.ofText rules t).value? = (rules.evaluate t).toOption := by
  by_cases blank : t.IsBlank
  · rw [rules.evaluate_blank blank]
    simp [Answer.ofText, Answer.value?, blank, Except.toOption]
  · simp only [Answer.ofText, Answer.value?, if_neg blank, Rules.evaluate]
    cases rules.evaluateTokens (tokenize t) <;> rfl

namespace Rules

theorem not_isBlank_of_evaluate {rules : Rules} {t : Text} {value : Float}
    (evaluated : rules.evaluate t = .ok value) : ¬ t.IsBlank := by
  intro blank
  rw [rules.evaluate_blank blank] at evaluated
  cases evaluated

def success? (rules : Rules) (t : Text) : Option Entry :=
  (rules.evaluate t).toOption.map (Entry.mk t)

theorem success?_eq_some_iff {rules : Rules} {t : Text} {e : Entry} :
    rules.success? t = some e ↔ e.expression = t ∧ rules.evaluate t = .ok e.result := by
  obtain ⟨expression, result⟩ := e
  rw [success?]
  cases rules.evaluate t with
  | error cause => simp [Except.toOption]
  | ok value => simp [Except.toOption, eq_comm]

theorem not_isBlank_of_success {rules : Rules} {t : Text} {e : Entry}
    (success : rules.success? t = some e) : ¬ e.expression.IsBlank := by
  obtain ⟨rfl, evaluated⟩ := success?_eq_some_iff.mp success
  exact not_isBlank_of_evaluate evaluated

end Rules

namespace Session

variable {s : Session} {rules : Rules} {t : Text}

inductive Call
  | preview (t : Text)
  | submit (t : Text)
  | clear

namespace Call

def isClear : Call → Bool
  | .preview _ | .submit _ => false
  | .clear => true

def added? (rules : Rules) : Call → Option Entry
  | .submit t => rules.success? t
  | .preview _ | .clear => none

def answer? (rules : Rules) : Call → Option Answer
  | .preview t | .submit t => some (Answer.ofText rules t)
  | .clear => none

def change? (rules : Rules) : Call → Option History.Change
  | .preview _ => none
  | .submit t => (rules.success? t).map fun e => .record e.expression e.result
  | .clear => some .clear

end Call

def call (s : Session) : Call → Option Answer × Session
  | .preview t => (some (s.preview t), s)
  | .submit t => (some (s.submission t).1, (s.submission t).2)
  | .clear => (none, s.clear)

def run (s : Session) : List Call → List (Option Answer) × Session
  | [] => ([], s)
  | c :: calls => ((s.call c).1 :: ((s.call c).2.run calls).1, ((s.call c).2.run calls).2)

/-- The submissions since the last clearing that had a value. -/
def successes (rules : Rules) (calls : List Call) : List Entry :=
  (calls.rtakeWhile fun c => !c.isClear).filterMap (Call.added? rules)

section Calls

theorem submission_answer (s : Session) (t : Text) : (s.submission t).1 = s.preview t := by
  rw [submission]
  split <;> rfl

theorem submission_of_value {value : Float} (evaluated : s.rules.evaluate t = .ok value) :
    (s.submission t).2 = { s with history := s.history.record t value } := by
  have shown : (s.preview t).value? = some value := by
    rw [preview, Answer.value?_ofText, evaluated]
    rfl
  rw [submission, shown]

theorem submission_of_error {e : CalcError} (failed : s.rules.evaluate t = .error e) :
    (s.submission t).2 = s := by
  have shown : (s.preview t).value? = none := by
    rw [preview, Answer.value?_ofText, failed]
    rfl
  rw [submission, shown]

theorem call_answer (s : Session) (c : Call) : (s.call c).1 = c.answer? s.rules := by
  cases c with
  | preview t => rfl
  | submit t => exact congrArg some (submission_answer s t)
  | clear => rfl

theorem call_rules (s : Session) (c : Call) : (s.call c).2.rules = s.rules := by
  cases c with
  | preview t => rfl
  | submit t =>
    change (s.submission t).2.rules = s.rules
    rw [submission]
    split <;> rfl
  | clear => rfl

theorem call_history (s : Session) (c : Call) :
    (s.call c).2.history = s.history.changeAll (c.change? s.rules).toList := by
  cases c with
  | preview t => rfl
  | submit t =>
    change (s.submission t).2.history = _
    cases outcome : s.rules.evaluate t with
    | ok value =>
      rw [submission_of_value outcome, Call.change?, Rules.success?, outcome]
      rfl
    | error e =>
      rw [submission_of_error outcome, Call.change?, Rules.success?, outcome]
      rfl
  | clear => rfl

theorem run_answers (s : Session) (calls : List Call) :
    (s.run calls).1 = calls.map (Call.answer? s.rules) := by
  induction calls generalizing s with
  | nil => rfl
  | cons c calls ih => rw [run, ih, call_rules, call_answer, List.map_cons]

theorem run_rules (s : Session) (calls : List Call) : (s.run calls).2.rules = s.rules := by
  induction calls generalizing s with
  | nil => rfl
  | cons c calls ih => rw [run, ih, call_rules]

theorem run_history (s : Session) (calls : List Call) :
    (s.run calls).2.history = s.history.changeAll (calls.filterMap (Call.change? s.rules)) := by
  induction calls generalizing s with
  | nil => rfl
  | cons c calls ih =>
    rw [run, ih, call_rules, call_history, ← History.changeAll_append]
    congr 1
    cases found : c.change? s.rules <;> simp [found]

end Calls

section Successes

theorem change?_isClear (rules : Rules) (c : Call) :
    (c.change? rules).any History.Change.isClear = c.isClear := by
  cases c with
  | preview t => rfl
  | submit t =>
    rw [Call.change?]
    cases rules.success? t <;> rfl
  | clear => rfl

theorem change?_added? (rules : Rules) (c : Call) :
    (c.change? rules).bind History.Change.added? = c.added? rules := by
  cases c with
  | preview t => rfl
  | submit t =>
    rw [Call.change?, Call.added?]
    cases success : rules.success? t with
    | none => rfl
    | some e => exact if_neg (Rules.not_isBlank_of_success success)
  | clear => rfl

theorem sinceClear_change? (rules : Rules) (calls : List Call) :
    History.sinceClear (calls.filterMap (Call.change? rules)) = successes rules calls := by
  rw [History.sinceClear_filterMap, successes]
  simp only [change?_isClear, change?_added?]

theorem evaluate_of_success {calls : List Call} {entry : Entry}
    (member : entry ∈ successes rules calls) :
    rules.evaluate entry.expression = .ok entry.result := by
  obtain ⟨c, _, added⟩ := List.mem_filterMap.mp member
  cases c with
  | preview t => cases added
  | clear => cases added
  | submit t =>
    obtain ⟨rfl, evaluated⟩ := Rules.success?_eq_some_iff.mp added
    exact evaluated

end Successes

theorem entries_run (settings : Settings) (calls : List Call) :
    (settings.session.run calls).2.history.entries =
      (successes settings.rules calls).rtake (max settings.capacity 1) := by
  rw [run_history, ← sinceClear_change?]
  exact History.entries_of_empty _ _

/-- Whatever is asked of a session, its history holds the last submissions with a value, as many
    as it has room for, and each answer is that of the text alone. -/
theorem history_of_calls (settings : Settings) (calls : List Call) :
    let s := (settings.session.run calls).2
    s.history.entries = (successes settings.rules calls).rtake (max settings.capacity 1) ∧
      (settings.session.run calls).1 = calls.map (Call.answer? settings.rules) ∧
      (∀ t h, ((Session.mk settings.rules h).submission t).1 = s.preview t) ∧
      (∀ t, (s.call (.preview t)).2 = s) ∧
      (∀ t, (t.IsBlank ∨ ∃ e, settings.rules.evaluate t = .error e) →
        (s.call (.submit t)).2 = s) ∧
      (∀ t value, settings.rules.evaluate t = .ok value →
        History.accepts t = true ∧ (s.call (.submit t)).2.history.last? = some ⟨t, value⟩) ∧
      ∀ entry ∈ s.history.entries,
        (s.preview entry.expression).value? = some entry.result := by
  have same : (settings.session.run calls).2.rules = settings.rules := run_rules _ calls
  have held := entries_run settings calls
  refine ⟨held, run_answers _ calls, ?_, fun t => rfl, ?_, ?_, ?_⟩
  · intro t h
    rw [submission_answer, preview, preview, same]
  · rintro t (blank | ⟨e, failed⟩)
    · exact submission_of_error (Rules.evaluate_blank _ blank)
    · rw [← same] at failed
      exact submission_of_error failed
  · intro t value evaluated
    have shown := Rules.not_isBlank_of_evaluate evaluated
    refine ⟨by simp [History.accepts, shown], ?_⟩
    rw [← same] at evaluated
    change (Session.submission _ t).2.history.last? = _
    rw [submission_of_value evaluated, History.last?, History.record_entry shown]
    exact List.getLast?_concat
  · intro entry member
    rw [held] at member
    have evaluated := evaluate_of_success (List.mem_of_mem_drop member)
    rw [preview, Answer.value?_ofText, same, evaluated]
    rfl

theorem history_of_calls_evicted :
    let settings : Settings := ⟨2, {}⟩
    let s := (settings.session.run [.submit "1".toList, .clear, .submit "2".toList,
      .submit "2+".toList, .submit " ".toList, .preview "3".toList, .submit "4".toList,
      .submit "5".toList]).2
    s.history.entries = [⟨"4".toList, 4⟩, ⟨"5".toList, 5⟩] ∧
      (s.call (.submit " ".toList)).2 = s ∧ (s.call (.submit "2+".toList)).2 = s ∧
      (s.call (.submit "2".toList)).2.history.last? = some ⟨"2".toList, 2⟩ ∧
      (s.preview "4".toList).value? = some 4 := by
  have two : Rules.evaluate {} "2".toList = .ok 2 := by
    have cut : tokenize "2".toList = [⟨['2'], .number, 0⟩] := (tokenize_eq_steps _).trans rfl
    rw [Rules.evaluate, cut]
    rfl
  have four : Rules.evaluate {} "4".toList = .ok 4 := by
    have cut : tokenize "4".toList = [⟨['4'], .number, 0⟩] := (tokenize_eq_steps _).trans rfl
    rw [Rules.evaluate, cut]
    rfl
  have five : Rules.evaluate {} "5".toList = .ok 5 := by
    have cut : tokenize "5".toList = [⟨['5'], .number, 0⟩] := (tokenize_eq_steps _).trans rfl
    rw [Rules.evaluate, cut]
    rfl
  have unfinished : Rules.evaluate {} "2+".toList = .error (.missingOperand '+' 1) := by
    have cut : tokenize "2+".toList = [⟨['2'], .number, 0⟩, ⟨['+'], .operator, 1⟩] :=
      (tokenize_eq_steps _).trans rfl
    rw [Rules.evaluate, cut]
    rfl
  have blank : Text.IsBlank " ".toList := rfl
  obtain ⟨held, _, _, _, unchanged, last, again⟩ :=
    history_of_calls ⟨2, {}⟩ [.submit "1".toList, .clear, .submit "2".toList,
      .submit "2+".toList, .submit " ".toList, .preview "3".toList, .submit "4".toList,
      .submit "5".toList]
  have added : List.filterMap (Call.added? {}) [.submit "2".toList, .submit "2+".toList,
      .submit " ".toList, .preview "3".toList, .submit "4".toList, .submit "5".toList] =
      [⟨"2".toList, 2⟩, ⟨"4".toList, 4⟩, ⟨"5".toList, 5⟩] := by
    simp only [List.filterMap_cons, Call.added?, Rules.success?, two, four, five, unfinished,
      Rules.evaluate_blank _ blank]
    rfl
  have kept : _ = [Entry.mk "4".toList 4, Entry.mk "5".toList 5] :=
    held.trans (congrArg (fun es => List.rtake es 2) added)
  refine ⟨kept, unchanged _ (.inl blank), unchanged _ (.inr ⟨_, unfinished⟩),
    (last _ _ two).2, again ⟨"4".toList, 4⟩ ?_⟩
  rw [kept]
  exact List.mem_cons_self

end Session
end LineCalc
