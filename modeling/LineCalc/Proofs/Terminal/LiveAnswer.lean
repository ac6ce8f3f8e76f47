import LineCalc.Proofs.Terminal.Operations

/-!
The answer shown beside the expression line. Operations that change the line evaluate it
again and all others leave it alone, so the answer is that of the line at all times, whatever
the history holds.
-/
namespace LineCalc.Terminal

/-- The editor shows the answer that these rules give to its text, and it still has them. -/
structure IsLive (rules : Rules) (e : Editor) : Prop where
  answer : e.answer = Answer.ofText rules e.text
  rules : e.session.rules = rules

section Operations

variable {rules : Rules} {e : Editor}

theorem isLive_start (settings : Settings) :
    IsLive settings.rules (Editor.start settings.session) := ⟨rfl, rfl⟩

theorem isLive_edited (live : IsLive rules e) (before after : Text) :
    IsLive rules (e.edited before after) := by
  refine ⟨?_, live.rules⟩
  change Answer.ofText e.session.rules (before ++ after) = _
  rw [live.rules]
  rfl

theorem isLive_moved (live : IsLive rules e) (before : Text) : IsLive rules (e.moved before) :=
  ⟨live.answer, live.rules⟩

theorem isLive_submit (live : IsLive rules e) : IsLive rules e.submit := by
  have same := Session.call_rules e.session (.submit e.text)
  refine ⟨?_, same.trans live.rules⟩
  change (e.session.submission e.text).1 = Answer.ofText rules e.text
  rw [Session.submission_answer, Session.preview, live.rules]

theorem isLive_operate (live : IsLive rules e) (o : Operation) : IsLive rules (e.operate o) := by
  cases o with
  | setText t => exact isLive_edited live t []
  | setCursor n => exact isLive_moved live _
  | insert c => exact isLive_edited live _ _
  | deleteBefore =>
    rw [Editor.operate, Editor.deleteBefore]
    split
    · exact live
    · exact isLive_edited live _ _
  | deleteAfter =>
    rw [Editor.operate, Editor.deleteAfter]
    split
    · exact live
    · exact isLive_edited live _ _
  | left => exact isLive_moved live _
  | right => exact isLive_moved live _
  | home => exact isLive_moved live _
  | toEnd => exact isLive_moved live _
  | clear => exact isLive_edited live [] []
  | clearAll =>
    have cleared := isLive_edited live [] []
    exact ⟨cleared.answer, cleared.rules⟩
  | submit => exact isLive_submit live
  | bringBack =>
    rw [Editor.operate, Editor.bringBack]
    split
    · exact isLive_edited live _ []
    · exact live
  | quit => exact ⟨live.answer, live.rules⟩

theorem isLive_call (live : IsLive rules e) (c : Call) : IsLive rules (e.call c) := by
  rw [Editor.call_eq]
  cases c.operation? with
  | none => exact live
  | some o => exact isLive_operate live o

theorem isLive_calls (live : IsLive rules e) (cs : List Call) : IsLive rules (e.calls cs) := by
  induction cs generalizing e with
  | nil => exact live
  | cons c cs ih => exact ih (isLive_call live c)

end Operations

/-- Whatever has been asked of a new editor, the answer that it shows is the one a session under
    its settings gives to its present text, with any history: the same text, its tokens, and their
    outcome unless the text is blank. -/
theorem answer_of_calls (settings : Settings) (cs : List Call) :
    let e := (Editor.start settings.session).calls cs
    e.answer = settings.session.preview e.text ∧
      (∀ h : History, e.answer = Session.preview ⟨settings.rules, h⟩ e.text) ∧
      e.answer.text = e.text ∧ e.answer.tokens = tokenize e.text ∧
      e.answer.outcome? =
        if e.text.IsBlank then none else some (settings.rules.evaluate e.text) := by
  have live := (isLive_calls (isLive_start settings) cs).answer
  refine ⟨live, fun h => live, ?_, ?_, ?_⟩
  · rw [live]
    rfl
  · rw [live]
    rfl
  · rw [live]
    rfl

end LineCalc.Terminal
