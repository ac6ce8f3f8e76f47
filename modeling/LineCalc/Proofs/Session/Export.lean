import LineCalc.Proofs.Answer
import LineCalc.Proofs.Text.Lines

/-!
A history as text. Its entries are joined by line feeds and keep their expressions as they were
typed, so an entry has one line unless a line feed was typed into it.
-/
namespace LineCalc

theorem Entry.count_display (e : Entry) : e.display.count '\n' = e.expression.count '\n' := by
  have between : List.count '\n' " = ".toList = 0 := by decide
  have result := List.count_eq_zero.mpr (Decimal.feed_not_mem_display e.result)
  rw [display, List.count_append, List.count_append, between, result, Nat.add_zero]

theorem Entry.feed_mem_display_iff (e : Entry) : '\n' ∈ e.display ↔ '\n' ∈ e.expression := by
  rw [← List.count_pos_iff, count_display, List.count_pos_iff]

namespace Session

variable {settings : Settings} {calls : List Call}

theorem submit_of_entry {e : Entry}
    (member : e ∈ (settings.session.run calls).2.history.entries) :
    Call.submit e.expression ∈ calls := by
  rw [entries_run] at member
  obtain ⟨c, recent, added⟩ := List.mem_filterMap.mp (List.mem_of_mem_drop member)
  have asked := (List.rtakeWhile_suffix _ _).mem recent
  cases c with
  | preview t => cases added
  | clear => cases added
  | submit t =>
    obtain ⟨rfl, _⟩ := Rules.success?_eq_some_iff.mp added
    exact asked

/-- The lines of an exported history are the lines of its entries, one after the other, and one
    more for each line feed that was typed than there are entries. Each entry has a line of its own
    if and only if no line feed was typed into one that the history still holds. -/
theorem export_of_calls (settings : Settings) (calls : List Call)
    (some : (settings.session.run calls).2.history.entries ≠ []) :
    let h := (settings.session.run calls).2.history
    h.lines.splitOn '\n' = h.entries.flatMap (fun e => e.display.splitOn '\n') ∧
      (h.lines.splitOn '\n').length =
        h.size + (h.entries.map fun e => e.expression.count '\n').sum ∧
      (h.lines.splitOn '\n' = h.entries.map Entry.display ↔
        ∀ e ∈ h.entries, '\n' ∉ e.expression) ∧
      ((∀ t, Call.submit t ∈ calls → '\n' ∉ t) →
        h.lines.splitOn '\n' = h.entries.map Entry.display) := by
  intro h
  have shown : h.entries.map Entry.display ≠ [] := List.map_eq_nil_iff.not.mpr some
  have single (typed : ∀ e ∈ h.entries, '\n' ∉ e.expression) :
      h.lines.splitOn '\n' = h.entries.map Entry.display := by
    refine Text.splitOn_joinLines_single shown (List.forall_mem_map.mpr fun e member => ?_)
    rw [Entry.feed_mem_display_iff]
    exact typed e member
  refine ⟨?_, ?_, ⟨?_, single⟩, ?_⟩
  · rw [History.lines, Text.splitOn_joinLines shown, List.flatMap_map]
  · rw [History.lines, Text.length_splitOn_joinLines shown, List.length_map, List.map_map,
      History.size]
    simp only [Function.comp_def, Entry.count_display]
  · intro same e member
    have count := (Text.length_splitOn_joinLines_eq_iff shown).mp (congrArg List.length same)
    rw [← Entry.feed_mem_display_iff]
    exact count _ (List.mem_map_of_mem member)
  · intro typed
    exact single fun e member => typed _ (submit_of_entry member)

theorem export_of_calls_typed :
    let h := ((Settings.session {}).run [.submit "1".toList, .submit "2\n*3".toList]).2.history
    h.entries = [⟨"1".toList, 1⟩, ⟨"2\n*3".toList, 6⟩] ∧ (h.lines.splitOn '\n').length = 3 ∧
      h.lines.splitOn '\n' ≠ h.entries.map Entry.display := by
  have one : Rules.evaluate {} "1".toList = .ok 1 := (Rules.evaluate_eq_steps _ _).trans rfl
  have six : Rules.evaluate {} "2\n*3".toList = .ok 6 := (Rules.evaluate_eq_steps _ _).trans rfl
  have added : successes {} [.submit "1".toList, .submit "2\n*3".toList] =
      [⟨"1".toList, 1⟩, ⟨"2\n*3".toList, 6⟩] := by
    have recent : List.rtakeWhile (fun c => !Call.isClear c)
        [.submit "1".toList, .submit "2\n*3".toList] =
        [.submit "1".toList, .submit "2\n*3".toList] := rfl
    simp only [successes, recent, List.filterMap_cons, Call.added?, Rules.success?, one, six]
    rfl
  have held := (entries_run {} _).trans (congrArg (fun es => List.rtake es 100) added)
  obtain ⟨_, count, single, _⟩ := export_of_calls {} [.submit "1".toList, .submit "2\n*3".toList]
    (by rw [held]; exact List.cons_ne_nil _ _)
  refine ⟨held, ?_, ?_⟩
  · rw [count, History.size, held]
    rfl
  · rw [ne_eq, single, held]
    decide

/-- A sum over two lines is one entry and is exported as two. -/
theorem export_entry_of_two_lines :
    let h := ((Settings.session {}).submit "1\n+1".toList).history
    h.size = 1 ∧ h.lines.splitOn '\n' = ["1".toList, "+1 = 2".toList] := by
  have two : Rules.evaluate {} "1\n+1".toList = .ok 2 := (Rules.evaluate_eq_steps _ _).trans rfl
  have shown : Decimal.display 2 = ['2'] := by decide +kernel
  intro h
  have held : h.entries = [⟨"1\n+1".toList, 2⟩] := by
    have recorded := submission_of_value (s := Settings.session {}) two
    change (Session.submission _ _).2.history.entries = _
    rw [recorded]
    rfl
  have exported : h.lines = "1\n+1".toList ++ " = ".toList ++ ['2'] := by
    rw [History.lines, held, List.map_singleton, Text.joinLines, Entry.display, shown]
  refine ⟨by rw [History.size, held]; rfl, ?_⟩
  rw [exported]
  rfl

end Session
end LineCalc
