import LineCalc.Proofs.Terminal.Offsets

/-!
Where the characters of an editor come from. Its line and its history hold none but those that
operations have brought in, for an expression that is brought back was a line before. Keys bring
in what is typed, and no control character.
-/
namespace LineCalc

namespace Text

/-- The control characters: the first thirty-two, the delete character, and the thirty-two behind
    it. -/
def IsControl (c : Char) : Prop := c.toNat < 0x20 ∨ 0x7F ≤ c.toNat ∧ c.toNat < 0xA0

instance (c : Char) : Decidable (IsControl c) := inferInstanceAs (Decidable (_ ∨ _))

theorem isControlCharacter_iff {c : Char} : isControlCharacter c = true ↔ IsControl c := by
  simp only [isControlCharacter, isWithin, IsControl, Bool.or_eq_true, Bool.and_eq_true,
    decide_eq_true_eq]
  omega

end Text

variable {entry : Entry} {t : Text}

theorem History.expression_of_record {h : History} {result : Float}
    (member : entry ∈ (h.record t result).entries) :
    entry ∈ h.entries ∨ entry.expression = t := by
  by_cases blank : t.IsBlank
  · rw [History.record_blank blank] at member
    exact Or.inl member
  · rw [History.record_entry blank, List.mem_append, List.mem_singleton] at member
    rcases member with kept | rfl
    · left
      split at kept
      · exact kept
      · exact List.mem_of_mem_drop kept
    · exact Or.inr rfl

theorem Session.expression_of_submission {s : Session}
    (member : entry ∈ (s.submission t).2.history.entries) :
    entry ∈ s.history.entries ∨ entry.expression = t := by
  cases outcome : s.rules.evaluate t with
  | ok value =>
    rw [Session.submission_of_value outcome] at member
    exact History.expression_of_record member
  | error cause =>
    rw [Session.submission_of_error outcome] at member
    exact Or.inl member

namespace Terminal

def Operation.characters : Operation → Text
  | .setText t => t
  | .insert c => [c]
  | .setCursor _ | .deleteBefore | .deleteAfter | .left | .right | .home | .toEnd | .clear
  | .clearAll | .submit | .bringBack | .quit => []

def Call.characters (c : Call) : Text := c.operation?.elim [] Operation.characters

/-- The line and the expressions of the history hold characters of one kind only. -/
structure Holds (allowed : Char → Prop) (e : Editor) : Prop where
  line : ∀ c ∈ e.text, allowed c
  history : ∀ entry ∈ e.session.history.entries, ∀ c ∈ entry.expression, allowed c

section Operations

variable {allowed : Char → Prop} {e : Editor}

theorem holds_start (settings : Settings) :
    Holds allowed (Editor.start settings.session) :=
  ⟨List.forall_mem_nil _, List.forall_mem_nil _⟩

theorem holds_edited (holds : Holds allowed e) {before after : Text}
    (first : ∀ c ∈ before, allowed c) (second : ∀ c ∈ after, allowed c) :
    Holds allowed (e.edited before after) :=
  ⟨List.forall_mem_append.mpr ⟨first, second⟩, holds.history⟩

theorem holds_moved (holds : Holds allowed e) (before : Text) : Holds allowed (e.moved before) :=
  ⟨holds.line, holds.history⟩

theorem holds_before (holds : Holds allowed e) : ∀ c ∈ e.before, allowed c := by
  intro c member
  apply holds.line
  rw [← Editor.before_append_after]
  exact List.mem_append_left _ member

theorem holds_after (holds : Holds allowed e) : ∀ c ∈ e.after, allowed c := by
  intro c member
  apply holds.line
  rw [← Editor.before_append_after]
  exact List.mem_append_right _ member

theorem holds_submit (holds : Holds allowed e) : Holds allowed e.submit := by
  refine ⟨holds.line, ?_⟩
  intro entry member
  rcases Session.expression_of_submission member with earlier | submitted
  · exact holds.history entry earlier
  · rw [submitted]
    exact holds.line

theorem holds_bringBack (holds : Holds allowed e) : Holds allowed e.bringBack := by
  rw [Editor.bringBack]
  split
  · next entry last =>
    have recorded := holds.history entry (List.mem_of_getLast? last)
    exact holds_edited holds recorded (List.forall_mem_nil _)
  · exact holds

theorem holds_operate (holds : Holds allowed e) (o : Operation)
    (brings : ∀ c ∈ o.characters, allowed c) : Holds allowed (e.operate o) := by
  cases o with
  | setText t => exact holds_edited holds brings (List.forall_mem_nil _)
  | setCursor n => exact holds_moved holds _
  | insert c =>
    exact holds_edited holds (List.forall_mem_append.mpr ⟨holds_before holds, brings⟩)
      (holds_after holds)
  | deleteBefore =>
    rw [Editor.operate, Editor.deleteBefore]
    split
    · exact holds
    · refine holds_edited holds ?_ (holds_after holds)
      exact fun c member => holds_before holds c (List.dropLast_subset _ member)
  | deleteAfter =>
    rw [Editor.operate, Editor.deleteAfter]
    split
    · exact holds
    · refine holds_edited holds (holds_before holds) ?_
      exact fun c member => holds_after holds c (List.mem_of_mem_drop member)
  | left => exact holds_moved holds _
  | right => exact holds_moved holds _
  | home => exact holds_moved holds _
  | toEnd => exact holds_moved holds _
  | clear => exact holds_edited holds (List.forall_mem_nil _) (List.forall_mem_nil _)
  | clearAll => exact ⟨List.forall_mem_nil _, List.forall_mem_nil _⟩
  | submit => exact holds_submit holds
  | bringBack => exact holds_bringBack holds
  | quit => exact ⟨holds.line, holds.history⟩

theorem holds_call (holds : Holds allowed e) {c : Call}
    (brings : ∀ x ∈ c.characters, allowed x) : Holds allowed (e.call c) := by
  rw [Editor.call_eq]
  rw [Call.characters] at brings
  cases asked : c.operation? with
  | none => exact holds
  | some o =>
    rw [asked] at brings
    exact holds_operate holds o brings

theorem holds_calls (holds : Holds allowed e) {cs : List Call}
    (brings : ∀ c ∈ cs, ∀ x ∈ c.characters, allowed x) : Holds allowed (e.calls cs) := by
  induction cs generalizing e with
  | nil => exact holds
  | cons c cs ih =>
    obtain ⟨first, later⟩ := List.forall_mem_cons.mp brings
    exact ih (holds_call holds first) later

end Operations

section Keys

theorem not_isControl_of_typed {c x : Char}
    (member : x ∈ (typed? c).elim [] Operation.characters) : ¬ Text.IsControl x := by
  rw [typed?] at member
  split at member
  · cases member
  · next printable =>
    obtain rfl : x = c := List.mem_singleton.mp member
    rwa [Text.isControlCharacter_iff] at printable

theorem controlOperation?_characters (code : KeyCode) :
    (controlOperation? code).elim [] Operation.characters = [] := by
  unfold controlOperation?
  split <;> rfl

theorem not_isControl_of_key (k : Key) : ∀ c ∈ (Call.key k).characters, ¬ Text.IsControl c := by
  obtain ⟨code, modifiers, motion⟩ := k
  intro c member
  simp only [Call.characters, Call.operation?, Key.operation?] at member
  cases motion with
  | release => cases member
  | press | again =>
    simp only at member
    split at member
    · rw [controlOperation?_characters] at member
      cases member
    · cases code with
      | char typed => exact not_isControl_of_typed member
      | enter | escape | backspace | delete | left | right | up | home | toEnd | other =>
        cases member

end Keys

section Typing

variable {e : Editor}

def Key.typed (c : Char) : Key := { code := .char c }

theorem press_typed (e : Editor) (c : Char) :
    e.press (Key.typed c) = if Text.IsControl c then e else e.insert c := by
  simp only [← Text.isControlCharacter_iff]
  rfl

theorem insert_at_end (atEnd : e.cursor = e.text.size) (c : Char) :
    (e.insert c).text = e.text ++ [c] ∧ (e.insert c).cursor = (e.insert c).text.size := by
  have whole : e.text.cut e.cursor = (e.text, []) := by
    have cut := Text.cut_at_size e.text []
    rwa [List.append_nil, ← atEnd] at cut
  simp [Editor.insert, Editor.edited, Editor.before, Editor.after, whole]

theorem text_of_typed (atEnd : e.cursor = e.text.size) (t : Text) :
    (e.presses (t.map Key.typed)).text = e.text ++ t.filter fun c => ¬ Text.IsControl c := by
  induction t generalizing e with
  | nil => simp [Editor.presses]
  | cons c t ih =>
    have step : e.presses ((c :: t).map Key.typed) =
        (e.press (Key.typed c)).presses (t.map Key.typed) := rfl
    rw [step, press_typed]
    by_cases control : Text.IsControl c
    · rw [if_pos control, ih atEnd]
      simp [control]
    · obtain ⟨text, cursor⟩ := insert_at_end atEnd c
      rw [if_neg control, ih cursor, text]
      simp [control]

end Typing

/-- Whatever keys are pressed, neither the line nor an expression of the history ever holds a
    control character. All other characters can be typed. -/
theorem no_control_characters (settings : Settings) (keys : List Key) :
    let e := (Editor.start settings.session).presses keys
    (∀ c ∈ e.text, ¬ Text.IsControl c) ∧
      (∀ entry ∈ e.session.history.entries, ∀ c ∈ entry.expression, ¬ Text.IsControl c) ∧
      ∀ t : Text, ((Editor.start settings.session).presses (t.map Key.typed)).text =
        t.filter fun c => ¬ Text.IsControl c := by
  have brings : ∀ c ∈ keys.map Call.key, ∀ x ∈ c.characters, ¬ Text.IsControl x :=
    List.forall_mem_map.mpr fun k _ => not_isControl_of_key k
  have holds := holds_calls (holds_start settings) brings
  rw [← Editor.presses_eq_calls] at holds
  exact ⟨holds.line, holds.history, text_of_typed rfl⟩

theorem no_control_characters_recalled :
    let e := (Editor.start (Settings.session {})).presses [.typed '7', .typed '\t',
      { code := .char '\x07', modifiers := [.alt] }, { code := .enter }, { code := .escape },
      { code := .up }]
    e.text = ['7'] ∧ ¬ Text.IsControl '7' ∧
      ∃ entry ∈ e.session.history.entries, entry.expression = ['7'] ∧
        ∀ c ∈ entry.expression, ¬ Text.IsControl c := by
  intro e
  have line : e.text = ['7'] := by decide +kernel
  have recorded : ['7'] ∈ e.session.history.entries.map Entry.expression := by decide +kernel
  obtain ⟨shown, history, _⟩ := no_control_characters {} [.typed '7', .typed '\t',
    { code := .char '\x07', modifiers := [.alt] }, { code := .enter }, { code := .escape },
    { code := .up }]
  obtain ⟨entry, member, same⟩ := List.mem_map.mp recorded
  refine ⟨line, shown '7' ?_, entry, member, same, history entry member⟩
  change '7' ∈ e.text
  rw [line]
  exact List.mem_singleton_self '7'

end Terminal
end LineCalc
