import LineCalc.Proofs.Answer
import LineCalc.Proofs.Terminal.LiveAnswer
import LineCalc.Proofs.Terminal.Zipper
import LineCalc.Terminal.Screen

/-!
Highlights of the expression line. Its spans show the text, one character each, and a blank behind
it if the cursor stands there. One span is marked as the cursor, and one as the fault of the
present answer unless the cursor stands on it.
-/
namespace LineCalc

namespace Terminal

def shownText (spans : List Span) : Text := spans.flatMap Span.text

/-- Exactly one span has the style. It shows this character, behind as many bytes. -/
def Marked (spans : List Span) (style : Style) (place : Nat) (c : Char) : Prop :=
  ∃ before after, spans = before ++ ⟨[c], style⟩ :: after ∧
    Text.size (shownText before) = place ∧ ∀ s ∈ before ++ after, s.style ≠ style

section Spans

variable {cursor start : Nat} {error? : Option Nat} {t : Text}

theorem characterSpans_append (cursor : Nat) (error? : Option Nat) (start : Nat) (l r : Text) :
    characterSpans cursor error? start (l ++ r) =
      characterSpans cursor error? start l ++
        characterSpans cursor error? (start + l.size) r := by
  induction l generalizing start with
  | nil => rfl
  | cons c l ih =>
    rw [List.cons_append, characterSpans, characterSpans, ih, Text.size_cons, Nat.add_assoc,
      List.cons_append]

theorem shownText_append (l r : List Span) : shownText (l ++ r) = shownText l ++ shownText r :=
  List.flatMap_append

theorem shownText_characterSpans (cursor : Nat) (error? : Option Nat) (start : Nat) (t : Text) :
    shownText (characterSpans cursor error? start t) = t := by
  induction t generalizing start with
  | nil => rfl
  | cons c t ih =>
    rw [characterSpans, shownText, List.flatMap_cons]
    exact congrArg (c :: ·) (ih _)

theorem unmarked_characterSpans {style : Style}
    (never : ∀ place, start ≤ place → place < start + t.size →
      characterStyle cursor error? place ≠ style) :
    ∀ s ∈ characterSpans cursor error? start t, s.style ≠ style := by
  induction t generalizing start with
  | nil => exact List.forall_mem_nil _
  | cons c t ih =>
    have positive := c.utf8Size_pos
    rw [Text.size_cons] at never
    rw [characterSpans, List.forall_mem_cons]
    refine ⟨never start (Nat.le_refl start) (by omega), ih ?_⟩
    intro place low high
    exact never place (by omega) (by omega)

theorem characterStyle_eq_cursorStyle_iff {place : Nat} :
    characterStyle cursor error? place = cursorStyle ↔ place = cursor := by
  unfold characterStyle
  split_ifs with here wrong
  · simp [here]
  · simp [here, errorStyle, cursorStyle]
  · simp [here, Style.plain, cursorStyle]

theorem characterStyle_eq_errorStyle_iff {place : Nat} :
    characterStyle cursor error? place = errorStyle ↔ error? = some place ∧ place ≠ cursor := by
  unfold characterStyle
  split_ifs with here wrong
  · simp [here, errorStyle, cursorStyle]
  · simp [here, wrong]
  · simp [wrong, Style.plain, errorStyle]

theorem marked_append {spans more : List Span} {style : Style} {place : Nat} {c : Char}
    (marked : Marked spans style place c) (others : ∀ s ∈ more, s.style ≠ style) :
    Marked (spans ++ more) style place c := by
  obtain ⟨before, after, rfl, size, unmarked⟩ := marked
  refine ⟨before, after ++ more, by simp, size, ?_⟩
  rw [← List.append_assoc]
  exact List.forall_mem_append.mpr ⟨unmarked, others⟩

theorem marked_characterSpans {style : Style} (l r : Text) (c : Char)
    (alone : ∀ place, characterStyle cursor error? place = style ↔ place = l.size) :
    Marked (characterSpans cursor error? 0 (l ++ c :: r)) style l.size c := by
  have here : characterStyle cursor error? l.size = style := (alone l.size).mpr rfl
  refine ⟨characterSpans cursor error? 0 l,
    characterSpans cursor error? (l.size + c.utf8Size) r, ?_, ?_, ?_⟩
  · rw [characterSpans_append, Nat.zero_add, characterSpans, here]
  · rw [shownText_characterSpans]
  · refine List.forall_mem_append.mpr
      ⟨unmarked_characterSpans ?_, unmarked_characterSpans ?_⟩
    · intro place _ high same
      have there := (alone place).mp same
      omega
    · intro place low _ same
      have there := (alone place).mp same
      have positive := c.utf8Size_pos
      omega

end Spans

section Line

variable {e : Editor} {p : Nat}

def cursorBlank (e : Editor) : List Span :=
  if e.text.size ≤ e.cursor then [⟨[' '], cursorStyle⟩] else []

theorem lineSpans_eq (e : Editor) :
    lineSpans e =
      characterSpans e.cursor e.answer.errorPosition? 0 e.text ++ cursorBlank e := rfl

theorem no_error_cursorBlank (e : Editor) : ∀ s ∈ cursorBlank e, s.style ≠ errorStyle := by
  intro s member
  rw [cursorBlank] at member
  split at member
  · rw [List.mem_singleton.mp member]
    decide
  · cases member

theorem shownText_lineSpans (boundary : e.text.IsBoundary e.cursor) :
    shownText (lineSpans e) = e.text ++ if e.cursor = e.text.size then [' '] else [] := by
  have inside := Text.boundary_le_size boundary
  rw [lineSpans_eq, shownText_append, shownText_characterSpans, cursorBlank]
  by_cases last : e.cursor = e.text.size
  · rw [if_pos last, if_pos last.ge]
    rfl
  · rw [if_neg last, if_neg (by omega)]
    rfl

theorem marked_cursor (boundary : e.text.IsBoundary e.cursor) :
    Marked (lineSpans e) cursorStyle e.cursor (e.after.head?.getD ' ') := by
  have place : Text.size e.before = e.cursor := boundary
  have whole := Editor.before_append_after e
  rw [lineSpans_eq]
  cases behind : e.after with
  | nil =>
    rw [behind, List.append_nil] at whole
    have last : e.text.size = e.cursor := by rw [← whole, place]
    refine ⟨_, [], by rw [cursorBlank, if_pos last.le]; rfl, ?_, ?_⟩
    · rw [shownText_characterSpans, last]
    · rw [List.append_nil]
      apply unmarked_characterSpans
      intro place _ high same
      have there := characterStyle_eq_cursorStyle_iff.mp same
      omega
  | cons c rest =>
    have within : ¬ e.text.size ≤ e.cursor := by
      have some : e.after ≠ [] := by simp [behind]
      have lt := (Editor.cursor_lt_size_iff boundary).mpr some
      omega
    rw [behind] at whole
    rw [cursorBlank, if_neg within, List.append_nil, ← whole, ← place]
    exact marked_characterSpans e.before rest c fun _ => characterStyle_eq_cursorStyle_iff

theorem exists_character {t : Text} (inside : p < t.size) (boundary : t.IsBoundary p) :
    ∃ c r, (t.cut p).2 = c :: r := by
  apply List.exists_cons_of_ne_nil
  intro nothing
  have whole := congrArg Text.size (t.cut_append p)
  rw [Text.size_append, boundary, nothing, Text.size_nil] at whole
  omega

theorem marked_error (found : e.answer.errorPosition? = some p) (inside : p < e.text.size)
    (boundary : e.text.IsBoundary p) (apart : p ≠ e.cursor) :
    ∃ c, (e.text.cut p).2.head? = some c ∧ Marked (lineSpans e) errorStyle p c := by
  obtain ⟨c, r, behind⟩ := exists_character inside boundary
  have whole := e.text.cut_append p
  rw [behind] at whole
  refine ⟨c, by rw [behind, List.head?_cons], ?_⟩
  have alone : ∀ place, characterStyle e.cursor e.answer.errorPosition? place = errorStyle ↔
      place = (e.text.cut p).1.size := by
    intro place
    rw [characterStyle_eq_errorStyle_iff, found, boundary]
    constructor
    · rintro ⟨same, _⟩
      exact (Option.some.inj same).symm
    · rintro rfl
      exact ⟨rfl, apart⟩
  have marked := marked_characterSpans (e.text.cut p).1 r c alone
  rw [whole, boundary] at marked
  exact marked_append marked (no_error_cursorBlank e)

theorem no_error_marked (hidden : ∀ p, e.answer.errorPosition? = some p → p = e.cursor) :
    ∀ s ∈ lineSpans e, s.style ≠ errorStyle := by
  rw [lineSpans_eq]
  refine List.forall_mem_append.mpr ⟨unmarked_characterSpans ?_, no_error_cursorBlank e⟩
  intro place _ _ same
  obtain ⟨found, apart⟩ := characterStyle_eq_errorStyle_iff.mp same
  exact apart (hidden place found)

end Line

/-- Whatever has been asked of a new editor, the spans of its line show the text, and a blank
    behind it if the cursor stands there. One span is marked as the cursor, at its place. If the
    answer to the text has a fault with a place other than that of the cursor, one span is marked
    for the fault, the character at this place; else none is. -/
theorem highlights_of_calls (settings : Settings) (cs : List Call) :
    let e := (Editor.start settings.session).calls cs
    let spans := lineSpans e
    let error? := e.answer.errorPosition?
    e.answer = settings.session.preview e.text ∧
      shownText spans = e.text ++ (if e.cursor = e.text.size then [' '] else []) ∧
      Marked spans cursorStyle e.cursor ((e.text.cut e.cursor).2.head?.getD ' ') ∧
      (∀ p, error? = some p → p ≠ e.cursor →
        ∃ c, (e.text.cut p).2.head? = some c ∧ Marked spans errorStyle p c) ∧
      ((∀ p, error? = some p → p = e.cursor) → ∀ s ∈ spans, s.style ≠ errorStyle) := by
  intro e spans error?
  have live : e.answer = Answer.ofText settings.rules e.text :=
    (isLive_calls (isLive_start settings) cs).answer
  have boundary := isBoundary_of_shows (shows_calls (shows_start settings) cs)
  refine ⟨live, shownText_lineSpans boundary, marked_cursor boundary, ?_, no_error_marked⟩
  intro p found apart
  have known : (Answer.ofText settings.rules e.text).errorPosition? = some p := by rwa [← live]
  obtain ⟨inside, starts⟩ := Answer.place_of_errorPosition known
  exact marked_error found inside starts apart

theorem highlights_of_calls_missing :
    let e := (Editor.start (Settings.session ⟨100, ⟨.lenient, .ieee⟩⟩)).calls
      [.operation (.setText "é/2".toList), .operation .home]
    e.answer.errorPosition? = some 2 ∧ e.cursor = 0 ∧
      Marked (lineSpans e) cursorStyle 0 'é' ∧ Marked (lineSpans e) errorStyle 2 '/' := by
  intro e
  have found : e.answer.errorPosition? = some 2 := by decide +kernel
  obtain ⟨_, _, cursor, fault, _⟩ := highlights_of_calls ⟨100, ⟨.lenient, .ieee⟩⟩
    [.operation (.setText "é/2".toList), .operation .home]
  obtain ⟨c, here, marked⟩ := fault 2 found (by decide)
  obtain rfl : '/' = c := Option.some.inj here
  exact ⟨found, rfl, cursor, marked⟩

end Terminal
end LineCalc
