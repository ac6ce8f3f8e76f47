import LineCalc.Token.Scan
import Mathlib.Data.List.TakeWhile

/-!
Lexemes, the texts of tokens. Each kind of token has its lexemes, and a lexeme stops
before a character that it could not take in. A text begins with exactly one lexeme
that stops before what follows.
-/
namespace LineCalc

/-- Digits, and perhaps a point with digits behind it. -/
def IsNumeral (t : Text) : Prop :=
  ∃ whole part : Text, whole ≠ [] ∧ (∀ c ∈ whole, c.isDigit = true) ∧
    (∀ c ∈ part, c.isDigit = true) ∧ (t = whole ∨ t = whole ++ '.' :: part)

def IsLexeme : Kind → Text → Prop
  | .number, t => IsNumeral t
  | .operator, t => ∃ c ∈ "+-*/()".toList, t = [c]
  | .blank, t => t ≠ [] ∧ ∀ c ∈ t, isBlank c = true
  | .unknown, t =>
    ∃ c, t = [c] ∧ c.isDigit = false ∧ c ∉ "+-*/()".toList ∧ isBlank c = false

/-- The lexeme t of this kind would not take in the next character c. -/
def StopsAt (kind : Kind) (t : Text) (c : Char) : Prop :=
  (kind = .number → c.isDigit = false ∧ ('.' ∉ t → c ≠ '.')) ∧
    (kind = .blank → isBlank c = false)

def StopsBefore (kind : Kind) (t rest : Text) : Prop := ∀ c ∈ rest.head?, StopsAt kind t c

theorem isOperator_iff (c : Char) : isOperator c = true ↔ c ∈ "+-*/()".toList := by
  simp [isOperator, or_assoc]

theorem not_operator_of_digit {c : Char} (digit : c.isDigit = true) : isOperator c = false := by
  refine Bool.eq_false_iff.mpr fun operator => ?_
  have member := (isOperator_iff c).mp operator
  simp at member
  rcases member with rfl | rfl | rfl | rfl | rfl | rfl <;> cases digit

theorem not_blank_of_digit {c : Char} (digit : c.isDigit = true) : isBlank c = false := by
  have bounds : 48 ≤ c.toNat ∧ c.toNat ≤ 57 := by
    simpa [Char.isDigit, UInt32.le_iff_toNat_le] using digit
  refine Bool.eq_false_iff.mpr fun blank => ?_
  simp only [isBlank, Bool.or_eq_true, Bool.and_eq_true, decide_eq_true_eq, beq_iff_eq] at blank
  omega

theorem not_blank_of_operator {c : Char} (operator : isOperator c = true) :
    isBlank c = false := by
  have member := (isOperator_iff c).mp operator
  simp at member
  rcases member with rfl | rfl | rfl | rfl | rfl | rfl <;> rfl

section Runs

variable {p : Char → Bool} {run rest : Text}

theorem takeWhile_run (all : ∀ c ∈ run, p c = true) (stop : ∀ c ∈ rest.head?, p c = false) :
    (run ++ rest).takeWhile p = run := by
  rw [List.takeWhile_append_of_pos all]
  cases rest with
  | nil => simp
  | cons c rest => simp [stop c rfl]

theorem dropWhile_run (all : ∀ c ∈ run, p c = true) (stop : ∀ c ∈ rest.head?, p c = false) :
    (run ++ rest).dropWhile p = rest := by
  rw [List.dropWhile_append_of_pos all]
  cases rest with
  | nil => rfl
  | cons c rest => simp [stop c rfl]

theorem head_dropWhile (p : Char → Bool) (t : Text) : ∀ c ∈ (t.dropWhile p).head?, p c = false := by
  intro c member
  have stop := List.head?_dropWhile_not p t
  rw [Option.mem_def.mp member] at stop
  simpa using stop

end Runs

theorem numberPart_of_whole {whole rest : Text} (digits : ∀ c ∈ whole, c.isDigit = true)
    (stops : ∀ c ∈ rest.head?, c.isDigit = false ∧ c ≠ '.') :
    numberPart (whole ++ rest) = (whole, rest) := by
  have stop : ∀ c ∈ rest.head?, c.isDigit = false := fun c member => (stops c member).1
  have noPoint : fractionPart rest = ([], rest) := by
    unfold fractionPart
    split
    · exact absurd rfl (stops '.' rfl).2
    · rfl
  simp [numberPart, takeWhile_run digits stop, dropWhile_run digits stop, noPoint]

theorem numberPart_of_fraction {whole part rest : Text}
    (digits : ∀ c ∈ whole, c.isDigit = true) (places : ∀ c ∈ part, c.isDigit = true)
    (stops : ∀ c ∈ rest.head?, c.isDigit = false) :
    numberPart (whole ++ '.' :: part ++ rest) = (whole ++ '.' :: part, rest) := by
  have point : ∀ c ∈ ('.' :: (part ++ rest)).head?, c.isDigit = false := by simp
  rw [List.append_assoc, List.cons_append]
  simp [numberPart, takeWhile_run digits point, dropWhile_run digits point, fractionPart,
    takeWhile_run places stops, dropWhile_run places stops]

theorem numberPart_of_numeral {c : Char} {t rest : Text} (numeral : IsNumeral (c :: t))
    (stops : StopsBefore .number (c :: t) rest) :
    c.isDigit = true ∧ numberPart (t ++ rest) = (t, rest) := by
  have noDigit : ∀ d ∈ rest.head?, d.isDigit = false := fun d member =>
    ((stops d member).1 rfl).1
  obtain ⟨whole, part, nonempty, digits, places, same⟩ := numeral
  obtain ⟨d, whole, rfl⟩ := List.exists_cons_of_ne_nil nonempty
  have inner : ∀ e ∈ whole, e.isDigit = true := fun e member => digits e (by simp [member])
  rcases same with same | same
  · obtain ⟨rfl, rfl⟩ := List.cons.inj same
    have noPoint : '.' ∉ c :: t := fun member => absurd (digits '.' member) (by decide)
    have ends : ∀ e ∈ rest.head?, e.isDigit = false ∧ e ≠ '.' := fun e member =>
      ⟨noDigit e member, ((stops e member).1 rfl).2 noPoint⟩
    exact ⟨digits c (by simp), numberPart_of_whole inner ends⟩
  · obtain ⟨rfl, rfl⟩ := List.cons.inj same
    exact ⟨digits c (by simp), numberPart_of_fraction inner places noDigit⟩

theorem numberPart_isNumeral {c : Char} (digit : c.isDigit = true) (rest : Text) :
    IsNumeral (c :: (numberPart rest).1) ∧
      StopsBefore .number (c :: (numberPart rest).1) (numberPart rest).2 := by
  have digits : ∀ d ∈ c :: rest.takeWhile Char.isDigit, d.isDigit = true := by
    intro d member
    rcases List.mem_cons.mp member with rfl | inside
    · exact digit
    · exact List.mem_takeWhile_imp inside
  have ends := head_dropWhile Char.isDigit rest
  simp only [numberPart]
  unfold fractionPart
  split
  · next more same =>
    refine ⟨⟨_, _, List.cons_ne_nil _ _, digits, ?_, Or.inr rfl⟩, ?_⟩
    · intro d member
      exact List.mem_takeWhile_imp member
    · intro d member
      refine ⟨fun _ => ⟨head_dropWhile Char.isDigit more d member, ?_⟩, by simp⟩
      intro noPoint
      exact absurd (by simp) noPoint
  · next noPoint =>
    refine ⟨⟨_, [], List.cons_ne_nil _ _, digits, by simp, Or.inl (by simp)⟩, ?_⟩
    intro d member
    refine ⟨fun _ => ⟨ends d member, ?_⟩, by simp⟩
    rintro _ rfl
    obtain ⟨more, same⟩ := List.head?_eq_some_iff.mp member
    exact noPoint more same

theorem lexeme_isLexeme (c : Char) (rest : Text) :
    IsLexeme (lexeme c rest).1 (c :: (lexeme c rest).2.1) ∧
      StopsBefore (lexeme c rest).1 (c :: (lexeme c rest).2.1) (lexeme c rest).2.2 := by
  unfold lexeme
  split
  · next digit => exact numberPart_isNumeral digit rest
  · next digit =>
    split
    · next operator =>
      exact ⟨⟨c, (isOperator_iff c).mp operator, rfl⟩, by simp [StopsBefore, StopsAt]⟩
    · next operator =>
      split
      · next blank =>
        refine ⟨⟨List.cons_ne_nil _ _, ?_⟩, ?_⟩
        · intro d member
          rcases List.mem_cons.mp member with rfl | inside
          · exact blank
          · exact List.mem_takeWhile_imp inside
        · intro d member
          exact ⟨by simp, fun _ => head_dropWhile isBlank rest d member⟩
      · next blank =>
        have other : c ∉ "+-*/()".toList := fun member => operator ((isOperator_iff c).mpr member)
        exact ⟨⟨c, rfl, by simpa using digit, other, by simpa using blank⟩,
          by simp [StopsBefore, StopsAt]⟩

theorem lexeme_unique {kind : Kind} {c : Char} {t rest : Text}
    (isLexeme : IsLexeme kind (c :: t)) (stops : StopsBefore kind (c :: t) rest) :
    lexeme c (t ++ rest) = (kind, t, rest) := by
  cases kind with
  | number =>
    obtain ⟨digit, found⟩ := numberPart_of_numeral isLexeme stops
    simp [lexeme, digit, found]
  | operator =>
    obtain ⟨d, member, same⟩ := isLexeme
    obtain ⟨rfl, rfl⟩ := List.cons.inj same
    have operator := (isOperator_iff c).mpr member
    have digit : c.isDigit = false := Bool.eq_false_iff.mpr fun digit => by
      simp [not_operator_of_digit digit] at operator
    simp [lexeme, digit, operator]
  | blank =>
    obtain ⟨_, blanks⟩ := isLexeme
    have blank := blanks c (by simp)
    have digit : c.isDigit = false := Bool.eq_false_iff.mpr fun digit => by
      simp [not_blank_of_digit digit] at blank
    have operator : isOperator c = false := Bool.eq_false_iff.mpr fun operator => by
      simp [not_blank_of_operator operator] at blank
    have inner : ∀ d ∈ t, isBlank d = true := fun d member => blanks d (by simp [member])
    have ends : ∀ d ∈ rest.head?, isBlank d = false := fun d member => (stops d member).2 rfl
    simp [lexeme, digit, operator, blank, takeWhile_run inner ends, dropWhile_run inner ends]
  | unknown =>
    obtain ⟨d, same, digit, member, blank⟩ := isLexeme
    obtain ⟨rfl, rfl⟩ := List.cons.inj same
    have operator : isOperator c = false := Bool.eq_false_iff.mpr fun operator =>
      member ((isOperator_iff c).mp operator)
    simp [lexeme, digit, operator, blank]

end LineCalc
