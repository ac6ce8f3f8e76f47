import LineCalc.Command.Perform
import LineCalc.Proofs.Decimal.Numeral
import LineCalc.Proofs.Machine.Faults
import LineCalc.Proofs.Token.Tokenization

/-!
Which faults a text can have. Its tokens are lexemes, so the machine can read each one
that the rules let pass; and it runs on matching parentheses only. What is left are
operators without operands, refused divisors and a wrong number of values.
-/
namespace LineCalc

variable {rules : Rules} {text : Text} {t : Token} {e : CalcError}

theorem isLexeme_of_tokenize (member : t ∈ tokenize text) : IsLexeme t.kind t.text :=
  (tokens_tokenization (Scan.ofText text)).lexemes t member

theorem not_misread_of_isLexeme (isLexeme : IsLexeme t.kind t.text) (known : t.kind ≠ .unknown) :
    ¬ Misread t e := by
  intro misread
  cases misread with
  | unknown unknown => exact known unknown
  | number number unread =>
    rw [number] at isLexeme
    obtain ⟨value, read⟩ := Decimal.read_of_isNumeral isLexeme
    rw [unread] at read
    cases read
  | operator operator strange =>
    rw [operator] at isLexeme
    obtain ⟨c, member, same⟩ := isLexeme
    exact strange c member (by simp [Token.symbol?, operator, same])

namespace Rules

/-- The faults of a text, by the stage that reports them. -/
inductive TextFault (rules : Rules) (text : Text) : CalcError → Prop
  | refused {t : Token} (refused : rules.refused? (tokenize text) = some t) :
      TextFault rules text (.unknownCharacter t.text t.start)
  | unbalanced {t : Token} (passed : rules.refused? (tokenize text) = none)
      (member : t ∈ tokenize text) (parenthesis : t.opens = true ∨ t.closes = true)
      (unbalanced : Parens.balance (tokenize text) = .error (.unbalanced t.start)) :
      TextFault rules text (.unbalanced t.start)
  | count {n : Nat} (other : n ≠ 1) : TextFault rules text (.notOneValue n)
  | misapplied {t : Token} {e : CalcError} (member : t ∈ tokenize text)
      (misapplied : Misapplied rules.zeroDivision t e) : TextFault rules text e

theorem textFault_of_evaluate (failed : rules.evaluate text = .error e) :
    TextFault rules text e := by
  cases refused : rules.refused? (tokenize text) with
  | some t =>
    rw [evaluate, evaluateTokens_of_refused refused] at failed
    cases failed
    exact .refused refused
  | none =>
    rw [evaluate, evaluateTokens_of_passed refused] at failed
    rcases bind_error_iff.mp failed with checking | ⟨_, balanced, computing⟩
    · obtain ⟨t, member, parenthesis, rfl⟩ := Parens.balance_error checking
      exact .unbalanced refused member parenthesis checking
    · -- The machine runs on matching parentheses that it can read.
      have matching := balance_known (tokenize text)
      rw [balanced] at matching
      cases fault_of_evaluateRaw computing with
      | count other => exact .count other
      | misread member misread =>
        obtain ⟨inside, known⟩ := Token.mem_known.mp member
        exact absurd misread (not_misread_of_isLexeme (isLexeme_of_tokenize inside) known)
      | misapplied member misapplied =>
        exact .misapplied (Token.mem_known.mp member).1 misapplied
      | unopened unbalanced =>
        rw [matching] at unbalanced
        cases unbalanced
      | unclosed unbalanced =>
        rw [matching] at unbalanced
        cases unbalanced

theorem evaluate_eq_unknownCharacter_iff {c : Text} {p : Nat} :
    rules.evaluate text = .error (.unknownCharacter c p) ↔
      ∃ t, rules.refused? (tokenize text) = some t ∧ t.text = c ∧ t.start = p := by
  constructor
  · intro failed
    cases textFault_of_evaluate failed with
    | refused refused => exact ⟨_, refused, rfl, rfl⟩
    | misapplied member misapplied => cases misapplied
  · rintro ⟨t, refused, rfl, rfl⟩
    exact evaluateTokens_of_refused refused

theorem evaluate_eq_unbalanced_iff {p : Nat} :
    rules.evaluate text = .error (.unbalanced p) ↔
      rules.refused? (tokenize text) = none ∧
        Parens.balance (tokenize text) = .error (.unbalanced p) := by
  constructor
  · intro failed
    cases textFault_of_evaluate failed with
    | unbalanced passed member parenthesis unbalanced => exact ⟨passed, unbalanced⟩
    | misapplied member misapplied => cases misapplied
  · rintro ⟨passed, unbalanced⟩
    rw [evaluate, evaluateTokens_of_passed passed, unbalanced]
    rfl

theorem check_failure_iff {p : Nat} :
    (Command.check text).failure? = some (.parentheses (.unbalanced p)) ↔
      Parens.balance (tokenize text) = .error (.unbalanced p) := by
  cases balanced : Parens.balance (tokenize text) with
  | ok done => simp only [Command.check, balanced, reduceCtorEq]
  | error cause =>
    simp only [Command.check, balanced, Option.some.injEq, Command.Failure.parentheses.injEq,
      Except.error.injEq]

/-- The faults of a text by the stage that reports them. A text is refused for its first unknown
    character, then for its parentheses, where the check sees what a check of the whole text
    sees; what is left the machine can read and apply. -/
theorem evaluate_faults_by_stage (rules : Rules) (text : Text) :
    (∀ t ∈ tokenize text, t.kind = .number → ∃ value, Decimal.read? t.text = some value) ∧
    (∀ c, rules.evaluate text ≠ .error (.notAnOperator c)) ∧
    (∀ literal p, rules.evaluate text ≠ .error (.badNumber literal p)) ∧
    (∀ c p, rules.evaluate text = .error (.unknownCharacter c p) ↔
      rules.unknowns = .strict ∧ ∃ t, (tokenize text).find? (fun t => t.kind = .unknown) = some t ∧
        t.text = c ∧ t.start = p) ∧
    (∀ p, rules.evaluate text = .error (.unbalanced p) ↔
      (rules.unknowns = .strict → ∀ t ∈ tokenize text, t.kind ≠ .unknown) ∧
        Parens.balance (tokenize text) = .error (.unbalanced p)) ∧
    ∀ p, (Command.check text).failure? = some (.parentheses (.unbalanced p)) ↔
      Parens.balance (tokenize text) = .error (.unbalanced p) := by
  refine ⟨?_, ?_, ?_, ?_, ?_, ?_⟩
  · intro t member number
    have isLexeme := isLexeme_of_tokenize member
    rw [number] at isLexeme
    exact Decimal.read_of_isNumeral isLexeme
  · intro c failed
    cases textFault_of_evaluate failed with
    | misapplied member misapplied => cases misapplied
  · intro literal p failed
    cases textFault_of_evaluate failed with
    | misapplied member misapplied => cases misapplied
  · intro c p
    rw [evaluate_eq_unknownCharacter_iff]
    simp only [refused_eq_some_iff, and_assoc, exists_and_left]
  · intro p
    rw [evaluate_eq_unbalanced_iff, refused_eq_none_iff]
  · intro p
    exact check_failure_iff

theorem evaluate_faults_by_stage_hidden :
    (Rules.mk .strict .ieee).evaluate "1.5é(".toList = .error (.unknownCharacter ['é'] 3) ∧
      (Rules.mk .lenient .ieee).evaluate "1.5é(".toList = .error (.unbalanced 5) ∧
      ∃ value, Decimal.read? "1.5".toList = some value := by
  have cut : tokenize "1.5é(".toList =
      [⟨"1.5".toList, .number, 0⟩, ⟨['é'], .unknown, 3⟩, ⟨['('], .operator, 5⟩] :=
    (tokenize_eq_steps _).trans rfl
  obtain ⟨_, _, _, strict, _⟩ := evaluate_faults_by_stage ⟨.strict, .ieee⟩ "1.5é(".toList
  obtain ⟨numbers, _, _, _, lenient, _⟩ :=
    evaluate_faults_by_stage ⟨.lenient, .ieee⟩ "1.5é(".toList
  rw [cut] at numbers strict lenient
  refine ⟨?_, ?_, ?_⟩
  · exact (strict ['é'] 3).mpr ⟨rfl, _, rfl, rfl, rfl⟩
  · exact (lenient 5).mpr ⟨by simp, rfl⟩
  · exact numbers ⟨"1.5".toList, .number, 0⟩ (by simp) rfl

end Rules
end LineCalc
