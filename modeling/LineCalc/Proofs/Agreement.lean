import LineCalc.Proofs.Machine.Groups

/-!
Evaluation with and without the check. The machine by itself finds every fault that the
rules and the check of the parentheses look for, though it may call it by another
name, so the two ways to evaluate tokens accept the same lists.
-/
namespace LineCalc.Rules

variable {rules : Rules} {ts : List Token} {value : Float}

theorem evaluateTokens_ok_iff_of_passed (passed : rules.refused? ts = none) :
    rules.evaluateTokens ts = .ok value ↔ rules.evaluateRaw (Token.known ts) = .ok value := by
  rw [evaluateTokens_of_passed passed, bind_ok_iff]
  constructor
  · rintro ⟨_, _, evaluated⟩
    exact evaluated
  · intro evaluated
    have balanced := balance_of_evaluateRaw evaluated
    rw [balance_known] at balanced
    exact ⟨(), balanced, evaluated⟩

theorem passed_of_evaluateTokens (evaluated : rules.evaluateTokens ts = .ok value) :
    rules.refused? ts = none := by
  cases refused : rules.refused? ts with
  | none => rfl
  | some t =>
    rw [evaluateTokens_of_refused refused] at evaluated
    cases evaluated

theorem evaluateTokens_ok_iff_of_strict (strict : rules.unknowns = .strict) :
    rules.evaluateTokens ts = .ok value ↔ rules.evaluateRaw ts = .ok value := by
  constructor
  · intro evaluated
    have passed := passed_of_evaluateTokens evaluated
    have raw := (evaluateTokens_ok_iff_of_passed passed).mp evaluated
    rwa [Token.known_eq_self (refused_eq_none_iff.mp passed strict)] at raw
  · intro evaluated
    have known := known_of_evaluateRaw evaluated
    rw [evaluateTokens_ok_iff_of_passed (refused_of_known rules known),
      Token.known_eq_self known]
    exact evaluated

theorem evaluateTokens_of_balance (known : ∀ t ∈ ts, t.kind ≠ .unknown)
    (balanced : Parens.balance ts = .ok ()) : rules.evaluateTokens ts = rules.evaluateRaw ts := by
  rw [evaluateTokens_of_passed (refused_of_known rules known), balanced,
    Token.known_eq_self known]
  rfl

theorem evaluateRaw_error_of_balance {cause : CalcError}
    (unbalanced : Parens.balance ts = .error cause) : ∃ e, rules.evaluateRaw ts = .error e := by
  cases evaluated : rules.evaluateRaw ts with
  | error e => exact ⟨e, rfl⟩
  | ok value =>
    rw [balance_of_evaluateRaw evaluated] at unbalanced
    cases unbalanced

/-- A strict reading accepts just what the machine accepts, a lenient one what the machine
    accepts without the unknown characters. Where parentheses match, they agree on every
    fault. -/
theorem evaluateRaw_agrees_with_evaluateTokens (rules : Rules) (ts : List Token) :
    (rules.unknowns = .strict →
      ∀ value, rules.evaluateRaw ts = .ok value ↔ rules.evaluateTokens ts = .ok value) ∧
    ((∀ t ∈ ts, t.kind ≠ .unknown) →
      (Parens.balance ts = .ok () → rules.evaluateRaw ts = rules.evaluateTokens ts) ∧
      ∀ cause, Parens.balance ts = .error cause →
        rules.evaluateTokens ts = .error cause ∧ ∃ e, rules.evaluateRaw ts = .error e) ∧
    (rules.unknowns = .lenient → ∀ value,
      rules.evaluateTokens ts = .ok value ↔ rules.evaluateRaw (Token.known ts) = .ok value) := by
  refine ⟨?_, ?_, ?_⟩
  · intro strict value
    exact (evaluateTokens_ok_iff_of_strict strict).symm
  · intro known
    refine ⟨fun balanced => (evaluateTokens_of_balance known balanced).symm, ?_⟩
    intro cause unbalanced
    refine ⟨?_, evaluateRaw_error_of_balance unbalanced⟩
    rw [evaluateTokens_of_passed (refused_of_known rules known), unbalanced]
    rfl
  · intro lenient value
    exact evaluateTokens_ok_iff_of_passed (refused_of_lenient lenient ts)

theorem evaluateRaw_agrees_with_evaluateTokens_handmade :
    ((Rules.mk .strict .reject).evaluateRaw
        [⟨['('], .operator, 0⟩, ⟨['2'], .number, 1⟩, ⟨[], .operator, 2⟩, ⟨[')'], .operator, 2⟩] =
      (Rules.mk .strict .reject).evaluateTokens
        [⟨['('], .operator, 0⟩, ⟨['2'], .number, 1⟩, ⟨[], .operator, 2⟩,
          ⟨[')'], .operator, 2⟩]) ∧
      (∃ e, (Rules.mk .strict .ieee).evaluateRaw
        [⟨['('], .operator, 0⟩, ⟨['2'], .number, 1⟩] = .error e) ∧
      (Rules.mk .strict .ieee).evaluateTokens [⟨['2'], .number, 0⟩, ⟨[' '], .blank, 1⟩] =
        .ok 2 ∧
      (Rules.mk .lenient .ieee).evaluateTokens
        [⟨['2'], .number, 0⟩, ⟨['-'], .operator, 1⟩, ⟨['x'], .unknown, 2⟩,
          ⟨['5'], .number, 3⟩] = .ok (-3) := by
  refine ⟨?_, ?_, ?_, ?_⟩
  · exact ((evaluateRaw_agrees_with_evaluateTokens _ _).2.1 (by decide)).1 rfl
  · exact (((evaluateRaw_agrees_with_evaluateTokens _ _).2.1 (by decide)).2
      (.unbalanced 0) rfl).2
  · exact ((evaluateRaw_agrees_with_evaluateTokens _ _).1 rfl 2).mp rfl
  · exact ((evaluateRaw_agrees_with_evaluateTokens _ _).2.2 rfl (-3)).mpr rfl

end LineCalc.Rules
