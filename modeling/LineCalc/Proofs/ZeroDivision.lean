import LineCalc.Proofs.Machine.Relocation
import LineCalc.Proofs.Positions

/-!
The two rules for zero divisors. A refused divisor is the only thing that tells an
evaluation which refuses them from one that does not: all other values and faults are the
same, and the refusal is reported at a division.
-/
namespace LineCalc

variable {rules : Rules} {ts : List Token} {p : Nat}

/-- What may differ between the results under the two rules. -/
structure DiffersByDivisors (ts : List Token) (rejecting ieee : Except CalcError Float) :
    Prop where
  same : (∀ p, rejecting ≠ .error (.zeroDivisor p)) → ieee = rejecting
  allowed : ∀ p, ieee ≠ .error (.zeroDivisor p)
  place : ∀ p, rejecting = .error (.zeroDivisor p) →
    ∃ t ∈ ts, t.symbol? = some '/' ∧ t.start = p

theorem allows_ieee : ZeroDivision.reject.Allows .ieee := Or.inr ⟨rfl, rfl⟩

theorem eq_of_follows {rejecting ieee : Except CalcError Float}
    (follows : Follows .reject .ieee id id rejecting ieee)
    (other : ∀ p, rejecting ≠ .error (.zeroDivisor p)) : ieee = rejecting := by
  cases follows with
  | value value => rfl
  | fault e => cases e <;> rfl
  | refused rejects allows => exact absurd rfl (other _)

namespace Rules

theorem division_of_evaluateRaw (failed : rules.evaluateRaw ts = .error (.zeroDivisor p)) :
    rules.zeroDivision = .reject ∧ ∃ t ∈ ts, t.symbol? = some '/' ∧ t.start = p := by
  cases fault_of_evaluateRaw failed with
  | misread member misread => cases misread
  | @misapplied t e member misapplied =>
    cases misapplied with
    | divisor reject symbol => exact ⟨reject, t, member, symbol, rfl⟩

theorem division_of_evaluateTokens
    (failed : rules.evaluateTokens ts = .error (.zeroDivisor p)) :
    rules.zeroDivision = .reject ∧ ∃ t ∈ ts, t.symbol? = some '/' ∧ t.start = p := by
  cases refused : rules.refused? ts with
  | some t =>
    rw [evaluateTokens_of_refused refused] at failed
    cases failed
  | none =>
    rw [evaluateTokens_of_passed refused] at failed
    rcases bind_error_iff.mp failed with checking | ⟨_, _, computing⟩
    · obtain ⟨t, _, _, same⟩ := Parens.balance_error checking
      cases same
    · obtain ⟨reject, t, member, division⟩ := division_of_evaluateRaw computing
      exact ⟨reject, t, (Token.mem_known.mp member).1, division⟩

theorem evaluateRaw_differs (unknowns : Unknowns) (ts : List Token) :
    DiffersByDivisors ts ((Rules.mk unknowns .reject).evaluateRaw ts)
      ((Rules.mk unknowns .ieee).evaluateRaw ts) := by
  have follows := evaluateRaw_follows allows_ieee id unknowns ts
  rw [relocate_id] at follows
  refine ⟨eq_of_follows follows, ?_, ?_⟩
  · intro p failed
    cases (division_of_evaluateRaw failed).1
  · intro p failed
    exact (division_of_evaluateRaw failed).2

theorem evaluateTokens_differs (unknowns : Unknowns) (ts : List Token) :
    DiffersByDivisors ts ((Rules.mk unknowns .reject).evaluateTokens ts)
      ((Rules.mk unknowns .ieee).evaluateTokens ts) := by
  have follows := evaluateTokens_follows allows_ieee id unknowns ts
  rw [relocate_id] at follows
  refine ⟨eq_of_follows follows, ?_, ?_⟩
  · intro p failed
    cases (division_of_evaluateTokens failed).1
  · intro p failed
    exact (division_of_evaluateTokens failed).2

/-- The rule for zero divisors decides about zero divisors only, however the tokens are
    evaluated and whether or not they form an expression. -/
theorem zeroDivision_decides_divisors_only (unknowns : Unknowns) :
    (∀ ts, DiffersByDivisors ts ((Rules.mk unknowns .reject).evaluateRaw ts)
      ((Rules.mk unknowns .ieee).evaluateRaw ts)) ∧
    (∀ ts, DiffersByDivisors ts ((Rules.mk unknowns .reject).evaluateTokens ts)
      ((Rules.mk unknowns .ieee).evaluateTokens ts)) ∧
    ∀ text, DiffersByDivisors (tokenize text) ((Rules.mk unknowns .reject).evaluate text)
        ((Rules.mk unknowns .ieee).evaluate text) ∧
      ∀ p, (Rules.mk unknowns .reject).evaluate text = .error (.zeroDivisor p) →
        ∃ t ∈ tokenize text, t.kind = .operator ∧ t.text = ['/'] ∧ t.start = p := by
  refine ⟨evaluateRaw_differs unknowns, evaluateTokens_differs unknowns, ?_⟩
  intro text
  refine ⟨evaluateTokens_differs unknowns (tokenize text), ?_⟩
  intro p failed
  obtain ⟨_, t, member, symbol, start⟩ := division_of_evaluateTokens failed
  obtain ⟨operator, division⟩ := text_of_symbol (isLexeme_of_tokenize member) symbol
  exact ⟨t, member, operator, division, start⟩

theorem zeroDivision_decides_divisors_only_unfinished :
    (Rules.mk .strict .reject).evaluate "8/0+".toList = .error (.zeroDivisor 1) ∧
      (Rules.mk .strict .ieee).evaluate "8/0+".toList = .error (.missingOperand '+' 3) ∧
      (∃ t ∈ tokenize "8/0+".toList, t.kind = .operator ∧ t.text = ['/'] ∧ t.start = 1) ∧
      (Rules.mk .lenient .ieee).evaluate "2x-".toList =
        (Rules.mk .lenient .reject).evaluate "2x-".toList := by
  have cut : tokenize "8/0+".toList =
      [⟨['8'], .number, 0⟩, ⟨['/'], .operator, 1⟩, ⟨['0'], .number, 2⟩, ⟨['+'], .operator, 3⟩] :=
    (tokenize_eq_steps _).trans rfl
  have cut' : tokenize "2x-".toList =
      [⟨['2'], .number, 0⟩, ⟨['x'], .unknown, 1⟩, ⟨['-'], .operator, 2⟩] :=
    (tokenize_eq_steps _).trans rfl
  have refused : (Rules.mk .strict .reject).evaluate "8/0+".toList = .error (.zeroDivisor 1) := by
    rw [evaluate, cut]
    rfl
  have unfinished : (Rules.mk .lenient .reject).evaluate "2x-".toList =
      .error (.missingOperand '-' 2) := by
    rw [evaluate, cut']
    rfl
  refine ⟨refused, ?_, ?_, ?_⟩
  · rw [evaluate, cut]
    rfl
  · exact ((zeroDivision_decides_divisors_only .strict).2.2 _).2 1 refused
  · refine ((zeroDivision_decides_divisors_only .lenient).2.2 _).1.same ?_
    intro p
    rw [unfinished]
    simp

end Rules
end LineCalc
