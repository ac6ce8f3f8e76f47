import LineCalc.Proofs.Machine.Blame
import LineCalc.Proofs.Spacing
import Mathlib.Data.List.Nodup

/-!
Missing operands of texts. The operator that a text is refused for lacks an operand itself, or
one is missing further behind it in its group, or it stands behind a group without a value.
-/
namespace LineCalc.Rules

variable {rules : Rules} {ts kept : List Token} {c : Char} {p : Nat}

theorem keep_sublist (keeps : rules.keep ts = .ok kept) : kept.Sublist ts := by
  rw [keep_eq] at keeps
  split at keeps
  · cases keeps
  · cases keeps
    exact List.filter_sublist

theorem evaluateRaw_of_missing (failed : rules.evaluateTokens ts = .error (.missingOperand c p)) :
    ∃ kept, rules.keep ts = .ok kept ∧
      rules.evaluateRaw kept = .error (.missingOperand c p) := by
  cases refused : rules.refused? ts with
  | some t =>
    rw [evaluateTokens_of_refused refused] at failed
    cases failed
  | none =>
    have keeps := rules.keep_eq ts
    rw [refused] at keeps
    refine ⟨_, keeps, ?_⟩
    rw [evaluateTokens, keeps] at failed
    dsimp only at failed
    cases balanced : Parens.balance (Token.counted ts) with
    | ok done => rwa [balanced] at failed
    | error e =>
      obtain ⟨t, _, _, rfl⟩ := Parens.balance_error balanced
      rw [balanced] at failed
      cases failed

/-- An operand that is reported as missing is missing at the operator that is named, or further
    behind it in its group, or before it, where it stands behind a group and no number has come
    yet. So the operator is the right one wherever no other operand is missing. -/
theorem missing_operand_blamed (rules : Rules) (text : Text) (c : Char) (p : Nat)
    (failed : rules.evaluate text = .error (.missingOperand c p)) :
    ∃ kept before t after, rules.keep (tokenize text) = .ok kept ∧
      kept = before ++ t :: after ∧ t.start = p ∧ t.symbol? = some c ∧ c ∈ "+-*/".toList ∧
      (∀ u ∈ kept, u.start = p → u = t) ∧ Blamed before t after ∧
      ((∀ l r, kept = l ++ r → Gap l r → l = before ∨ l = before ++ [t]) →
        LacksOperand before t after) := by
  obtain ⟨kept, keeps, computed⟩ := evaluateRaw_of_missing failed
  have solid : ∀ t ∈ kept, t.kind ≠ .blank := fun t member => (counts_of_keep keeps t member).1
  obtain ⟨before, t, after, rfl, place, symbol, arithmetic, blamed⟩ :=
    blamed_of_evaluateRaw solid computed
  have distinct : ((before ++ t :: after).map Token.start).Nodup :=
    (starts_nodup (tokens_tokenization (Scan.ofText text))).sublist
      ((keep_sublist keeps).map Token.start)
  refine ⟨_, before, t, after, keeps, rfl, place, symbol, arithmetic, ?_, blamed,
    lacksOperand_of_blamed blamed⟩
  intro u member same
  exact List.inj_on_of_nodup_map distinct member (by simp) (same.trans place.symm)

theorem missing_operand_blamed_outside :
    (Rules.mk .strict .ieee).evaluate "4 /(1-)".toList = .error (.missingOperand '/' 2) ∧
      ∃ kept before t after,
        (Rules.mk .strict .ieee).keep (tokenize "4 /(1-)".toList) = .ok kept ∧
          kept = before ++ t :: after ∧ t.start = 2 ∧ Blamed before t after := by
  have cut : tokenize "4 /(1-)".toList =
      [⟨['4'], .number, 0⟩, ⟨[' '], .blank, 1⟩, ⟨['/'], .operator, 2⟩, ⟨['('], .operator, 3⟩,
        ⟨['1'], .number, 4⟩, ⟨['-'], .operator, 5⟩, ⟨[')'], .operator, 6⟩] :=
    (tokenize_eq_steps _).trans rfl
  have failed : (Rules.mk .strict .ieee).evaluate "4 /(1-)".toList =
      .error (.missingOperand '/' 2) := by
    rw [evaluate, cut]
    rfl
  obtain ⟨kept, before, t, after, keeps, split, place, _, _, _, blamed, _⟩ :=
    missing_operand_blamed ⟨.strict, .ieee⟩ _ _ _ failed
  exact ⟨failed, kept, before, t, after, keeps, split, place, blamed⟩

/-- The sum stands between two numbers and is blamed for the product behind it. -/
theorem missing_operand_elsewhere :
    (Rules.mk .strict .ieee).evaluate "1 + 2 *".toList = .error (.missingOperand '+' 2) ∧
      ∀ kept before t after,
        (Rules.mk .strict .ieee).keep (tokenize "1 + 2 *".toList) = .ok kept →
          kept = before ++ t :: after → t.start = 2 → ¬ LacksOperand before t after := by
  have cut : tokenize "1 + 2 *".toList =
      [⟨['1'], .number, 0⟩, ⟨[' '], .blank, 1⟩, ⟨['+'], .operator, 2⟩, ⟨[' '], .blank, 3⟩,
        ⟨['2'], .number, 4⟩, ⟨[' '], .blank, 5⟩, ⟨['*'], .operator, 6⟩] :=
    (tokenize_eq_steps _).trans rfl
  constructor
  · rw [evaluate, cut]
    rfl
  · intro kept before t after keeps split place
    rw [cut] at keeps
    obtain rfl : [⟨['1'], .number, 0⟩, ⟨['+'], .operator, 2⟩, ⟨['2'], .number, 4⟩,
        ⟨['*'], .operator, 6⟩] = kept := Except.ok.inj keeps
    -- Only one of the four tokens starts at this place.
    rcases before with _ | ⟨first, _ | ⟨second, _ | ⟨third, _ | ⟨fourth, more⟩⟩⟩⟩
    · cases split
      cases place
    · cases split
      decide
    · cases split
      cases place
    · cases split
      cases place
    · simp at split

end LineCalc.Rules
