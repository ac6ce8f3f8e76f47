import LineCalc.Proofs.Machine.Acceptance
import LineCalc.Proofs.ZeroDivision

/-!
The form of a text and its divisors. A text is well formed if it has a value once all its
divisions are multiplications. Where zero divisors are allowed these are the texts with a value, and
all others have a fault of their form. A divisor is refused as soon as its division is applied, when
other operators wait and more text may follow, so a refusal says nothing about the form.
-/
namespace LineCalc

def undividedSign (c : Char) : Char := if c = '/' then '*' else c

def Text.undivided (text : Text) : Text := text.map undividedSign

def Token.undivided (t : Token) : Token := { t with text := t.text.undivided }

def Operator.undivided : Operator → Operator
  | .divide => .multiply
  | op => op

def Reading.undividing : Reading where
  move := id
  operator := Operator.undivided
  level := by
    intro op
    cases op <;> rfl
  minus := by
    intro op
    cases op <;> decide

variable {policy policy' : ZeroDivision} {rules : Rules} {text : Text} {t : Token} {e : CalcError}

section Texts

theorem apply_undividedSign {α : Type} (f : Char → α) (same : f '*' = f '/') (c : Char) :
    f (undividedSign c) = f c := by
  unfold undividedSign
  split
  · next division => rw [division, same]
  · rfl

theorem undividedSign_eq_iff {c d : Char} (other : d ≠ '*' ∧ d ≠ '/') :
    undividedSign c = d ↔ c = d := by
  unfold undividedSign
  split
  · next division => simp [division, Ne.symm other.1, Ne.symm other.2]
  · rfl

theorem size_undivided (text : Text) : text.undivided.size = text.size := by
  induction text with
  | nil => rfl
  | cons c text ih =>
    have width := apply_undividedSign Char.utf8Size rfl c
    rw [Text.undivided] at ih ⊢
    rw [List.map_cons, Text.size_cons, Text.size_cons, width, ih]

theorem undivided_of_not_mem (none : '/' ∉ text) : text.undivided = text := by
  have same : ∀ c ∈ text, undividedSign c = id c := by
    intro c member
    refine if_neg ?_
    rintro rfl
    exact none member
  rw [Text.undivided, List.map_congr_left same, List.map_id]

theorem not_mem_of_isLexeme {kind : Kind} (isLexeme : IsLexeme kind text)
    (other : kind ≠ .operator) : '/' ∉ text := by
  intro member
  cases kind with
  | operator => exact other rfl
  | number =>
    obtain ⟨whole, part, _, digits, places, rfl | rfl⟩ := isLexeme
    · cases digits '/' member
    · rcases List.mem_append.mp member with front | behind
      · cases digits '/' front
      · cases places '/' (List.mem_of_ne_of_mem (by decide) behind)
  | blank => cases isLexeme.2 '/' member
  | unknown =>
    obtain ⟨c, rfl, _, strange, _⟩ := isLexeme
    rw [← List.mem_singleton.mp member] at strange
    exact strange (by simp)

theorem isLexeme_undivided {kind : Kind} (isLexeme : IsLexeme kind text) :
    IsLexeme kind text.undivided := by
  by_cases operator : kind = .operator
  · obtain rfl := operator
    obtain ⟨c, member, rfl⟩ := isLexeme
    refine ⟨undividedSign c, ?_, rfl⟩
    rw [← isOperator_iff] at member ⊢
    rwa [apply_undividedSign isOperator rfl]
  · rw [undivided_of_not_mem (not_mem_of_isLexeme isLexeme operator)]
    exact isLexeme

theorem stopsBefore_undivided {kind : Kind} {rest : Text} (stops : StopsBefore kind text rest) :
    StopsBefore kind text.undivided rest.undivided := by
  intro d member
  obtain ⟨c, inside, rfl⟩ : ∃ c, c ∈ rest.head? ∧ undividedSign c = d := by
    simpa [Text.undivided] using member
  obtain ⟨number, blank⟩ := stops c inside
  constructor
  · intro kind
    obtain ⟨digit, point⟩ := number kind
    rw [apply_undividedSign Char.isDigit rfl, Ne, undividedSign_eq_iff (by decide)]
    refine ⟨digit, fun pointless => point fun inner => pointless ?_⟩
    exact List.mem_map_of_mem (f := undividedSign) inner
  · intro kind
    rw [apply_undividedSign isBlank rfl]
    exact blank kind

theorem tokenization_undivided {start : Nat} {ts : List Token}
    (cut : Tokenization start text ts) :
    Tokenization start text.undivided (ts.map Token.undivided) := by
  induction ts generalizing start text with
  | nil =>
    obtain rfl := (tokenization_nil _ _).mp cut
    exact (tokenization_nil _ _).mpr rfl
  | cons t ts ih =>
    obtain ⟨begins, isLexeme, rest, rfl, stops, later⟩ := (tokenization_cons _ _ t ts).mp cut
    have stop : t.undivided.stop = t.stop := congrArg (t.start + ·) (size_undivided t.text)
    rw [List.map_cons, tokenization_cons, stop]
    exact ⟨begins, isLexeme_undivided isLexeme, rest.undivided, List.map_append,
      stopsBefore_undivided stops, ih later⟩

theorem sign_undividing (c : Char) : Reading.undividing.sign c = undividedSign c := by
  cases found : Operator.ofSymbol? c with
  | some op =>
    obtain rfl := Operator.ofSymbol?_eq_some_iff.mp found
    rw [sign_symbol]
    cases op <;> rfl
  | none =>
    rw [sign_other found]
    refine (if_neg ?_).symm
    rintro rfl
    cases found

theorem token_undividing (isLexeme : IsLexeme t.kind t.text) :
    Reading.undividing.token t = t.undivided := by
  have signs : Reading.undividing.sign = undividedSign := funext sign_undividing
  rw [Reading.token, signs]
  by_cases operator : t.kind = .operator
  · rw [if_pos operator]
    rfl
  · rw [if_neg operator, Token.undivided,
      undivided_of_not_mem (not_mem_of_isLexeme isLexeme operator)]
    rfl

theorem tokenize_undivided (text : Text) :
    tokenize text.undivided = (tokenize text).map Reading.undividing.token := by
  have cut := tokenization_undivided (tokens_tokenization (Scan.ofText text))
  have same : ∀ t ∈ tokenize text, Reading.undividing.token t = t.undivided := fun t member =>
    token_undividing (isLexeme_of_tokenize member)
  rw [List.map_congr_left same]
  exact tokens_of_tokenization (s := Scan.ofText text.undivided) cut

end Texts

theorem respects_undividing :
    Reading.undividing.Respects policy policy' (policy = .reject) fun _ _ => True where
  number := fun _ => trivial
  negation := fun _ => trivial
  operator := by
    intro op start left right left' right' _ _
    cases op with
    | add | subtract | multiply => exact .value trivial
    | divide =>
      simp only [Operator.apply]
      split
      · next zero => exact .refused zero.1
      · exact .value trivial

/-- The text has a value once its divisions are multiplications. -/
def WellFormed (unknowns : Unknowns) (text : Text) : Prop :=
  ∀ policy, ∃ value, (Rules.mk unknowns policy).evaluate text.undivided = .ok value

/-- The result is a fault of the form of the text. -/
def IsFormFault (result : Except CalcError Float) : Prop :=
  ∃ e, result = .error e ∧ e.isSyntax = true

theorem value_iff_of_lockstep {r : Reading} {refuses : Prop}
    {first second : Except CalcError Float}
    (lockstep : Lockstep r refuses (fun _ _ => True) first second)
    (allowed : ∀ p, first ≠ .error (.zeroDivisor p)) :
    (∃ value, first = .ok value) ↔ ∃ value, second = .ok value := by
  cases lockstep with
  | value => simp
  | fault e => simp
  | refused refused => exact absurd rfl (allowed _)

namespace Rules

theorem evaluate_undivided (unknowns : Unknowns) (text : Text) :
    Lockstep Reading.undividing (policy = .reject) (fun _ _ => True)
      ((Rules.mk unknowns policy).evaluate text)
      ((Rules.mk unknowns policy').evaluate text.undivided) := by
  rw [evaluate, evaluate, tokenize_undivided]
  exact evaluateTokens_lockstep respects_undividing unknowns (tokenize text)

theorem value_iff_wellFormed {unknowns : Unknowns}
    (allowed : ∀ p, (Rules.mk unknowns policy).evaluate text ≠ .error (.zeroDivisor p)) :
    (∃ value, (Rules.mk unknowns policy).evaluate text = .ok value) ↔
      WellFormed unknowns text := by
  constructor
  · intro accepted policy'
    exact (value_iff_of_lockstep (evaluate_undivided unknowns text) allowed).mp accepted
  · intro formed
    exact (value_iff_of_lockstep (evaluate_undivided unknowns text) allowed).mpr (formed policy)

theorem allowed_ieee (unknowns : Unknowns) (text : Text) (p : Nat) :
    (Rules.mk unknowns .ieee).evaluate text ≠ .error (.zeroDivisor p) := by
  intro failed
  cases (division_of_evaluateTokens failed).1

theorem isSyntax_of_evaluate (failed : rules.evaluate text = .error e) :
    e.isSyntax = true ∨ ∃ p, e = .zeroDivisor p := by
  cases textFault_of_evaluate failed with
  | refused | unbalanced | count => exact Or.inl rfl
  | misapplied member misapplied =>
    cases misapplied with
    | operand => exact Or.inl rfl
    | divisor => exact Or.inr ⟨_, rfl⟩

theorem isFormFault_iff :
    IsFormFault (rules.evaluate text) ↔
      (¬ ∃ value, rules.evaluate text = .ok value) ∧
        ∀ p, rules.evaluate text ≠ .error (.zeroDivisor p) := by
  cases evaluated : rules.evaluate text with
  | ok value => simp [IsFormFault]
  | error e =>
    constructor
    · rintro ⟨_, same, form⟩
      cases same
      refine ⟨by simp, ?_⟩
      rintro p same
      cases same
      cases form
    · rintro ⟨_, allowed⟩
      rcases isSyntax_of_evaluate evaluated with form | ⟨p, rfl⟩
      · exact ⟨e, rfl, form⟩
      · exact absurd rfl (allowed p)

theorem operands_of_refusal {unknowns : Unknowns} {p : Nat}
    (refusal : (Rules.mk unknowns .reject).evaluate text = .error (.zeroDivisor p))
    (failed : (Rules.mk unknowns .ieee).evaluate text = .error e) :
    (∃ c q, e = .missingOperand c q) ∨ ∃ n, e = .notOneValue n := by
  cases textFault_of_evaluate failed with
  | refused refused =>
    have same : (Rules.mk unknowns .reject).refused? (tokenize text) = some _ := refused
    rw [evaluate_eq_unknownCharacter_iff.mpr ⟨_, same, rfl, rfl⟩] at refusal
    cases refusal
  | unbalanced passed member parenthesis unbalanced =>
    have same : (Rules.mk unknowns .reject).refused? (tokenize text) = none := passed
    rw [evaluate_eq_unbalanced_iff.mpr ⟨same, unbalanced⟩] at refusal
    cases refusal
  | count => exact Or.inr ⟨_, rfl⟩
  | misapplied member misapplied =>
    cases misapplied with
    | operand => exact Or.inl ⟨_, _, rfl⟩
    | divisor reject => cases reject

theorem wellFormed_iff_isExpression {unknowns : Unknowns} {kept : List Token}
    (keeps : (Rules.mk unknowns .ieee).keep (tokenize text) = .ok kept)
    (apart : kept.IsChain Apart) : WellFormed unknowns text ↔ IsExpression kept := by
  rw [← value_iff_wellFormed (allowed_ieee unknowns text)]
  constructor
  · rintro ⟨value, accepted⟩
    obtain ⟨kept', keeps', _, evaluated⟩ := stages_of_evaluateTokens accepted
    obtain rfl := Except.ok.inj (keeps.symm.trans keeps')
    exact isExpression_of_evaluateRaw evaluated
      (fun t member => (counts_of_keep keeps t member).1) apart
  · rintro ⟨f, derives⟩
    refine ⟨f.ieee, ?_⟩
    rw [evaluate, evaluateTokens, keeps]
    simp only [balance_derives derives, evaluateRaw_derives _ derives]
    exact f.value_ieee

/-- Without refusals a text has a value if it is well formed, and a fault of its form if not. With
    them it has that fault only if no divisor is refused before it is found, and what a refusal
    hides is a missing operand or a wrong number of values. -/
theorem refusal_hides_form (unknowns : Unknowns) (text : Text) :
    ((∃ value, (Rules.mk unknowns .ieee).evaluate text = .ok value) ↔
      WellFormed unknowns text) ∧
    (IsFormFault ((Rules.mk unknowns .ieee).evaluate text) ↔ ¬ WellFormed unknowns text) ∧
    (IsFormFault ((Rules.mk unknowns .reject).evaluate text) ↔
      ¬ WellFormed unknowns text ∧
        ∀ p, (Rules.mk unknowns .reject).evaluate text ≠ .error (.zeroDivisor p)) ∧
    (∀ p e, (Rules.mk unknowns .reject).evaluate text = .error (.zeroDivisor p) →
      (Rules.mk unknowns .ieee).evaluate text = .error e →
        (∃ c q, e = .missingOperand c q) ∨ ∃ n, e = .notOneValue n) ∧
    ∀ kept, (Rules.mk unknowns .ieee).keep (tokenize text) = .ok kept → kept.IsChain Apart →
      (WellFormed unknowns text ↔ IsExpression kept) := by
  have accepted := value_iff_wellFormed (allowed_ieee unknowns text)
  refine ⟨accepted, ?_, ?_, ?_, ?_⟩
  · rw [isFormFault_iff, accepted]
    exact and_iff_left (allowed_ieee unknowns text)
  · rw [isFormFault_iff]
    exact and_congr_left fun allowed => not_congr (value_iff_wellFormed allowed)
  · intro p e refusal failed
    exact operands_of_refusal refusal failed
  · intro kept keeps apart
    exact wellFormed_iff_isExpression keeps apart

/-- A plus without a left operand is applied behind the division, so it stays unnoticed. -/
theorem refusal_hides_form_leading :
    (Rules.mk .strict .reject).evaluate "+1/0".toList = .error (.zeroDivisor 2) ∧
      (Rules.mk .strict .ieee).evaluate "+1/0".toList = .error (.missingOperand '+' 0) ∧
      ¬ WellFormed .strict "+1/0".toList ∧
      ∃ kept, (Rules.mk .lenient .ieee).keep (tokenize "-7/0x".toList) = .ok kept ∧
        kept.IsChain Apart ∧ IsExpression kept := by
  have cut : tokenize "+1/0".toList =
      [⟨['+'], .operator, 0⟩, ⟨['1'], .number, 1⟩, ⟨['/'], .operator, 2⟩, ⟨['0'], .number, 3⟩] :=
    (tokenize_eq_steps _).trans rfl
  have cut' : tokenize "-7/0x".toList =
      [⟨['-'], .operator, 0⟩, ⟨['7'], .number, 1⟩, ⟨['/'], .operator, 2⟩, ⟨['0'], .number, 3⟩,
        ⟨['x'], .unknown, 4⟩] :=
    (tokenize_eq_steps _).trans rfl
  have missing : (Rules.mk .strict .ieee).evaluate "+1/0".toList =
      .error (.missingOperand '+' 0) := by
    rw [evaluate, cut]
    rfl
  have accepted : ∃ value, (Rules.mk .lenient .ieee).evaluate "-7/0x".toList = .ok value := by
    rw [evaluate, cut']
    exact ⟨_, rfl⟩
  obtain ⟨_, form, _⟩ := refusal_hides_form .strict "+1/0".toList
  obtain ⟨formed, _, _, _, expression⟩ := refusal_hides_form .lenient "-7/0x".toList
  rw [cut'] at expression ⊢
  refine ⟨?_, missing, form.mp ⟨_, missing, rfl⟩, _, rfl, by decide, ?_⟩
  · rw [evaluate, cut]
    rfl
  · exact (expression _ rfl (by decide)).mp (formed.mp accepted)

/-- What is wrong behind a refused divisor is read too late. -/
theorem refusal_before_missing_operand :
    (Rules.mk .strict .reject).evaluate "1/0+".toList = .error (.zeroDivisor 1) ∧
      (Rules.mk .strict .ieee).evaluate "1/0+".toList = .error (.missingOperand '+' 3) ∧
      ¬ (IsFormFault ((Rules.mk .strict .reject).evaluate "1/0+".toList) ↔
        IsFormFault ((Rules.mk .strict .ieee).evaluate "1/0+".toList)) := by
  have cut : tokenize "1/0+".toList =
      [⟨['1'], .number, 0⟩, ⟨['/'], .operator, 1⟩, ⟨['0'], .number, 2⟩, ⟨['+'], .operator, 3⟩] :=
    (tokenize_eq_steps _).trans rfl
  have refusal : (Rules.mk .strict .reject).evaluate "1/0+".toList = .error (.zeroDivisor 1) := by
    rw [evaluate, cut]
    rfl
  have missing : (Rules.mk .strict .ieee).evaluate "1/0+".toList =
      .error (.missingOperand '+' 3) := by
    rw [evaluate, cut]
    rfl
  refine ⟨refusal, missing, ?_⟩
  rw [refusal, missing]
  intro same
  obtain ⟨_, ⟨⟩, form⟩ := same.mpr ⟨_, rfl, rfl⟩
  cases form

end Rules
end LineCalc
