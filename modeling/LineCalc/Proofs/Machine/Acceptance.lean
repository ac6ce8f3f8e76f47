import LineCalc.Proofs.Machine.Arity
import LineCalc.Proofs.Machine.TreeValue

/-!
Which texts have a value. As long as no operand follows another, the tokens read so
far form a context, which the stack describes entry by entry, or operators have got
too few operands, which is reported in the end. So the accepted token lists without
neighbouring operands are the expressions, and no other accepted one is an expression.
-/
namespace LineCalc

variable {policy : ZeroDivision} {values values' : Values} {stack stack' : Stack}

/-- The tokens that stand for the operators and groups on the stack, with the left operands of
    the operators. -/
inductive Context : Stack → List Token → Prop
  | empty : Context [] []
  | group {l : Token} {stack : Stack} {ts : List Token} (opens : l.opens = true)
      (outer : Context stack ts) : Context ((.group, l.start) :: stack) (ts ++ [l])
  | negation {t : Token} {stack : Stack} {ts : List Token} (minus : t.symbol? = some '-')
      (outer : Context stack ts) : Context ((.negation, t.start) :: stack) (ts ++ [t])
  | binary {form : Form} {op : Operator} {t : Token} {f : Formula} {stack : Stack}
      {ts us : List Token} (level : op.level = form.level)
      (symbol : t.symbol? = some op.symbol) (below : Holds op.level stack)
      (left : Derives form f us) (outer : Context stack ts) :
      Context ((.binary op, t.start) :: stack) (ts ++ us ++ [t])

theorem level_lt_of_fits {form : Form} {op : Operator} {start : Nat}
    (fits : form.Fits ((.binary op, start) :: stack)) : op.level < form.level := by
  rcases fits with rfl | holds
  · cases op <;> decide
  · rcases holds_cons.mp holds with group | below
    · cases group
    · exact below

theorem factor_of_fits {form : Form} {start : Nat}
    (fits : form.Fits ((.negation, start) :: stack)) : form = .factor := by
  rcases fits with factor | holds
  · exact factor
  · rcases holds_cons.mp holds with group | below
    · cases group
    · cases form with
      | factor => rfl
      | sum | term => simp [Pending.level, Form.level] at below

theorem reduce_context {level : Nat} {form : Form} {f : Formula} {outer inner : List Token}
    (reduced : reduce policy level values stack = .ok (values', stack'))
    (context : Context stack outer) (derives : Derives form f inner)
    (fits : form.Fits stack) (le : level ≤ form.level) :
    ∃ (target : Form) (g : Formula) (before operand : List Token),
      outer ++ inner = before ++ operand ∧ Context stack' before ∧
        Derives target g operand ∧ level ≤ target.level := by
  induction context generalizing values form f inner with
  | empty =>
    cases reduced
    exact ⟨form, f, [], inner, rfl, .empty, derives, le⟩
  | @group l stack ts opens outer ih =>
    rw [reduce_of_holds (holds_group level l.start stack)] at reduced
    cases reduced
    exact ⟨form, f, _, inner, rfl, .group opens outer, derives, le⟩
  | @negation t stack ts minus outer ih =>
    rcases reduce_cons_ok reduced with ⟨_, rfl, rfl⟩ | ⟨_, mid, _, rest⟩
    · exact ⟨form, f, _, inner, rfl, .negation minus outer, derives, le⟩
    · obtain rfl := factor_of_fits fits
      obtain ⟨target, g, before, operand, same, reached⟩ :=
        ih rest (.negation minus derives) (Or.inl rfl) le
      exact ⟨target, g, before, operand, by rw [← same]; simp, reached⟩
  | @binary chain op t h stack ts us level' symbol below left outer ih =>
    rcases reduce_cons_ok reduced with ⟨_, rfl, rfl⟩ | ⟨tight, mid, _, rest⟩
    · exact ⟨form, f, _, inner, rfl, .binary level' symbol below left outer, derives, le⟩
    · have joined := derives_chain level' symbol left derives (level_lt_of_fits fits)
      have room : chain.Fits stack := Or.inr (level' ▸ below)
      have high : level ≤ chain.level := by
        rw [holds_cons] at tight
        simp only [reduceCtorEq, false_or, Pending.level, not_lt] at tight
        omega
      obtain ⟨target, g, before, operand, same, reached⟩ := ih rest joined room high
      exact ⟨target, g, before, operand, by rw [← same]; simp, reached⟩

namespace Machine

variable {m m' : Machine} {t : Token} {ts : List Token}

/-- What the machine has read: a context, and an operand behind it unless one is wanted. -/
def Reads (m : Machine) (ts : List Token) : Prop :=
  if m.wantsOperand then Context m.stack ts
  else ∃ (f : Formula) (outer inner : List Token),
    ts = outer ++ inner ∧ Context m.stack outer ∧ Derives .factor f inner

theorem reads_of_closes (closes : t.closes = true)
    (closed : closeGroup policy t.start m.values m.stack = .ok (values, stack))
    (wants : m.wantsOperand = false) (reads : m.Reads ts) :
    Reads ⟨values, stack, false⟩ (ts ++ [t]) := by
  simp only [Reads, wants, Bool.false_eq_true, ↓reduceIte] at reads
  obtain ⟨f, outer, inner, rfl, context, derives⟩ := reads
  obtain ⟨place, reduced⟩ := closeGroup_ok_iff.mp closed
  obtain ⟨target, g, before, operand, same, reached, whole, le⟩ :=
    reduce_context reduced context derives (Or.inl rfl) (by decide)
  cases reached with
  | @group l _ ts opens outer' =>
    have sum : Derives .sum g operand := derives_lift whole le
    exact ⟨g, ts, l :: operand ++ [t], by rw [same]; simp, outer', .group opens closes sum⟩

theorem reads_of_binary {op : Operator} (symbol : t.symbol? = some op.symbol)
    (reduced : reduce policy op.level m.values m.stack = .ok (values, stack))
    (wants : m.wantsOperand = false) (reads : m.Reads ts) :
    Reads ⟨values, (.binary op, t.start) :: stack, true⟩ (ts ++ [t]) := by
  simp only [Reads, wants, Bool.false_eq_true, ↓reduceIte] at reads
  obtain ⟨f, outer, inner, rfl, context, derives⟩ := reads
  obtain ⟨form, level⟩ : ∃ form : Form, op.level = form.level := by
    cases op with
    | add | subtract => exact ⟨.sum, rfl⟩
    | multiply | divide => exact ⟨.term, rfl⟩
  obtain ⟨target, g, before, operand, same, reached, whole, le⟩ :=
    reduce_context reduced context derives (Or.inl rfl) (by cases op <;> decide)
  rw [same]
  exact .binary level symbol (reduce_holds reduced) (derives_lift whole (level ▸ le)) reached

theorem reads_of_takes (takes : Takes policy m t m') (solid : t.kind ≠ .blank)
    (wanted : t.startsOperand = true → m.wantsOperand = true)
    (placed : m.wantsOperand = true → t.startsFactor = true) (reads : m.Reads ts) :
    m'.Reads (ts ++ [t]) := by
  cases takes with
  | blank blank => exact absurd blank solid
  | number number literal =>
    have wants := wanted (by simp [Token.startsOperand, number])
    simp only [Reads, wants, ↓reduceIte] at reads
    exact ⟨_, ts, [t], rfl, reads, .number number literal⟩
  | opens opens =>
    have wants := wanted (by simp [Token.startsOperand, opens])
    simp only [Reads, wants, ↓reduceIte] at reads
    exact .group opens reads
  | closes closes closed =>
    have wants : m.wantsOperand = false := by
      cases wants : m.wantsOperand with
      | false => rfl
      | true =>
        have silent := startsFactor_of_closes closes
        rw [placed wants] at silent
        cases silent
    exact reads_of_closes closes closed wants reads
  | negation minus wants =>
    simp only [Reads, wants, ↓reduceIte] at reads
    simpa only [Reads, negate, wants, ↓reduceIte] using Context.negation minus reads
  | binary symbol behind reduced =>
    have wants : m.wantsOperand = false := by
      cases wants : m.wantsOperand with
      | false => rfl
      | true =>
        have late := not_startsFactor_of_binary symbol behind wants
        rw [placed wants] at late
        cases late
    exact reads_of_binary symbol reduced wants reads

def Starved (m : Machine) : Prop := m.operands ≤ m.stack.binaries

def Sated (m : Machine) : Prop := m.operands = m.stack.binaries + 1

/-- The invariant of a run in which no operand follows another. -/
def Tracks (m : Machine) (ts : List Token) : Prop := m.Starved ∨ (m.Sated ∧ m.Reads ts)

theorem tracks_of_takes (takes : Takes policy m t m') (solid : t.kind ≠ .blank)
    (wanted : t.startsOperand = true → m.wantsOperand = true) (tracks : m.Tracks ts) :
    m'.Tracks (ts ++ [t]) := by
  have counted := operands_of_takes takes solid
  have free : (t.startsOperand && !m.wantsOperand) = false := by
    cases starts : t.startsOperand with
    | false => rfl
    | true => simp [wanted starts]
  rw [free] at counted
  simp only [Bool.false_eq_true, ↓reduceIte, Nat.add_zero] at counted
  rcases tracks with starved | ⟨sated, reads⟩
  · unfold Starved at starved
    refine Or.inl ?_
    unfold Starved
    omega
  · unfold Sated at sated
    by_cases late : (m.wantsOperand && !t.startsFactor) = true
    · rw [if_pos late] at counted
      refine Or.inl ?_
      unfold Starved
      omega
    · rw [if_neg late] at counted
      refine Or.inr ⟨by unfold Sated; omega, ?_⟩
      refine reads_of_takes takes solid wanted ?_ reads
      intro wants
      simpa [wants] using late

end Machine

/-- The second token does not start an operand where the first one has ended one. -/
def Apart (l r : Token) : Prop := ¬ (l.endsOperand = true ∧ r.startsOperand = true)

instance (l r : Token) : Decidable (Apart l r) := inferInstanceAs (Decidable (¬ _))

namespace Machine

theorem wantsOperand_of_run {m : Machine} {ts : List Token}
    (ran : start.run policy ts = .ok m) (solid : ∀ t ∈ ts, t.kind ≠ .blank) :
    m.wantsOperand = !ts.getLast?.any Token.endsOperand := by
  induction ts using List.reverseRecOn with
  | nil => cases ran; rfl
  | append_singleton before t ih =>
    obtain ⟨mid, _, takes⟩ := run_snoc_ok ran
    rw [wantsOperand_of_takes takes (solid t (by simp))]
    simp

theorem tracks_of_run {m : Machine} {ts : List Token} (ran : start.run policy ts = .ok m)
    (solid : ∀ t ∈ ts, t.kind ≠ .blank) (apart : ts.IsChain Apart) : m.Tracks ts := by
  induction ts using List.reverseRecOn generalizing m with
  | nil =>
    cases ran
    exact Or.inr ⟨rfl, .empty⟩
  | append_singleton before t ih =>
    obtain ⟨mid, first, takes⟩ := run_snoc_ok ran
    have solid' : ∀ u ∈ before, u.kind ≠ .blank := fun u member => solid u (by simp [member])
    rw [List.isChain_append] at apart
    refine tracks_of_takes takes (solid t (by simp)) ?_ (ih first solid' apart.1)
    intro starts
    rw [wantsOperand_of_run first solid']
    cases last : before.getLast? with
    | none => rfl
    | some u =>
      have free := apart.2.2 u last t rfl
      cases ends : u.endsOperand with
      | false => simp [ends]
      | true => exact absurd ⟨ends, starts⟩ free

theorem isExpression_of_result {m : Machine} {ts : List Token} {value : Float}
    (tracks : m.Tracks ts) (finished : m.result policy = .ok value) : IsExpression ts := by
  have applied := applyAll_of_result finished
  have counted := applyAll_length applied
  rw [List.length_singleton] at counted
  rcases tracks with starved | ⟨sated, reads⟩
  · unfold Starved operands at starved
    omega
  · cases wants : m.wantsOperand with
    | true =>
      simp only [Sated, operands, wants, ↓reduceIte] at sated
      omega
    | false =>
      simp only [Reads, wants, Bool.false_eq_true, ↓reduceIte] at reads
      obtain ⟨f, outer, inner, rfl, context, derives⟩ := reads
      obtain ⟨target, g, before, operand, same, reached, whole, _⟩ :=
        reduce_context (applyAll_ok_iff.mp applied) context derives (Or.inl rfl) (by decide)
      cases reached
      rw [same]
      exact isExpression_of_derives whole

end Machine

namespace Rules

theorem isExpression_of_evaluateRaw {rules : Rules} {ts : List Token} {value : Float}
    (evaluated : rules.evaluateRaw ts = .ok value) (solid : ∀ t ∈ ts, t.kind ≠ .blank)
    (apart : ts.IsChain Apart) : IsExpression ts := by
  obtain ⟨m, ran, finished⟩ := run_of_evaluateRaw evaluated
  exact Machine.isExpression_of_result (Machine.tracks_of_run ran solid apart) finished

theorem apart_of_isExpression {ts : List Token} (expression : IsExpression ts) :
    ts.IsChain Apart := by
  obtain ⟨f, derives⟩ := expression
  refine List.IsChain.imp ?_ (derives_joins derives)
  intro l r joins both
  rw [joins.1 both.1] at both
  exact absurd both.2 (by decide)

theorem not_closes_of_opens {before after : List Token} {l r : Token}
    (expression : IsExpression (before ++ l :: r :: after)) (opens : l.opens = true) :
    r.closes = false := by
  obtain ⟨f, derives⟩ := expression
  have joins : Joins l r :=
    (List.isChain_append_cons_cons.mp (derives_joins derives)).2.1
  cases closes : r.closes with
  | false => rfl
  | true =>
    have ends := joins.2 closes
    rw [Token.endsOperand_of_symbol (Token.opens_iff.mp opens)] at ends
    cases ends

/-- A text with a value is an expression exactly when no operand in it follows another. Then
    each binary operator has its operands and each group holds something. -/
theorem accepted_isExpression_iff_apart (rules : Rules) (text : Text) (value : Float)
    (accepted : rules.evaluate text = .ok value) :
    ∃ kept, rules.keep (tokenize text) = .ok kept ∧
      (IsExpression kept ↔ kept.IsChain Apart) ∧
      (kept.IsChain Apart →
        (∀ (before after : List Token) (t : Token) (op : Operator),
          kept = before ++ t :: after → t.binary? before = some op → HasOperands before after) ∧
        ∀ (before after : List Token) (l r : Token),
          kept = before ++ l :: r :: after → l.opens = true → r.closes = false) := by
  obtain ⟨kept, keeps, _, evaluated⟩ := stages_of_evaluateTokens accepted
  have solid : ∀ t ∈ kept, t.kind ≠ .blank := fun t member =>
    (counts_of_keep keeps t member).1
  have expression := isExpression_of_evaluateRaw evaluated solid
  refine ⟨kept, keeps, ⟨apart_of_isExpression, expression⟩, ?_⟩
  intro apart
  constructor
  · intro before after t op split found
    obtain ⟨f, derives⟩ := expression apart
    exact derives_operands derives split found
  · intro before after l r split opens
    have whole := expression apart
    rw [split] at whole
    exact not_closes_of_opens whole opens

theorem accepted_isExpression_iff_apart_product :
    (Rules.mk .lenient .reject).evaluate "(1 + 2)x*-3".toList = .ok (-9) ∧
      ∃ kept, (Rules.mk .lenient .reject).keep (tokenize "(1 + 2)x*-3".toList) = .ok kept ∧
        (IsExpression kept ↔ kept.IsChain Apart) := by
  have cut : tokenize "(1 + 2)x*-3".toList =
      [⟨['('], .operator, 0⟩, ⟨['1'], .number, 1⟩, ⟨[' '], .blank, 2⟩, ⟨['+'], .operator, 3⟩,
        ⟨[' '], .blank, 4⟩, ⟨['2'], .number, 5⟩, ⟨[')'], .operator, 6⟩, ⟨['x'], .unknown, 7⟩,
        ⟨['*'], .operator, 8⟩, ⟨['-'], .operator, 9⟩, ⟨['3'], .number, 10⟩] :=
    (tokenize_eq_steps _).trans rfl
  have accepted : (Rules.mk .lenient .reject).evaluate "(1 + 2)x*-3".toList = .ok (-9) := by
    rw [evaluate, cut]
    rfl
  obtain ⟨kept, keeps, expression, _⟩ :=
    accepted_isExpression_iff_apart ⟨.lenient, .reject⟩ _ _ accepted
  exact ⟨accepted, kept, keeps, expression⟩

/-- An operator takes two numbers that both stand before it. -/
theorem accepted_without_expression :
    (Rules.mk .strict .ieee).evaluate "1 2 +".toList = .ok 3 ∧
      ∀ kept, (Rules.mk .strict .ieee).keep (tokenize "1 2 +".toList) = .ok kept →
        ¬ IsExpression kept := by
  have cut : tokenize "1 2 +".toList =
      [⟨['1'], .number, 0⟩, ⟨[' '], .blank, 1⟩, ⟨['2'], .number, 2⟩, ⟨[' '], .blank, 3⟩,
        ⟨['+'], .operator, 4⟩] :=
    (tokenize_eq_steps _).trans rfl
  constructor
  · rw [evaluate, cut]
    rfl
  · intro kept keeps expression
    rw [cut] at keeps
    obtain rfl : [⟨['1'], .number, 0⟩, ⟨['2'], .number, 2⟩, ⟨['+'], .operator, 4⟩] = kept :=
      Except.ok.inj keeps
    have apart := apart_of_isExpression expression
    exact (List.isChain_cons_cons.mp apart).1 ⟨rfl, rfl⟩

end Rules
end LineCalc
