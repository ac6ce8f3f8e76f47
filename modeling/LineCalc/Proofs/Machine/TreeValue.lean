import LineCalc.Proofs.Machine.Reduction
import LineCalc.Proofs.Rules
import LineCalc.Proofs.Token.Scan

/-!
The machine computes formulas. Reading a derivation on top of any stacks and then
reducing to the level of the derivation leaves one more value, that of the formula,
or fails as the formula does.
-/
namespace LineCalc

variable {policy : ZeroDivision} {form : Form} {f g : Formula} {ts us : List Token}

/-- What may stand open below a derivation: nothing that its own operators would apply. A
    factor has none. -/
def Form.Fits (form : Form) (stack : Stack) : Prop :=
  form = .factor ∨ Holds form.level stack

theorem fits_holds {stack : Stack} (fits : form.Fits stack) (chain : form ≠ .factor) :
    Holds form.level stack := fits.resolve_left chain

namespace Machine

def settle (policy : ZeroDivision) (level : Nat) (m : Machine) :
    Except CalcError (Values × Stack) :=
  reduce policy level m.values m.stack

theorem settle_after_settle {low high : Nat} (le : low ≤ high)
    (reached : Except CalcError Machine) :
    (reached >>= settle policy low) =
      reached >>= settle policy high >>= fun s => reduce policy low s.1 s.2 := by
  rw [bind_assoc]
  congr 1
  funext m
  exact (reduce_after_reduce le m.values m.stack).symm

theorem wantsOperand_of_run_derives (derives : Derives form f ts) {m m' : Machine}
    (ran : m.run policy ts = .ok m') : m'.wantsOperand = false := by
  obtain ⟨before, last, rfl, ends⟩ := derives_ends derives
  obtain ⟨mid, _, takes⟩ := run_snoc_ok ran
  have solid : last.kind ≠ .blank := (derives_counts derives last (by simp)).1
  rw [wantsOperand_of_takes takes solid, ends]
  rfl

theorem run_left_operand {op : Operator} {t : Token} {values : Values} {stack : Stack}
    (symbol : t.symbol? = some op.symbol) (left : Derives form f ts)
    (settled : (run policy ⟨values, stack, true⟩ ts >>= settle policy op.level) =
      f.value policy >>= fun value => .ok (value :: values, stack)) :
    run policy ⟨values, stack, true⟩ (ts ++ t :: us) =
      f.value policy >>= fun value =>
        run policy ⟨value :: values, (.binary op, t.start) :: stack, true⟩ us := by
  have step : (run policy ⟨values, stack, true⟩ ts >>= fun m => m.step policy t) =
      run policy ⟨values, stack, true⟩ ts >>= settle policy op.level >>= fun s =>
        .ok ⟨s.1, (.binary op, t.start) :: s.2, true⟩ := by
    cases ran : run policy ⟨values, stack, true⟩ ts with
    | error e => rfl
    | ok m =>
      have behind := wantsOperand_of_run_derives left ran
      exact (step_of_binary symbol fun _ => behind).trans (binary_eq op t.start)
  rw [run_append_bind]
  simp only [run_cons]
  rw [← bind_assoc, step, settled, bind_assoc, bind_assoc]
  rfl

theorem reduce_binary (op : Operator) (start : Nat) (left right : Float) (values : Values)
    (stack : Stack) :
    reduce policy op.level (right :: left :: values) ((.binary op, start) :: stack) =
      op.apply policy start left right >>= fun value =>
        reduce policy op.level (value :: values) stack := by
  have tight : ¬ Holds op.level ((.binary op, start) :: stack) := by
    simp [holds_cons, Pending.level]
  rw [reduce_cons_of_not_holds tight, applyPending_binary, bind_assoc]
  rfl

theorem settle_binary {op : Operator} {t : Token} {high : Nat} {values : Values}
    {stack : Stack} (symbol : t.symbol? = some op.symbol) (le : op.level ≤ high)
    (below : Holds op.level stack) (left : Derives form f ts)
    (settledLeft : (run policy ⟨values, stack, true⟩ ts >>= settle policy op.level) =
      f.value policy >>= fun value => reduce policy op.level (value :: values) stack)
    (settledRight : ∀ value,
      (run policy ⟨value :: values, (.binary op, t.start) :: stack, true⟩ us >>=
        settle policy high) =
      g.value policy >>= fun right =>
        reduce policy high (right :: value :: values) ((.binary op, t.start) :: stack)) :
    (run policy ⟨values, stack, true⟩ (ts ++ t :: us) >>= settle policy op.level) =
      (Formula.binary op t.start f g).value policy >>= fun value =>
        reduce policy op.level (value :: values) stack := by
  simp only [reduce_of_holds below] at settledLeft
  rw [run_left_operand symbol left settledLeft, bind_assoc]
  simp only [Formula.value, bind_assoc]
  congr 1
  funext value
  rw [settle_after_settle le, settledRight, bind_assoc]
  simp only [reduce_after_reduce le, reduce_binary]

theorem run_group {l r : Token} (opens : l.opens = true) (closes : r.closes = true)
    {values : Values} {stack : Stack}
    (settled : (run policy ⟨values, (.group, l.start) :: stack, true⟩ ts >>= settle policy 1) =
      f.value policy >>= fun value => .ok (value :: values, (.group, l.start) :: stack)) :
    run policy ⟨values, stack, true⟩ (l :: ts ++ [r]) =
      f.value policy >>= fun value => .ok ⟨value :: values, stack, false⟩ := by
  have closing (m : Machine) : m.run policy [r] =
      settle policy 1 m >>= fun s =>
        closeGroup policy r.start s.1 s.2 >>= fun s => .ok ⟨s.1, s.2, false⟩ := by
    rw [run_singleton, step_of_closes closes, close_eq, ← closeGroup_after_reduce, bind_assoc]
    rfl
  have inner : run policy ⟨values, stack, true⟩ (l :: ts) =
      run policy ⟨values, (.group, l.start) :: stack, true⟩ ts := by
    rw [run_cons, step_of_opens opens]
    rfl
  rw [run_append_bind, inner]
  simp only [closing]
  rw [← bind_assoc, settled, bind_assoc]
  rfl

/-- Reading a derivation on top of any stacks that it fits amounts to pushing its value. -/
theorem run_derives (derives : Derives form f ts) (values : Values) (stack : Stack)
    (fits : form.Fits stack) :
    (run policy ⟨values, stack, true⟩ ts >>= settle policy form.level) =
      f.value policy >>= fun value => reduce policy form.level (value :: values) stack := by
  induction derives generalizing values stack with
  | number number reads => rw [run_singleton, step_of_number number reads]; rfl
  | @group l r f ts opens closes inner ih =>
    have inside := ih values ((.group, l.start) :: stack) (Or.inr (holds_group _ _ _))
    simp only [reduce_of_holds (holds_group _ _ _)] at inside
    rw [run_group opens closes inside, bind_assoc]
    rfl
  | @negation t f ts minus operand ih =>
    have inside := ih values ((.negation, t.start) :: stack) (Or.inl rfl)
    rw [run_cons, step_of_negation minus rfl]
    refine inside.trans ?_
    -- The negation binds as tightly as its operand, so the same reduction applies it.
    rw [Formula.value, bind_assoc]
    rfl
  | @term f ts single ih =>
    have le : Form.term.level ≤ Form.factor.level := by decide
    rw [settle_after_settle le, ih values stack (Or.inl rfl), bind_assoc]
    simp only [reduce_after_reduce le]
  | @sum f ts single ih =>
    have le : Form.sum.level ≤ Form.term.level := by decide
    have below : Holds Form.term.level stack := holds_mono le (fits_holds fits (by decide))
    rw [settle_after_settle le, ih values stack (Or.inr below), bind_assoc]
    simp only [reduce_after_reduce le]
  | @product op t f g ts us tight symbol left right hl hr =>
    have level : Form.term.level = op.level := tight.symm
    have le : op.level ≤ Form.factor.level := by rw [tight]; decide
    have below := fits_holds fits (by decide)
    rw [level] at below ⊢
    refine settle_binary symbol le below left (level ▸ hl values stack fits) ?_
    intro value
    exact hr (value :: values) ((.binary op, t.start) :: stack) (Or.inl rfl)
  | @addition op t f g ts us loose symbol left right hl hr =>
    have level : Form.sum.level = op.level := loose.symm
    have le : op.level ≤ Form.term.level := by rw [loose]; decide
    have below := fits_holds fits (by decide)
    rw [level] at below ⊢
    refine settle_binary symbol le below left (level ▸ hl values stack fits) ?_
    intro value
    have room : Holds Form.term.level ((.binary op, t.start) :: stack) :=
      holds_cons.mpr (Or.inr (by rw [Pending.level, loose]; decide))
    exact hr (value :: values) ((.binary op, t.start) :: stack) (Or.inr room)

theorem result_eq (m : Machine) :
    m.result policy = settle policy 1 m >>= fun s => applyAll policy s.1 s.2 >>= onlyValue := by
  rw [settle, ← bind_assoc, applyAll_after_reduce]
  exact result_eq_bind m

end Machine

namespace Rules

theorem evaluateRaw_derives (rules : Rules) (derives : Derives .sum f ts) :
    rules.evaluateRaw ts = f.value rules.zeroDivision := by
  have settled : (Machine.start.run rules.zeroDivision ts >>=
      Machine.settle rules.zeroDivision Form.sum.level) = _ :=
    Machine.run_derives derives [] [] (Or.inr (holds_nil _))
  rw [Form.level] at settled
  rw [evaluateRaw_eq]
  simp only [Machine.result_eq]
  rw [← bind_assoc, settled, bind_assoc]
  cases f.value rules.zeroDivision <;> rfl

theorem balance_derives (derives : Derives .sum f ts) : Parens.balance ts = .ok () := by
  have matched := derives_balance derives [] []
  rw [List.append_nil] at matched
  exact matched

theorem evaluateTokens_derives (rules : Rules) (derives : Derives .sum f (Token.solid ts)) :
    rules.evaluateTokens ts = f.value rules.zeroDivision := by
  have known : ∀ t ∈ ts, t.kind ≠ .unknown := by
    intro t member unknown
    have kept : t ∈ Token.solid ts := by simp [Token.solid, member, unknown]
    exact (derives_counts derives t kept).2 unknown
  rw [evaluateTokens, keep_eq_solid rules known]
  simp only [balance_derives derives]
  exact evaluateRaw_derives rules derives

/-- Both ways to evaluate tokens return what their derivation says, white space or not. A zero
    divisor that is refused is the first one in the order of calculation. -/
theorem derivation_evaluates_to_value (rules : Rules) (ts : List Token) (f : Formula)
    (derives : Derives .sum f (Token.solid ts)) :
    rules.evaluateRaw ts = f.value rules.zeroDivision ∧
      rules.evaluateTokens ts = f.value rules.zeroDivision ∧
      (rules.zeroDivision = .ieee → f.value rules.zeroDivision = .ok f.ieee) ∧
      (rules.zeroDivision = .reject → f.value rules.zeroDivision =
        match f.zeroDivisions with
        | [] => .ok f.ieee
        | start :: _ => .error (.zeroDivisor start)) ∧
      ∀ start ∈ f.zeroDivisions, ∃ t ∈ ts, t.symbol? = some '/' ∧ t.start = start := by
  refine ⟨?_, evaluateTokens_derives rules derives, ?_, ?_, ?_⟩
  · rw [← evaluateRaw_solid]
    exact evaluateRaw_derives rules derives
  · intro ieee
    rw [ieee]
    exact f.value_ieee
  · intro reject
    rw [reject]
    exact f.value_reject
  · intro start member
    obtain ⟨t, found, division⟩ := derives_zeroDivisions derives start member
    exact ⟨t, (List.mem_filter.mp found).1, division⟩

theorem derivation_evaluates_to_value_refused :
    ∃ f, Derives .sum f (Token.solid (tokenize "-8/ (2-2)+1/0".toList)) ∧
      (Rules.mk .lenient .reject).evaluateTokens (tokenize "-8/ (2-2)+1/0".toList) =
        .error (.zeroDivisor 2) := by
  have cut : tokenize "-8/ (2-2)+1/0".toList =
      [⟨['-'], .operator, 0⟩, ⟨['8'], .number, 1⟩, ⟨['/'], .operator, 2⟩, ⟨[' '], .blank, 3⟩,
        ⟨['('], .operator, 4⟩, ⟨['2'], .number, 5⟩, ⟨['-'], .operator, 6⟩, ⟨['2'], .number, 7⟩,
        ⟨[')'], .operator, 8⟩, ⟨['+'], .operator, 9⟩, ⟨['1'], .number, 10⟩,
        ⟨['/'], .operator, 11⟩, ⟨['0'], .number, 12⟩] :=
    (tokenize_eq_steps _).trans rfl
  have number (c : Char) (start : Nat) (value : Float) (reads : Decimal.read? [c] = some value) :
      Derives .factor (.number value) [⟨[c], .number, start⟩] := .number rfl reads
  have zero : Derives .sum (.binary .subtract 6 (.number 2) (.number 2)) _ :=
    .addition (t := ⟨['-'], .operator, 6⟩) rfl rfl (number '2' 5 2 rfl).term.sum
      (number '2' 7 2 rfl).term
  have eighth : Derives .term (.binary .divide 2 (.negation (.number 8)) _) _ :=
    .product (t := ⟨['/'], .operator, 2⟩) rfl rfl
      (Derives.negation (t := ⟨['-'], .operator, 0⟩) rfl (number '8' 1 8 rfl)).term
      (.group (l := ⟨['('], .operator, 4⟩) (r := ⟨[')'], .operator, 8⟩) rfl rfl zero)
  have one : Derives .term (.binary .divide 11 (.number 1) (.number 0)) _ :=
    .product (t := ⟨['/'], .operator, 11⟩) rfl rfl (number '1' 10 1 rfl).term (number '0' 12 0 rfl)
  have both : Derives .sum (.binary .add 9 _ _) _ :=
    .addition (t := ⟨['+'], .operator, 9⟩) rfl rfl eighth.sum one
  rw [cut]
  refine ⟨_, both, ?_⟩
  rw [(derivation_evaluates_to_value ⟨.lenient, .reject⟩ _ _ both).2.1]
  rfl

end Rules
end LineCalc
