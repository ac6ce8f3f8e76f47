import LineCalc.Proofs.Grammar
import LineCalc.Proofs.Machine.Reduction

/-!
What a token does to the machine. Each kind of token has its equation, and a step
that succeeds is one of six. White space does nothing, so a run depends only on
the other tokens.
-/
namespace LineCalc.Machine

variable {policy : ZeroDivision} {m m' : Machine} {t : Token}

theorem step_of_blank (blank : t.kind = .blank) : m.step policy t = .ok m := by
  simp [step, blank]

theorem step_of_number {value : Float} (number : t.kind = .number)
    (reads : Decimal.read? t.text = some value) :
    m.step policy t = .ok (m.operand value) := by
  simp [step, number, reads]

theorem step_of_symbol {c : Char} (symbol : t.symbol? = some c) :
    m.step policy t = m.operator policy c t.start := by
  have operator := Token.kind_of_symbol symbol
  simp only [Token.symbol?, operator, ↓reduceIte] at symbol
  simp [step, operator, symbol]

theorem step_of_opens (opens : t.opens = true) :
    m.step policy t = .ok (m.openGroup t.start) := by
  rw [step_of_symbol (Token.opens_iff.mp opens)]
  rfl

theorem step_of_closes (closes : t.closes = true) :
    m.step policy t = m.close policy t.start := by
  rw [step_of_symbol (Token.closes_iff.mp closes)]
  rfl

theorem step_of_negation (minus : t.symbol? = some '-') (wants : m.wantsOperand = true) :
    m.step policy t = .ok (m.negate t.start) := by
  rw [step_of_symbol minus]
  simp [operator, wants]

theorem step_of_binary {op : Operator} (symbol : t.symbol? = some op.symbol)
    (behind : op = .subtract → m.wantsOperand = false) :
    m.step policy t = m.binary policy op t.start := by
  rw [step_of_symbol symbol, operator]
  cases op with
  | subtract => simp [behind, Operator.symbol, Operator.ofSymbol?]
  | _ => simp [Operator.symbol, Operator.ofSymbol?]

theorem close_eq (start : Nat) :
    m.close policy start =
      closeGroup policy start m.values m.stack >>= fun s => .ok ⟨s.1, s.2, false⟩ := by
  unfold close
  cases closeGroup policy start m.values m.stack <;> rfl

theorem binary_eq (op : Operator) (start : Nat) :
    m.binary policy op start =
      reduce policy op.level m.values m.stack >>= fun s =>
        .ok ⟨s.1, (.binary op, start) :: s.2, true⟩ := by
  unfold binary
  cases reduce policy op.level m.values m.stack <;> rfl

theorem run_append_bind (before after : List Token) :
    m.run policy (before ++ after) =
      m.run policy before >>= fun m => m.run policy after := by
  rw [run_append]
  cases m.run policy before <;> rfl

theorem run_cons (t : Token) (ts : List Token) :
    m.run policy (t :: ts) = m.step policy t >>= fun m => m.run policy ts := by
  rw [run]
  cases m.step policy t <;> rfl

theorem run_singleton (t : Token) : m.run policy [t] = m.step policy t := by
  rw [run_cons]
  cases m.step policy t <;> rfl

theorem run_solid (m : Machine) (ts : List Token) :
    m.run policy (Token.solid ts) = m.run policy ts := by
  induction ts generalizing m with
  | nil => rfl
  | cons t ts ih =>
    by_cases blank : t.kind = .blank
    · have dropped : Token.solid (t :: ts) = Token.solid ts := by simp [Token.solid, blank]
      rw [dropped, run_cons, step_of_blank blank]
      exact ih m
    · have kept : Token.solid (t :: ts) = t :: Token.solid ts := by simp [Token.solid, blank]
      rw [kept, run_cons, run_cons]
      simp only [ih]

inductive Takes (policy : ZeroDivision) (m : Machine) (t : Token) : Machine → Prop
  | blank (blank : t.kind = .blank) : Takes policy m t m
  | number {value : Float} (number : t.kind = .number)
      (reads : Decimal.read? t.text = some value) : Takes policy m t (m.operand value)
  | opens (opens : t.opens = true) : Takes policy m t (m.openGroup t.start)
  | closes {values : Values} {stack : Stack} (closes : t.closes = true)
      (closed : closeGroup policy t.start m.values m.stack = .ok (values, stack)) :
      Takes policy m t ⟨values, stack, false⟩
  | negation (minus : t.symbol? = some '-') (wants : m.wantsOperand = true) :
      Takes policy m t (m.negate t.start)
  | binary {op : Operator} {values : Values} {stack : Stack}
      (symbol : t.symbol? = some op.symbol)
      (behind : op = .subtract → m.wantsOperand = false)
      (reduced : reduce policy op.level m.values m.stack = .ok (values, stack)) :
      Takes policy m t ⟨values, (.binary op, t.start) :: stack, true⟩

theorem takes_of_operator {c : Char} (symbol : t.symbol? = some c)
    (taken : m.operator policy c t.start = .ok m') : Takes policy m t m' := by
  unfold operator at taken
  split at taken
  · next opening =>
    cases taken
    exact .opens (Token.opens_iff.mpr (opening ▸ symbol))
  · split at taken
    · next closing =>
      rw [close_eq] at taken
      obtain ⟨s, closed, same⟩ := bind_ok_iff.mp taken
      cases same
      exact .closes (Token.closes_iff.mpr (closing ▸ symbol)) closed
    · split at taken
      · next negating =>
        cases taken
        exact .negation (negating.1 ▸ symbol) negating.2
      · next between =>
        split at taken
        · next op found =>
          obtain rfl := Operator.ofSymbol?_eq_some_iff.mp found
          rw [binary_eq] at taken
          obtain ⟨s, reduced, same⟩ := bind_ok_iff.mp taken
          cases same
          refine .binary symbol ?_ reduced
          rintro rfl
          simpa [Operator.symbol] using between
        · cases taken

theorem takes_of_step (taken : m.step policy t = .ok m') : Takes policy m t m' := by
  cases kind : t.kind with
  | blank =>
    rw [step_of_blank kind] at taken
    cases taken
    exact .blank kind
  | unknown => simp [step, kind] at taken
  | number =>
    cases reads : Decimal.read? t.text with
    | none => simp [step, kind, reads] at taken
    | some value =>
      rw [step_of_number kind reads] at taken
      cases taken
      exact .number kind reads
  | operator =>
    cases text : t.text with
    | nil => simp [step, kind, text, operator, Operator.ofSymbol?] at taken
    | cons c rest =>
      have symbol : t.symbol? = some c := by simp [Token.symbol?, kind, text]
      rw [step_of_symbol symbol] at taken
      exact takes_of_operator symbol taken

theorem wantsOperand_of_takes (takes : Takes policy m t m') (solid : t.kind ≠ .blank) :
    m'.wantsOperand = !t.endsOperand := by
  cases takes with
  | blank blank => exact absurd blank solid
  | number number reads => simp [operand, Token.endsOperand, number]
  | opens opens =>
    simp [openGroup, Token.endsOperand_of_symbol (Token.opens_iff.mp opens)]
  | closes closes closed => simp [Token.endsOperand, closes]
  | negation minus wants =>
    simp [negate, wants, Token.endsOperand_of_symbol minus]
  | binary symbol behind reduced => simp [(operator_silent symbol).2]

theorem run_snoc_ok {ts : List Token} (ran : m.run policy (ts ++ [t]) = .ok m') :
    ∃ mid, m.run policy ts = .ok mid ∧ Takes policy mid t m' := by
  rw [run_append_bind] at ran
  obtain ⟨mid, first, last⟩ := bind_ok_iff.mp ran
  rw [run_singleton] at last
  exact ⟨mid, first, takes_of_step last⟩

def onlyValue : Values → Except CalcError Float
  | [value] => .ok value
  | values => .error (.notOneValue values.length)

theorem onlyValue_ok {values : Values} {value : Float} (only : onlyValue values = .ok value) :
    values = [value] := by
  rcases values with _ | ⟨first, _ | ⟨second, more⟩⟩
  · cases only
  · cases only
    rfl
  · cases only

theorem onlyValue_error {values : Values} {e : CalcError} (failed : onlyValue values = .error e) :
    e = .notOneValue values.length ∧ values.length ≠ 1 := by
  rcases values with _ | ⟨first, _ | ⟨second, more⟩⟩
  · cases failed
    simp
  · cases failed
  · cases failed
    simp

theorem result_eq_bind (m : Machine) :
    m.result policy = applyAll policy m.values m.stack >>= onlyValue := by
  unfold result
  cases applyAll policy m.values m.stack with
  | error e => rfl
  | ok values => rcases values with _ | ⟨value, _ | ⟨second, more⟩⟩ <;> rfl

theorem applyAll_of_result {m : Machine} {value : Float} (finished : m.result policy = .ok value) :
    applyAll policy m.values m.stack = .ok [value] := by
  rw [result_eq_bind] at finished
  obtain ⟨values, applied, only⟩ := bind_ok_iff.mp finished
  rw [applied, onlyValue_ok only]

end LineCalc.Machine
