import LineCalc.Proofs.Machine.Reduction
import LineCalc.Proofs.Machine.Steps

/-!
How many values wait for how many binary operators. Applying operators keeps the
difference, whatever is on the stacks, so at the end of a run it is the number of
values that are left.
-/
namespace LineCalc

variable {policy : ZeroDivision} {values values' : Values} {stack stack' : Stack}

def Pending.isBinary : Pending → Bool
  | .binary _ => true
  | .group | .negation => false

def Stack.binaries (stack : Stack) : Nat := stack.countP fun top => top.1.isBinary

theorem binaries_cons (top : Pending × Nat) (stack : Stack) :
    Stack.binaries (top :: stack) =
      Stack.binaries stack + if top.1.isBinary then 1 else 0 := by
  simp [Stack.binaries, List.countP_cons]

theorem applyPending_ok {top : Pending × Nat}
    (applied : applyPending policy values top = .ok values') :
    ∃ value rest, values' = value :: rest ∧
      values.length = rest.length + 1 + if top.1.isBinary then 1 else 0 := by
  obtain ⟨pending, start⟩ := top
  cases pending with
  | group => cases applied
  | negation =>
    cases values with
    | nil => cases applied
    | cons value rest =>
      cases applied
      exact ⟨-value, rest, rfl, rfl⟩
  | binary op =>
    rcases values with _ | ⟨right, _ | ⟨left, rest⟩⟩
    · cases applied
    · cases applied
    · rw [applyPending_binary] at applied
      obtain ⟨value, _, same⟩ := bind_ok_iff.mp applied
      cases same
      exact ⟨value, rest, rfl, rfl⟩

theorem applyPending_length {top : Pending × Nat}
    (applied : applyPending policy values top = .ok values') :
    values.length = values'.length + if top.1.isBinary then 1 else 0 := by
  obtain ⟨value, rest, rfl, counted⟩ := applyPending_ok applied
  exact counted

theorem reduce_length {level : Nat}
    (reduced : reduce policy level values stack = .ok (values', stack')) :
    values.length + stack'.binaries = values'.length + stack.binaries := by
  induction stack generalizing values with
  | nil =>
    cases reduced
    rfl
  | cons top stack ih =>
    rcases reduce_cons_ok reduced with ⟨_, rfl, rfl⟩ | ⟨_, mid, applied, rest⟩
    · rfl
    · have own := applyPending_length applied
      have below := ih rest
      rw [binaries_cons]
      omega

theorem closeGroup_length {start : Nat}
    (closed : closeGroup policy start values stack = .ok (values', stack')) :
    values.length + stack'.binaries = values'.length + stack.binaries := by
  obtain ⟨place, reduced⟩ := closeGroup_ok_iff.mp closed
  have counted := reduce_length reduced
  rwa [binaries_cons] at counted

theorem applyAll_length (applied : applyAll policy values stack = .ok values') :
    values.length = values'.length + stack.binaries :=
  reduce_length (applyAll_ok_iff.mp applied)

namespace Machine

/-- The values on the stack, and the one that is wanted next. -/
def operands (m : Machine) : Nat := m.values.length + if m.wantsOperand then 1 else 0

theorem not_startsFactor_of_binary {m : Machine} {t : Token} {op : Operator}
    (symbol : t.symbol? = some op.symbol) (behind : op = .subtract → m.wantsOperand = false)
    (wants : m.wantsOperand = true) : t.startsFactor = false := by
  have silent := (operator_silent symbol).1
  cases op with
  | subtract => rw [behind rfl] at wants; cases wants
  | _ => simp [Token.startsFactor, silent, symbol, Operator.symbol]

/-- Where an operand is wanted and none starts, the machine gets one operand less than its
    operators need, and one more where an operand starts that is not wanted. -/
theorem operands_of_takes {m m' : Machine} {t : Token} (takes : Takes policy m t m')
    (solid : t.kind ≠ .blank) :
    m'.operands + m.stack.binaries + (if m.wantsOperand && !t.startsFactor then 1 else 0) =
      m.operands + m'.stack.binaries + if t.startsOperand && !m.wantsOperand then 1 else 0 := by
  cases takes with
  | blank blank => exact absurd blank solid
  | number number reads =>
    have starts : t.startsOperand = true := by simp [Token.startsOperand, number]
    cases wants : m.wantsOperand <;> simp [operands, operand, wants, Token.startsFactor, starts]
    omega
  | opens opens =>
    have starts : t.startsOperand = true := by simp [Token.startsOperand, opens]
    have waiting := binaries_cons (.group, t.start) m.stack
    simp only [Pending.isBinary, Bool.false_eq_true, ↓reduceIte] at waiting
    cases wants : m.wantsOperand <;>
      simp [operands, openGroup, wants, Token.startsFactor, starts, waiting]
    omega
  | @closes values stack closes closed =>
    have counted := closeGroup_length closed
    have silent := startsFactor_of_closes closes
    have apart : t.startsOperand = false := by
      rw [Token.startsOperand_of_symbol (Token.closes_iff.mp closes)]
      rfl
    cases wants : m.wantsOperand <;> simp [operands, wants, silent, apart] <;> omega
  | negation minus wants =>
    simp [operands, negate, wants, Token.startsFactor, minus, binaries_cons, Pending.isBinary]
  | @binary op values stack symbol behind reduced =>
    have counted := reduce_length reduced
    have own := binaries_cons (.binary op, t.start) stack
    simp only [Pending.isBinary, ↓reduceIte] at own
    have apart := (operator_silent symbol).1
    cases wants : m.wantsOperand with
    | false => simp [operands, wants, own, apart]; omega
    | true =>
      have late := not_startsFactor_of_binary symbol behind wants
      simp [operands, wants, late, own, apart]
      omega

end Machine
end LineCalc
