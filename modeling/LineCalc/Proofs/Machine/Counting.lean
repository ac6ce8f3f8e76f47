import LineCalc.Proofs.Machine.Acceptance
import LineCalc.Proofs.Machine.Faults

/-!
How many values a calculation leaves. A number brings one and a binary operator takes one away,
at once or when it is applied in the end; nothing else changes their number. So the numbers and
the binary operators of a text, well-formed or not, decide how many values are left.
-/
namespace LineCalc

variable {policy : ZeroDivision} {t : Token} {ts before : List Token} {e : CalcError}

namespace Token

def numberCount (ts : List Token) : Nat := ts.countP fun t => t.kind = .number

/-- A binary operator stands here; white space before it does not matter. -/
def isBinary (before : List Token) (t : Token) : Bool := (t.binary? (solid before)).isSome

def binaryCount (ts : List Token) : Nat :=
  (List.range ts.length).countP fun i => ts[i]?.any (isBinary (ts.take i))

theorem numberCount_snoc (ts : List Token) (t : Token) :
    numberCount (ts ++ [t]) = numberCount ts + if t.kind = .number then 1 else 0 := by
  simp [numberCount, List.countP_append, List.countP_cons]

theorem binaryCount_snoc (ts : List Token) (t : Token) :
    binaryCount (ts ++ [t]) = binaryCount ts + if t.isBinary ts then 1 else 0 := by
  have front : (List.range ts.length).countP
      (fun i => (ts ++ [t])[i]?.any (isBinary ((ts ++ [t]).take i))) = binaryCount ts := by
    refine List.countP_congr ?_
    intro i member
    have inside := List.mem_range.mp member
    rw [List.getElem?_append_left inside, List.take_append_of_le_length (Nat.le_of_lt inside)]
  rw [binaryCount, List.length_append, List.length_singleton, List.range_succ,
    List.countP_append, front]
  simp [List.countP_cons]

theorem isBinary_of_symbol_none (silent : t.symbol? = none) (before : List Token) :
    t.isBinary before = false := by
  simp [isBinary, binary?, silent]

theorem isBinary_of_parenthesis (parenthesis : t.symbol? = some '(' ∨ t.symbol? = some ')')
    (before : List Token) : t.isBinary before = false := by
  rcases parenthesis with symbol | symbol <;>
    simp [isBinary, binary?, symbol, Operator.ofSymbol?]

theorem isBinary_of_minus (minus : t.symbol? = some '-') (before : List Token) :
    t.isBinary before = (solid before).getLast?.any endsOperand := by
  cases ends : (solid before).getLast?.any endsOperand <;>
    simp [isBinary, binary?, minus, ends, Operator.ofSymbol?]

theorem isBinary_of_symbol {op : Operator} (symbol : t.symbol? = some op.symbol)
    (behind : op = .subtract → (solid before).getLast?.any endsOperand = true) :
    t.isBinary before = true := by
  cases op with
  | subtract =>
    rw [isBinary_of_minus symbol]
    exact behind rfl
  | add | multiply | divide =>
    simp [isBinary, binary?, symbol, Operator.symbol, Operator.ofSymbol?]

end Token

open Token

namespace Machine

variable {m m' : Machine}

theorem wantsOperand_behind (ran : start.run policy ts = .ok m) :
    m.wantsOperand = !(solid ts).getLast?.any endsOperand := by
  rw [← run_solid] at ran
  exact wantsOperand_of_run ran (by simp [solid])

theorem length_of_takes (takes : Takes policy m t m')
    (wants : m.wantsOperand = !(solid before).getLast?.any endsOperand) :
    m'.values.length + m.stack.binaries + (if t.isBinary before then 1 else 0) =
      m.values.length + m'.stack.binaries + if t.kind = .number then 1 else 0 := by
  cases takes with
  | blank blank =>
    have silent : t.symbol? = none := by simp [symbol?, blank]
    simp [isBinary_of_symbol_none silent, blank]
  | number number reads =>
    simp [isBinary_of_symbol_none (symbol_of_number number), number, operand]
    omega
  | opens opens =>
    have symbol := opens_iff.mp opens
    have waiting := binaries_cons (.group, t.start) m.stack
    simp [isBinary_of_parenthesis (Or.inl symbol), kind_of_symbol symbol, openGroup, waiting,
      Pending.isBinary]
  | closes closes closed =>
    have symbol := closes_iff.mp closes
    have counted := closeGroup_length closed
    simp [isBinary_of_parenthesis (Or.inr symbol), kind_of_symbol symbol]
    omega
  | negation minus negates =>
    have behind : (solid before).getLast?.any endsOperand = false := by simpa [wants] using negates
    have waiting := binaries_cons (.negation, t.start) m.stack
    simp [isBinary_of_minus minus, behind, kind_of_symbol minus, negate, waiting,
      Pending.isBinary]
  | @binary op values stack symbol subtracts reduced =>
    have found : t.isBinary before = true := by
      refine isBinary_of_symbol symbol ?_
      intro same
      simpa [wants] using subtracts same
    have counted := reduce_length reduced
    have waiting := binaries_cons (.binary op, t.start) stack
    simp [found, kind_of_symbol symbol, waiting, Pending.isBinary]
    omega

theorem length_of_run (ran : start.run policy ts = .ok m) :
    m.values.length + binaryCount ts = numberCount ts + m.stack.binaries := by
  induction ts using List.reverseRecOn generalizing m with
  | nil =>
    cases ran
    rfl
  | append_singleton before t ih =>
    obtain ⟨mid, first, takes⟩ := run_snoc_ok ran
    have counted := ih first
    have own := length_of_takes takes (wantsOperand_behind first)
    rw [binaryCount_snoc, numberCount_snoc]
    omega

theorem length_of_applyAll {values : Values} (ran : start.run policy ts = .ok m)
    (applied : applyAll policy m.values m.stack = .ok values) :
    numberCount ts = binaryCount ts + values.length := by
  have counted := length_of_run ran
  have left := applyAll_length applied
  omega

theorem not_count_of_fails {n : Nat} {values : Values} {stack : Stack} :
    ¬ Fails policy values stack (.notOneValue n) := by
  rintro ⟨above, top, below, left, _, _, _, failed⟩
  cases inapplicable_of_error failed

theorem not_count_of_run {n : Nat} : start.run policy ts ≠ .error (.notOneValue n) := by
  intro failed
  obtain ⟨before, t, after, mid, _, _, stops⟩ := run_error failed
  cases stops_of_step stops with
  | misread misread => cases misread
  | fails fails => exact not_count_of_fails fails

theorem not_count_of_applyAll {n : Nat} {values : Values} {stack : Stack} :
    applyAll policy values stack ≠ .error (.notOneValue n) := by
  intro failed
  rcases applyAll_error failed with fails | ⟨_, same⟩
  · exact not_count_of_fails fails
  · cases same

end Machine

namespace Rules

/-- A calculation without a check that succeeds has one number more than binary operators, and
    one that ends with another number of values has as many more. -/
theorem values_left_by_operators (rules : Rules) (ts : List Token) :
    (∀ value, rules.evaluateRaw ts = .ok value → numberCount ts = binaryCount ts + 1) ∧
    ∀ n, rules.evaluateRaw ts = .error (.notOneValue n) →
      (n : Int) = numberCount ts - binaryCount ts ∧ n ≠ 1 := by
  constructor
  · intro value evaluated
    obtain ⟨m, ran, finished⟩ := run_of_evaluateRaw evaluated
    exact Machine.length_of_applyAll ran (Machine.applyAll_of_result finished)
  · intro n failed
    rw [evaluateRaw_eq] at failed
    rcases bind_error_iff.mp failed with running | ⟨m, ran, finished⟩
    · exact absurd running Machine.not_count_of_run
    · rw [Machine.result_eq_bind] at finished
      rcases bind_error_iff.mp finished with applying | ⟨values, applied, counted⟩
      · exact absurd applying Machine.not_count_of_applyAll
      · obtain ⟨same, other⟩ := Machine.onlyValue_error counted
        cases same
        have left := Machine.length_of_applyAll ran applied
        exact ⟨by omega, other⟩

end Rules
end LineCalc
