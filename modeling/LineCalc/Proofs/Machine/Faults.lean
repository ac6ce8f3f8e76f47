import LineCalc.Proofs.Machine.Arity
import LineCalc.Proofs.Machine.Groups

/-!
Where a fault comes from. Every operator that waits on the stack was read from a token,
so a fault of the machine is the fault of one token: it means nothing, or it stands for
an operator that cannot be applied. All that is left are parentheses that do not match
and a wrong number of values in the end.
-/
namespace LineCalc

variable {policy : ZeroDivision} {values values' : Values} {stack stack' : Stack}
  {t : Token} {ts : List Token} {e : CalcError}

inductive Misread (t : Token) : CalcError → Prop
  | unknown (unknown : t.kind = .unknown) : Misread t (.unknownCharacter t.text t.start)
  | number (number : t.kind = .number) (unread : Decimal.read? t.text = none) :
      Misread t (.badNumber t.text t.start)
  | operator (operator : t.kind = .operator)
      (strange : ∀ c ∈ "+-*/()".toList, t.symbol? ≠ some c) :
      Misread t (.notAnOperator (t.text.headD '\x00'))

inductive Misapplied (policy : ZeroDivision) (t : Token) : CalcError → Prop
  | operand {c : Char} (symbol : t.symbol? = some c) (arithmetic : c ∈ "+-*/".toList) :
      Misapplied policy t (.missingOperand c t.start)
  | divisor (reject : policy = .reject) (symbol : t.symbol? = some '/') :
      Misapplied policy t (.zeroDivisor t.start)

def Token.StandsFor (t : Token) (top : Pending × Nat) : Prop :=
  t.symbol? = some top.1.symbol ∧ t.start = top.2

theorem bind_error_iff {α β : Type} {x : Except CalcError α} {f : α → Except CalcError β} :
    x >>= f = .error e ↔ x = .error e ∨ ∃ a, x = .ok a ∧ f a = .error e := by
  cases x with
  | error cause => simp [bind, Except.bind]
  | ok a => simp [bind, Except.bind]

theorem operator_symbol_mem (op : Operator) : op.symbol ∈ "+-*/".toList := by
  cases op <;> decide

theorem apply_error {op : Operator} {start : Nat} {left right : Float}
    (failed : op.apply policy start left right = .error e) :
    op = .divide ∧ policy = .reject ∧ e = .zeroDivisor start := by
  cases op with
  | divide =>
    rw [Operator.apply] at failed
    split at failed
    · next zero =>
      cases failed
      exact ⟨rfl, zero.1, rfl⟩
    · cases failed
  | add | subtract | multiply => cases failed

theorem symbol_mem_of_not_group {pending : Pending} (other : pending ≠ .group) :
    pending.symbol ∈ "+-*/".toList := by
  cases pending with
  | group => exact absurd rfl other
  | negation => decide
  | binary op => exact operator_symbol_mem op

inductive Inapplicable (policy : ZeroDivision) (values : Values) : Pending × Nat → CalcError → Prop
  | group {start : Nat} : Inapplicable policy values (.group, start) (.notAnOperator '(')
  | operand {top : Pending × Nat} (other : top.1 ≠ .group)
      (few : values.length ≤ if top.1.isBinary then 1 else 0) :
      Inapplicable policy values top (.missingOperand top.1.symbol top.2)
  | divisor {start : Nat} (reject : policy = .reject) :
      Inapplicable policy values (.binary .divide, start) (.zeroDivisor start)

theorem inapplicable_of_error {top : Pending × Nat}
    (failed : applyPending policy values top = .error e) : Inapplicable policy values top e := by
  obtain ⟨pending, start⟩ := top
  cases pending with
  | group =>
    cases failed
    exact .group
  | negation =>
    cases values with
    | nil =>
      cases failed
      exact .operand (by simp) (Nat.le_refl 0)
    | cons value rest => cases failed
  | binary op =>
    have missing (few : values.length ≤ 1) :
        Inapplicable policy values (.binary op, start) (.missingOperand op.symbol start) :=
      .operand (by simp) few
    rcases values with _ | ⟨right, _ | ⟨left, rest⟩⟩
    · cases failed
      exact missing (Nat.zero_le 1)
    · cases failed
      exact missing (Nat.le_refl 1)
    · rw [applyPending_binary] at failed
      rcases bind_error_iff.mp failed with result | ⟨value, _, same⟩
      · obtain ⟨rfl, reject, rfl⟩ := apply_error result
        exact .divisor reject
      · cases same

theorem misapplied_of_applyPending {top : Pending × Nat} (other : top.1 ≠ .group)
    (stands : t.StandsFor top) (failed : applyPending policy values top = .error e) :
    Misapplied policy t e := by
  obtain ⟨symbol, place⟩ := stands
  cases inapplicable_of_error failed with
  | group => exact absurd rfl other
  | operand other few => exact place ▸ .operand symbol (symbol_mem_of_not_group other)
  | divisor reject =>
    obtain rfl : t.start = _ := place
    exact .divisor reject symbol

theorem reduce_suffix {level : Nat}
    (reduced : reduce policy level values stack = .ok (values', stack')) : stack' <:+ stack := by
  induction stack generalizing values with
  | nil =>
    cases reduced
    exact List.suffix_refl []
  | cons top stack ih =>
    rcases reduce_cons_ok reduced with ⟨_, _, rfl⟩ | ⟨_, mid, _, rest⟩
    · exact List.suffix_refl _
    · exact (ih rest).trans (List.suffix_cons top stack)

theorem closeGroup_suffix {start : Nat}
    (closed : closeGroup policy start values stack = .ok (values', stack')) :
    stack' <:+ stack := by
  obtain ⟨place, reduced⟩ := closeGroup_ok_iff.mp closed
  exact (List.suffix_cons _ stack').trans (reduce_suffix reduced)

/-- Applied from the top on, the operators on the stack come to one that fails. -/
def Fails (policy : ZeroDivision) (values : Values) (stack : Stack) (e : CalcError) : Prop :=
  ∃ (above : Stack) (top : Pending × Nat) (below : Stack) (left : Values),
    stack = above ++ top :: below ∧ top.1 ≠ .group ∧
      left.length + above.binaries = values.length ∧ applyPending policy left top = .error e

theorem reduce_error {level : Nat} (failed : reduce policy level values stack = .error e) :
    Fails policy values stack e := by
  induction stack generalizing values with
  | nil => cases failed
  | cons top stack ih =>
    by_cases holds : Holds level (top :: stack)
    · rw [reduce_of_holds holds] at failed
      cases failed
    · have other : top.1 ≠ .group := fun group => holds (holds_cons.mpr (Or.inl group))
      rw [reduce_cons_of_not_holds holds] at failed
      rcases bind_error_iff.mp failed with first | ⟨mid, applied, later⟩
      · exact ⟨[], top, stack, values, rfl, other, rfl, first⟩
      · obtain ⟨above, bad, below, left, rfl, free, counted, found⟩ := ih later
        have own := applyPending_length applied
        have more := binaries_cons top above
        exact ⟨top :: above, bad, below, left, rfl, free, by omega, found⟩

theorem closeGroup_error {start : Nat}
    (failed : closeGroup policy start values stack = .error e) :
    Fails policy values stack e ∨ (stack.groups = [] ∧ e = .unbalanced start) := by
  -- Reduced first, the stack is empty or shows the group that is closed.
  rw [← closeGroup_after_reduce] at failed
  rcases bind_error_iff.mp failed with first | ⟨⟨left, rest⟩, reduced, closed⟩
  · exact Or.inl (reduce_error first)
  · have same := reduce_groups reduced
    rcases holds_one_cases (reduce_holds reduced) with rfl | ⟨place, outer, rfl⟩
    · cases closed
      exact Or.inr ⟨same.symm, rfl⟩
    · cases closed

theorem applyAll_error (failed : applyAll policy values stack = .error e) :
    Fails policy values stack e ∨ (stack.groups ≠ [] ∧ e = .notAnOperator '(') := by
  rw [← applyAll_after_reduce] at failed
  rcases bind_error_iff.mp failed with first | ⟨⟨left, rest⟩, reduced, applied⟩
  · exact Or.inl (reduce_error first)
  · have same := reduce_groups reduced
    rcases holds_one_cases (reduce_holds reduced) with rfl | ⟨place, outer, rfl⟩
    · cases applied
    · cases applied
      rw [groups_group] at same
      exact Or.inr ⟨by simp [← same], rfl⟩

namespace Machine

variable {m m' : Machine}

theorem stack_of_takes (takes : Takes policy m t m') :
    m'.stack <:+ m.stack ∨
      ∃ top below, m'.stack = top :: below ∧ below <:+ m.stack ∧ t.StandsFor top := by
  cases takes with
  | blank blank => exact Or.inl (List.suffix_refl _)
  | number number reads => exact Or.inl (List.suffix_refl _)
  | opens opens =>
    exact Or.inr ⟨_, _, rfl, List.suffix_refl _, Token.opens_iff.mp opens, rfl⟩
  | closes closes closed => exact Or.inl (closeGroup_suffix closed)
  | negation minus wants => exact Or.inr ⟨_, _, rfl, List.suffix_refl _, minus, rfl⟩
  | binary symbol behind reduced => exact Or.inr ⟨_, _, rfl, reduce_suffix reduced, symbol, rfl⟩

/-- A run during which this part of the stack stays where it is. -/
def RunsAbove (policy : ZeroDivision) (base : Stack) (m m' : Machine) (ts : List Token) : Prop :=
  m.run policy ts = .ok m' ∧
    ∀ l, l <+: ts → ∃ mid, m.run policy l = .ok mid ∧ base <:+ mid.stack

theorem runsAbove_nil {base : Stack} (rests : base <:+ m.stack) : RunsAbove policy base m m [] := by
  refine ⟨rfl, ?_⟩
  intro l short
  rw [List.prefix_nil.mp short]
  exact ⟨m, rfl, rests⟩

theorem runsAbove_snoc {base : Stack} {mid : Machine} (runs : RunsAbove policy base m mid ts)
    (taken : mid.step policy t = .ok m') (rests : base <:+ m'.stack) :
    RunsAbove policy base m m' (ts ++ [t]) := by
  have whole : m.run policy (ts ++ [t]) = .ok m' := by
    rw [run_append_bind, runs.1, ← taken]
    exact run_singleton t
  refine ⟨whole, ?_⟩
  intro l short
  rcases List.prefix_concat_iff.mp short with rfl | shorter
  · exact ⟨m', whole, rests⟩
  · exact runs.2 l shorter

/-- How an entry has come onto the stack, and has stayed there: the token that it was read from,
    with the runs before and behind it. -/
inductive Origin (policy : ZeroDivision) (top : Pending × Nat) (below : Stack) (m : Machine) :
    List Token → Prop
  | read {before inside : List Token} {t : Token} {outer inner : Machine}
      (ran : start.run policy before = .ok outer) (taken : outer.step policy t = .ok inner)
      (stands : t.StandsFor top) (pushed : inner.stack = top :: below)
      (runs : RunsAbove policy (top :: below) inner m inside) :
      Origin policy top below m (before ++ t :: inside)

theorem origin_of_run {top : Pending × Nat} {below : Stack} (ran : start.run policy ts = .ok m)
    (waits : top :: below <:+ m.stack) : Origin policy top below m ts := by
  -- From the right, since what waits was read from the tokens in front.
  induction ts using List.reverseRecOn generalizing m with
  | nil =>
    cases ran
    cases List.suffix_nil.mp waits
  | append_singleton read t ih =>
    have last := ran
    rw [run_append_bind] at last
    obtain ⟨mid, first, taken⟩ := bind_ok_iff.mp last
    rw [run_singleton] at taken
    -- An entry that was on the stack before stays there; any other is the one that t adds.
    have either : top :: below <:+ mid.stack ∨ (m.stack = top :: below ∧ t.StandsFor top) := by
      rcases stack_of_takes (takes_of_step taken) with before | ⟨own, rest, pushed, before, stands⟩
      · exact Or.inl (waits.trans before)
      · rw [pushed] at waits
        rcases List.suffix_cons_iff.mp waits with whole | inside
        · obtain ⟨rfl, rfl⟩ := List.cons.inj whole
          exact Or.inr ⟨pushed, stands⟩
        · exact Or.inl (inside.trans before)
    rcases either with before | ⟨pushed, stands⟩
    · obtain ⟨ran', taken', stands', pushed', runs⟩ := ih first before
      rw [List.append_assoc, List.cons_append]
      exact .read ran' taken' stands' pushed' (runsAbove_snoc runs taken waits)
    · exact .read first taken stands pushed (runsAbove_nil waits)

theorem misapplied_of_fails (ran : start.run policy ts = .ok m)
    (fails : Fails policy m.values m.stack e) : ∃ t ∈ ts, Misapplied policy t e := by
  obtain ⟨above, top, below, left, split, other, _, failed⟩ := fails
  have waits : top :: below <:+ m.stack := by
    rw [split]
    exact List.suffix_append above _
  obtain ⟨_, _, stands, _, _⟩ := origin_of_run ran waits
  exact ⟨_, by simp, misapplied_of_applyPending other stands failed⟩

inductive Stops (policy : ZeroDivision) (m : Machine) (t : Token) : CalcError → Prop
  | misread {e : CalcError} (misread : Misread t e) : Stops policy m t e
  | fails {e : CalcError} (fails : Fails policy m.values m.stack e) :
      Stops policy m t e
  | unopened (closes : t.closes = true) (bare : m.stack.groups = []) :
      Stops policy m t (.unbalanced t.start)

theorem symbol_cases {c : Char} (member : c ∈ "+-*/()".toList) :
    c = '(' ∨ c = ')' ∨ ∃ op, Operator.ofSymbol? c = some op := by
  simp at member
  rcases member with rfl | rfl | rfl | rfl | rfl | rfl <;> simp [Operator.ofSymbol?]

theorem misread_of_symbol {c : Char} (symbol : t.symbol? = some c) (opening : c ≠ '(')
    (closing : c ≠ ')') (none : Operator.ofSymbol? c = none) :
    Misread t (.notAnOperator c) := by
  have operator := Token.kind_of_symbol symbol
  have head : t.text.headD '\x00' = c := by
    simp only [Token.symbol?, operator, ↓reduceIte] at symbol
    simp [symbol]
  rw [← head]
  refine .operator operator ?_
  intro d member same
  rw [symbol] at same
  obtain rfl := Option.some.inj same
  rcases symbol_cases member with opens | closes | ⟨op, found⟩
  · exact opening opens
  · exact closing closes
  · rw [none] at found
    cases found

theorem stops_of_operator {c : Char} (symbol : t.symbol? = some c)
    (failed : m.operator policy c t.start = .error e) : Stops policy m t e := by
  unfold operator at failed
  split at failed
  · cases failed
  · next opening =>
    split at failed
    · next closing =>
      rw [close_eq] at failed
      rcases bind_error_iff.mp failed with inside | ⟨s, _, done⟩
      · rcases closeGroup_error inside with fails | ⟨bare, rfl⟩
        · exact .fails fails
        · exact .unopened (Token.closes_iff.mpr (closing ▸ symbol)) bare
      · cases done
    · next closing =>
      split at failed
      · cases failed
      · split at failed
        · next op found =>
          rw [binary_eq] at failed
          rcases bind_error_iff.mp failed with inside | ⟨s, _, done⟩
          · exact .fails (reduce_error inside)
          · cases done
        · next none =>
          cases failed
          exact .misread (misread_of_symbol symbol opening closing none)

theorem stops_of_step (failed : m.step policy t = .error e) : Stops policy m t e := by
  cases kind : t.kind with
  | blank =>
    rw [step_of_blank kind] at failed
    cases failed
  | unknown =>
    simp only [step, kind] at failed
    cases failed
    exact .misread (.unknown kind)
  | number =>
    cases reads : Decimal.read? t.text with
    | none =>
      simp only [step, kind, reads] at failed
      cases failed
      exact .misread (.number kind reads)
    | some value =>
      rw [step_of_number kind reads] at failed
      cases failed
  | operator =>
    cases text : t.text with
    | nil =>
      have strange : ∀ c ∈ "+-*/()".toList, t.symbol? ≠ some c := by
        simp [Token.symbol?, kind, text]
      have misread := Misread.operator kind strange
      simp only [step, kind, text] at failed misread
      cases failed
      exact .misread misread
    | cons c rest =>
      have symbol : t.symbol? = some c := by simp [Token.symbol?, kind, text]
      rw [step_of_symbol symbol] at failed
      exact stops_of_operator symbol failed

end Machine

inductive Fault (policy : ZeroDivision) (ts : List Token) : CalcError → Prop
  | count {n : Nat} (other : n ≠ 1) : Fault policy ts (.notOneValue n)
  | misread {t : Token} {e : CalcError} (member : t ∈ ts) (misread : Misread t e) :
      Fault policy ts e
  | misapplied {t : Token} {e : CalcError} (member : t ∈ ts)
      (misapplied : Misapplied policy t e) : Fault policy ts e
  | unopened {p : Nat} (unbalanced : Parens.balance ts = .error (.unbalanced p)) :
      Fault policy ts (.unbalanced p)
  | unclosed {p : Nat} (unbalanced : Parens.balance ts = .error (.unbalanced p)) :
      Fault policy ts (.notAnOperator '(')

namespace Machine

open Parens

variable {m m' : Machine}

theorem run_error (failed : m.run policy ts = .error e) :
    ∃ before t after mid, ts = before ++ t :: after ∧ m.run policy before = .ok mid ∧
      mid.step policy t = .error e := by
  induction ts generalizing m with
  | nil => cases failed
  | cons t ts ih =>
    rw [run_cons] at failed
    rcases bind_error_iff.mp failed with first | ⟨next, taken, later⟩
    · exact ⟨[], t, ts, m, rfl, rfl, first⟩
    · obtain ⟨before, u, after, mid, rfl, ran, stops⟩ := ih later
      refine ⟨t :: before, u, after, mid, rfl, ?_, stops⟩
      rw [run_cons, taken]
      exact ran

theorem fault_of_run (failed : start.run policy ts = .error e) : Fault policy ts e := by
  obtain ⟨before, t, after, mid, rfl, ran, stops⟩ := run_error failed
  cases stops_of_step stops with
  | misread misread => exact .misread (by simp) misread
  | fails fails =>
    obtain ⟨u, read, misapplied⟩ := misapplied_of_fails ran fails
    exact .misapplied (by simp [read]) misapplied
  | unopened closes bare =>
    -- The check comes to this parenthesis with nothing open, as the machine did.
    have checked := balanceFrom_of_run ran (t :: after)
    rw [bare, balanceFrom_unopened (not_opens_of_closes closes) closes] at checked
    exact .unopened checked

theorem fault_of_result (ran : start.run policy ts = .ok m)
    (failed : m.result policy = .error e) : Fault policy ts e := by
  rw [result_eq_bind] at failed
  rcases bind_error_iff.mp failed with applying | ⟨values, _, counted⟩
  · rcases applyAll_error applying with fails | ⟨left, rfl⟩
    · obtain ⟨u, read, misapplied⟩ := misapplied_of_fails ran fails
      exact .misapplied read misapplied
    · -- A group that is left is a parenthesis that the check finds open in the end.
      obtain ⟨p, outer, groups⟩ := List.exists_cons_of_ne_nil left
      have checked := balanceFrom_of_run ran []
      rw [List.append_nil, groups] at checked
      exact .unclosed checked
  · obtain ⟨rfl, other⟩ := onlyValue_error counted
    exact .count other

end Machine

theorem Rules.fault_of_evaluateRaw {rules : Rules} (failed : rules.evaluateRaw ts = .error e) :
    Fault rules.zeroDivision ts e := by
  rw [evaluateRaw_eq] at failed
  rcases bind_error_iff.mp failed with running | ⟨m, ran, finished⟩
  · exact Machine.fault_of_run running
  · exact Machine.fault_of_result ran finished

end LineCalc
