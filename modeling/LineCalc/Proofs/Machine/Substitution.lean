import LineCalc.Proofs.Machine.TreeValue

/-!
A group computes as if nothing stood around it. What lies below an open group is
neither read nor changed until the group is closed, so a group whose inside has a
value can be replaced by a number with this value, whatever stands before and
behind it.
-/
namespace LineCalc

variable {policy : ZeroDivision} {values values' : Values} {stack stack' : Stack}

theorem applyPending_above {top : Pending × Nat}
    (applied : applyPending policy values top = .ok values') (below : Values) :
    applyPending policy (values ++ below) top = .ok (values' ++ below) := by
  obtain ⟨pending, start⟩ := top
  cases pending with
  | group => cases applied
  | negation =>
    cases values with
    | nil => cases applied
    | cons value rest => cases applied; rfl
  | binary op =>
    rcases values with _ | ⟨right, _ | ⟨left, rest⟩⟩
    · cases applied
    · cases applied
    · rw [applyPending_binary] at applied
      obtain ⟨value, result, same⟩ := bind_ok_iff.mp applied
      cases same
      rw [List.cons_append, List.cons_append, applyPending_binary, result]
      rfl

/-- Reducing stops at a group, so it acts above the group as on stacks of its own. -/
theorem reduce_above {level : Nat}
    (reduced : reduce policy level values stack = .ok (values', stack'))
    (below : Values) (start : Nat) (outer : Stack) :
    reduce policy level (values ++ below) (stack ++ (.group, start) :: outer) =
      .ok (values' ++ below, stack' ++ (.group, start) :: outer) := by
  induction stack generalizing values with
  | nil =>
    cases reduced
    exact reduce_of_holds (holds_group level start outer) _
  | cons top stack ih =>
    rcases reduce_cons_ok reduced with ⟨holds, rfl, rfl⟩ | ⟨tight, mid, applied, rest⟩
    · exact reduce_of_holds (holds_cons.mpr (holds_cons.mp holds)) _
    · have tight' : ¬ Holds level (top :: (stack ++ (.group, start) :: outer)) :=
        fun loose => tight (holds_cons.mpr (holds_cons.mp loose))
      rw [List.cons_append, reduce_cons_of_not_holds tight', applyPending_above applied]
      exact ih rest

theorem closeGroup_above {place : Nat}
    (closed : closeGroup policy place values stack = .ok (values', stack'))
    (below : Values) (start : Nat) (outer : Stack) :
    closeGroup policy place (values ++ below) (stack ++ (.group, start) :: outer) =
      .ok (values' ++ below, stack' ++ (.group, start) :: outer) := by
  obtain ⟨inner, reduced⟩ := closeGroup_ok_iff.mp closed
  exact closeGroup_ok_iff.mpr ⟨inner, reduce_above reduced below start outer⟩

theorem closeGroup_of_applyAll (applied : applyAll policy values stack = .ok values')
    (below : Values) (start place : Nat) (outer : Stack) :
    closeGroup policy place (values ++ below) (stack ++ (.group, start) :: outer) =
      .ok (values' ++ below, outer) := by
  have reduced := applyAll_ok_iff.mp applied
  exact closeGroup_ok_iff.mpr ⟨start, reduce_above reduced below start outer⟩

namespace Machine

/-- The machine with values, an open group and more operators below its own. -/
def above (m : Machine) (below : Values) (start : Nat) (outer : Stack) : Machine :=
  ⟨m.values ++ below, m.stack ++ (.group, start) :: outer, m.wantsOperand⟩

theorem step_above {m m' : Machine} {t : Token} (taken : m.step policy t = .ok m')
    (below : Values) (start : Nat) (outer : Stack) :
    (m.above below start outer).step policy t = .ok (m'.above below start outer) := by
  cases takes_of_step taken with
  | blank blank => exact step_of_blank blank
  | number number reads => exact step_of_number number reads
  | opens opens => exact step_of_opens opens
  | closes closes closed =>
    rw [step_of_closes closes, close_eq, above, closeGroup_above closed]
    rfl
  | negation minus wants => exact step_of_negation minus wants
  | @binary op _ _ symbol behind reduced =>
    have behind : op = .subtract → (m.above below start outer).wantsOperand = false := behind
    rw [step_of_binary symbol behind, binary_eq, above, reduce_above reduced]
    rfl

theorem run_above {ts : List Token} {m m' : Machine} (ran : m.run policy ts = .ok m')
    (below : Values) (start : Nat) (outer : Stack) :
    (m.above below start outer).run policy ts = .ok (m'.above below start outer) := by
  induction ts generalizing m with
  | nil =>
    cases ran
    rfl
  | cons t ts ih =>
    rw [run_cons] at ran ⊢
    obtain ⟨mid, taken, rest⟩ := bind_ok_iff.mp ran
    rw [step_above taken]
    exact ih rest

end Machine

namespace Rules

theorem run_group_eq_operand {rules : Rules} {inside : List Token} {value : Float}
    (evaluated : rules.evaluateRaw inside = .ok value) {l r : Token} (opens : l.opens = true)
    (closes : r.closes = true) (m : Machine) :
    m.run rules.zeroDivision ([l] ++ inside ++ [r]) = .ok (m.operand value) := by
  obtain ⟨last, ran, finished⟩ := run_of_evaluateRaw evaluated
  have entered : m.run rules.zeroDivision ([l] ++ inside) =
      .ok (last.above m.values l.start m.stack) := by
    rw [List.singleton_append, Machine.run_cons, Machine.step_of_opens opens]
    exact Machine.run_above ran m.values l.start m.stack
  have closed := closeGroup_of_applyAll (Machine.applyAll_of_result finished) m.values l.start
    r.start m.stack
  rw [Machine.run_append_bind, entered]
  refine (Machine.run_singleton r).trans ?_
  rw [Machine.step_of_closes closes, Machine.close_eq, Machine.above, closed]
  rfl

theorem group_replaced_by_value (rules : Rules) (before inside after : List Token)
    (l r t : Token) (value : Float) (opens : l.opens = true) (closes : r.closes = true)
    (evaluated : rules.evaluateRaw inside = .ok value) (number : t.kind = .number)
    (reads : Decimal.read? t.text = some value) :
    rules.evaluateRaw (before ++ [l] ++ inside ++ [r] ++ after) =
      rules.evaluateRaw (before ++ [t] ++ after) := by
  have same (m : Machine) : m.run rules.zeroDivision ([l] ++ inside ++ [r]) =
      m.run rules.zeroDivision [t] := by
    rw [run_group_eq_operand evaluated opens closes, Machine.run_singleton,
      Machine.step_of_number number reads]
  have grouped : before ++ [l] ++ inside ++ [r] ++ after =
      before ++ ([l] ++ inside ++ [r]) ++ after := by simp
  rw [grouped, evaluateRaw_eq, evaluateRaw_eq]
  simp only [Machine.run_append_bind (before ++ _) after, Machine.run_append_bind before, same]

theorem group_replaced_by_value_postfix :
    (Rules.mk .strict .ieee).evaluateRaw (tokenize "1 2+".toList) = .ok 3 ∧
      (Rules.mk .strict .ieee).evaluateRaw
        (tokenize "4*(".toList ++ [⟨['('], .operator, 3⟩] ++ tokenize "1 2+".toList ++
          [⟨[')'], .operator, 8⟩] ++ tokenize "-".toList) =
      (Rules.mk .strict .ieee).evaluateRaw
        (tokenize "4*(".toList ++ [⟨['3'], .number, 0⟩] ++ tokenize "-".toList) := by
  have cut : tokenize "1 2+".toList =
      [⟨['1'], .number, 0⟩, ⟨[' '], .blank, 1⟩, ⟨['2'], .number, 2⟩, ⟨['+'], .operator, 3⟩] :=
    (tokenize_eq_steps _).trans rfl
  have evaluated : (Rules.mk .strict .ieee).evaluateRaw (tokenize "1 2+".toList) = .ok 3 := by
    rw [cut]
    rfl
  exact ⟨evaluated, group_replaced_by_value ⟨.strict, .ieee⟩ _ _ _ _ _ _ 3 rfl rfl evaluated
    rfl rfl⟩

end Rules
end LineCalc
