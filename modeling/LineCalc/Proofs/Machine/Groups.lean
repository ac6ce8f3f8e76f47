import LineCalc.Proofs.Machine.Steps
import LineCalc.Proofs.Rules

/-!
Groups on the stack and open parentheses. Applying operators leaves the groups alone,
so while the machine reads, its groups are at every token the parentheses that the
balance check holds open. A run that ends with a value has matched them all.
-/
namespace LineCalc

variable {policy : ZeroDivision} {values values' : Values} {stack stack' : Stack}

/-- Where the groups on the stack were opened, the innermost first. -/
def Stack.groups (stack : Stack) : List Nat :=
  stack.filterMap fun top => if top.1 = .group then some top.2 else none

theorem groups_group (start : Nat) (stack : Stack) :
    Stack.groups ((.group, start) :: stack) = start :: stack.groups := by
  simp [Stack.groups]

theorem groups_other {top : Pending × Nat} (other : top.1 ≠ .group) (stack : Stack) :
    Stack.groups (top :: stack) = stack.groups := by
  simp [Stack.groups, other]

theorem reduce_groups {level : Nat}
    (reduced : reduce policy level values stack = .ok (values', stack')) :
    stack'.groups = stack.groups := by
  induction stack generalizing values with
  | nil =>
    cases reduced
    rfl
  | cons top stack ih =>
    rcases reduce_cons_ok reduced with ⟨_, _, rfl⟩ | ⟨tight, mid, _, rest⟩
    · rfl
    · have other : top.1 ≠ .group := fun group => tight (holds_cons.mpr (Or.inl group))
      rw [groups_other other]
      exact ih rest

theorem closeGroup_groups {start : Nat}
    (closed : closeGroup policy start values stack = .ok (values', stack')) :
    ∃ place, stack.groups = place :: stack'.groups := by
  obtain ⟨place, reduced⟩ := closeGroup_ok_iff.mp closed
  have same := reduce_groups reduced
  rw [groups_group] at same
  exact ⟨place, same.symm⟩

theorem applyAll_groups (applied : applyAll policy values stack = .ok values') :
    stack.groups = [] := by
  have same := reduce_groups (applyAll_ok_iff.mp applied)
  exact same.symm

namespace Machine

open Parens

variable {m m' : Machine} {t : Token} {ts : List Token}

theorem balanceFrom_of_takes (takes : Takes policy m t m') (ts : List Token) :
    balanceFrom m.stack.groups (t :: ts) = balanceFrom m'.stack.groups ts := by
  cases takes with
  | blank blank =>
    have silent := silent_of_kind (t := t) (by simp [blank])
    exact balanceFrom_other silent.1 silent.2 _
  | number number reads =>
    have silent := silent_of_kind (t := t) (by simp [number])
    exact balanceFrom_other silent.1 silent.2 _
  | opens opens =>
    rw [balanceFrom_opens opens, openGroup, groups_group]
  | closes closes closed =>
    obtain ⟨place, same⟩ := closeGroup_groups closed
    rw [same]
    exact balanceFrom_closes (not_opens_of_closes closes) closes place _
  | negation minus wants =>
    have silent := silent_of_symbol minus (by decide)
    rw [balanceFrom_other silent.1 silent.2, negate, groups_other (by simp)]
  | binary symbol behind reduced =>
    have silent := silent_of_symbol symbol (operator_symbol_ne _)
    rw [balanceFrom_other silent.1 silent.2, groups_other (by simp), reduce_groups reduced]

/-- What has been read shows in what the check says of the rest only through the groups. -/
theorem balanceFrom_of_run (ran : m.run policy ts = .ok m') (rest : List Token) :
    balanceFrom m.stack.groups (ts ++ rest) = balanceFrom m'.stack.groups rest := by
  induction ts generalizing m with
  | nil =>
    cases ran
    rfl
  | cons t ts ih =>
    rw [run_cons] at ran
    obtain ⟨mid, taken, later⟩ := bind_ok_iff.mp ran
    rw [List.cons_append, balanceFrom_of_takes (takes_of_step taken)]
    exact ih later

theorem groups_length_of_takes (takes : Takes policy m t m') :
    m'.stack.groups.length + (if t.closes then 1 else 0) =
      m.stack.groups.length + if t.opens then 1 else 0 := by
  cases takes with
  | blank blank =>
    have silent := silent_of_kind (t := t) (by simp [blank])
    simp [silent]
  | number number reads =>
    have silent := silent_of_kind (t := t) (by simp [number])
    simp [silent, operand]
  | opens opens =>
    simp [opens, not_closes_of_opens opens, openGroup, groups_group]
  | closes closes closed =>
    obtain ⟨place, same⟩ := closeGroup_groups closed
    simp [closes, not_opens_of_closes closes, same]
  | negation minus wants =>
    have silent := silent_of_symbol minus (by decide)
    simp [silent, negate, groups_other]
  | binary symbol behind reduced =>
    have silent := silent_of_symbol symbol (operator_symbol_ne _)
    simp [silent, groups_other, reduce_groups reduced]

theorem groups_length_of_run (ran : m.run policy ts = .ok m') :
    m'.stack.groups.length + ts.countP Token.closes =
      m.stack.groups.length + ts.countP Token.opens := by
  induction ts generalizing m with
  | nil =>
    cases ran
    rfl
  | cons t ts ih =>
    rw [run_cons] at ran
    obtain ⟨mid, taken, later⟩ := bind_ok_iff.mp ran
    have first := groups_length_of_takes (takes_of_step taken)
    have rest := ih later
    rw [List.countP_cons, List.countP_cons]
    omega

theorem groups_of_result {value : Float} (finished : m.result policy = .ok value) :
    m.stack.groups = [] :=
  applyAll_groups (applyAll_of_result finished)

theorem known_of_run (ran : m.run policy ts = .ok m') : ∀ t ∈ ts, t.kind ≠ .unknown := by
  induction ts generalizing m with
  | nil => simp
  | cons t ts ih =>
    rw [run_cons] at ran
    obtain ⟨mid, taken, later⟩ := bind_ok_iff.mp ran
    intro u member
    rcases List.mem_cons.mp member with rfl | inside
    · intro unknown
      simp [step, unknown] at taken
    · exact ih later u inside

end Machine

namespace Rules

variable {rules : Rules} {ts : List Token} {value : Float}

theorem balance_of_evaluateRaw (evaluated : rules.evaluateRaw ts = .ok value) :
    Parens.balance ts = .ok () := by
  obtain ⟨m, ran, finished⟩ := run_of_evaluateRaw evaluated
  have same := Machine.balanceFrom_of_run ran []
  rw [List.append_nil, Machine.groups_of_result finished] at same
  exact same

theorem known_of_evaluateRaw (evaluated : rules.evaluateRaw ts = .ok value) :
    ∀ t ∈ ts, t.kind ≠ .unknown := by
  obtain ⟨m, ran, _⟩ := run_of_evaluateRaw evaluated
  exact Machine.known_of_run ran

end Rules
end LineCalc
