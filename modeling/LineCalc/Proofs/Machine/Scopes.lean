import LineCalc.Proofs.Machine.Counting
import LineCalc.Proofs.Token.Scan

/-!
The shape of the stacks during a run, on malformed text as well. Each entry of the stack opens a
group, negates, or binds more tightly than the entry below it. So a group holds an additive
operator at most, then a multiplicative one at most, then negations. This is why operators of one
level fold from the left.
-/
namespace LineCalc

variable {policy : ZeroDivision} {values : Values} {stack : Stack} {scope : List Pending}

def Climbs (below top : Pending) : Prop :=
  top = .group ∨ top = .negation ∨ below.level < top.level

/-- The pending operators between groups, from the bottom up. -/
def Stack.scopes (stack : Stack) : List (List Pending) :=
  (stack.map Prod.fst).reverse.splitOn .group

/-- At most one additive operator, then at most one multiplicative one, then negations. -/
def Layered (scope : List Pending) : Prop :=
  ∃ (low high : Option Operator) (negations : Nat),
    (∀ op ∈ low, op = .add ∨ op = .subtract) ∧ (∀ op ∈ high, op = .multiply ∨ op = .divide) ∧
      scope = low.toList.map .binary ++ high.toList.map .binary ++
        List.replicate negations .negation

theorem level_pos (op : Operator) : 0 < op.level := by cases op <;> decide

def StartsAbove (level : Nat) (scope : List Pending) : Prop :=
  ∀ first ∈ scope.head?, first = .negation ∨ level < first.level

theorem startsAbove_tail {below : Pending} (climbs : (below :: scope).IsChain Climbs)
    (inside : .group ∉ scope) : StartsAbove below.level scope := by
  intro top member
  have above := (List.isChain_cons.mp climbs).1 top member
  exact above.resolve_left fun group => inside (group ▸ List.mem_of_mem_head? member)

theorem negations_of_climbs (climbs : scope.IsChain Climbs) (inside : .group ∉ scope)
    (above : StartsAbove 2 scope) : ∃ n, scope = List.replicate n .negation := by
  induction scope with
  | nil => exact ⟨0, rfl⟩
  | cons first rest ih =>
    have negation : first = .negation := by
      rcases above first rfl with same | tight
      · exact same
      · cases first with
        | group => cases tight
        | negation => rfl
        | binary op => cases op <;> simp [Pending.level, Operator.level] at tight
    subst negation
    have further : .group ∉ rest := List.not_mem_of_not_mem_cons inside
    have higher : StartsAbove 2 rest := fun top member =>
      (startsAbove_tail climbs further top member).imp_right Nat.lt_of_succ_lt
    obtain ⟨n, rfl⟩ := ih climbs.tail further higher
    exact ⟨n + 1, rfl⟩

theorem split_level (level : Nat) (climbs : scope.IsChain Climbs) (inside : .group ∉ scope)
    (above : StartsAbove level scope) :
    ∃ (own : Option Operator) (rest : List Pending),
      scope = own.toList.map .binary ++ rest ∧ (∀ op ∈ own, op.level = level + 1) ∧
        rest.IsChain Climbs ∧ .group ∉ rest ∧ StartsAbove (level + 1) rest := by
  by_cases higher : StartsAbove (level + 1) scope
  · exact ⟨none, scope, rfl, by simp, climbs, inside, higher⟩
  · rcases scope with _ | ⟨first, rest⟩
    · exact absurd (by simp [StartsAbove]) higher
    · have further : .group ∉ rest := List.not_mem_of_not_mem_cons inside
      cases first with
      | group => exact absurd List.mem_cons_self inside
      | negation => exact absurd (by simp [StartsAbove]) higher
      | binary op =>
        have own : op.level = level + 1 := by
          simp only [StartsAbove, List.head?_cons, Option.mem_some, forall_eq', reduceCtorEq,
            false_or, Pending.level] at above higher
          omega
        have behind : StartsAbove (level + 1) rest := own ▸ startsAbove_tail climbs further
        exact ⟨some op, rest, rfl, by simpa using own, climbs.tail, further, behind⟩

theorem startsAbove_zero (inside : .group ∉ scope) : StartsAbove 0 scope := by
  intro first member
  cases first with
  | group => exact absurd (List.mem_of_mem_head? member) inside
  | negation => exact Or.inl rfl
  | binary op => exact Or.inr (level_pos op)

theorem layered_of_climbs (climbs : scope.IsChain Climbs) (inside : .group ∉ scope) :
    Layered scope := by
  obtain ⟨low, rest, rfl, additive, climbs, inside, above⟩ :=
    split_level 0 climbs inside (startsAbove_zero inside)
  obtain ⟨high, rest, rfl, multiplicative, climbs, inside, above⟩ :=
    split_level 1 climbs inside above
  obtain ⟨n, rfl⟩ := negations_of_climbs climbs inside above
  refine ⟨low, high, n, ?_, ?_, (List.append_assoc _ _ _).symm⟩
  · intro op member
    have level := additive op member
    cases op <;> simp [Operator.level] at level ⊢
  · intro op member
    have level := multiplicative op member
    cases op <;> simp [Operator.level] at level ⊢

theorem within_of_mem_splitOn {α : Type} [BEq α] [LawfulBEq α] {separator : α} {piece : List α}
    {whole : List α} (member : piece ∈ whole.splitOn separator) :
    piece <:+: whole ∧ separator ∉ piece := by
  by_cases found : separator ∈ whole
  · obtain ⟨front, back, rfl, first⟩ := List.eq_append_cons_of_mem found
    rw [List.splitOn_append_cons_self_of_not_mem first, List.mem_cons] at member
    rcases member with rfl | behind
    · exact ⟨(List.prefix_append piece _).isInfix, first⟩
    · obtain ⟨within, free⟩ := within_of_mem_splitOn behind
      exact ⟨within.trans ((List.suffix_cons separator back).trans
        (List.suffix_append front _)).isInfix, free⟩
  · rw [List.splitOn_eq_singleton found, List.mem_singleton] at member
    subst member
    exact ⟨List.infix_refl piece, found⟩
termination_by whole.length

def Stack.Climbing (stack : Stack) : Prop := (stack.map Prod.fst).reverse.IsChain Climbs

theorem climbing_nil : Stack.Climbing [] := .nil

theorem climbing_cons_iff {top : Pending × Nat} :
    Stack.Climbing (top :: stack) ↔
      stack.Climbing ∧ ∀ below ∈ stack.head?, Climbs below.1 top.1 := by
  rw [Stack.Climbing, List.map_cons, List.reverse_cons, List.isChain_append]
  simp [Stack.Climbing]

theorem climbing_suffix {below : Stack} (climbing : stack.Climbing) (suffix : below <:+ stack) :
    below.Climbing := by
  obtain ⟨above, rfl⟩ := suffix
  rw [Stack.Climbing, List.map_append, List.reverse_append] at climbing
  exact climbing.left_of_append

theorem layered_of_climbing (climbing : stack.Climbing) (member : scope ∈ stack.scopes) :
    Layered scope := by
  obtain ⟨⟨front, back, whole⟩, free⟩ := within_of_mem_splitOn member
  rw [Stack.Climbing, ← whole] at climbing
  exact layered_of_climbs climbing.left_of_append.right_of_append free

open Token

namespace Machine

variable {m m' : Machine} {t : Token} {ts before : List Token}

theorem climbing_of_takes (takes : Takes policy m t m') (climbing : m.stack.Climbing) :
    m'.stack.Climbing := by
  cases takes with
  | blank blank => exact climbing
  | number number reads => exact climbing
  | opens opens => exact climbing_cons_iff.mpr ⟨climbing, fun below _ => Or.inl rfl⟩
  | closes closes closed => exact climbing_suffix climbing (closeGroup_suffix closed)
  | negation minus wants =>
    exact climbing_cons_iff.mpr ⟨climbing, fun below _ => Or.inr (Or.inl rfl)⟩
  | @binary op values stack symbol behind reduced =>
    -- What is left below was not reduced: it is a group, or it binds less tightly.
    refine climbing_cons_iff.mpr ⟨climbing_suffix climbing (reduce_suffix reduced), ?_⟩
    intro below member
    refine Or.inr (Or.inr ?_)
    rcases reduce_holds reduced below member with group | lower
    · rw [group]
      exact level_pos op
    · exact lower

theorem climbing_of_run (ran : start.run policy ts = .ok m) : m.stack.Climbing := by
  induction ts using List.reverseRecOn generalizing m with
  | nil =>
    cases ran
    exact climbing_nil
  | append_singleton before t ih =>
    obtain ⟨mid, first, takes⟩ := run_snoc_ok ran
    exact climbing_of_takes takes (ih first)

/-- The top of the stack is the binary operator that the token stands for. -/
def pushes (m : Machine) (t : Token) : Bool :=
  m.stack.head?.any fun top => top.1.isBinary && t.symbol? = some top.1.symbol

def pushCount (policy : ZeroDivision) (ts : List Token) : Nat :=
  (List.range ts.length).countP fun i =>
    (start.run policy (ts.take (i + 1))).toOption.any fun m => ts[i]?.any m.pushes

theorem pushes_eq_isBinary (takes : Takes policy m t m')
    (wants : m.wantsOperand = !(solid before).getLast?.any endsOperand) :
    m'.pushes t = t.isBinary before := by
  cases takes with
  | blank blank =>
    have silent : t.symbol? = none := by simp [symbol?, blank]
    simp [pushes, isBinary_of_symbol_none silent, silent]
  | number number reads =>
    have silent := symbol_of_number number
    simp [pushes, isBinary_of_symbol_none silent, silent]
  | opens opens =>
    have symbol := opens_iff.mp opens
    simp [pushes, openGroup, isBinary_of_parenthesis (Or.inl symbol), Pending.isBinary]
  | @closes values stack closes closed =>
    have symbol := closes_iff.mp closes
    rw [isBinary_of_parenthesis (Or.inr symbol)]
    rcases stack with _ | ⟨⟨pending, place⟩, below⟩
    · rfl
    · cases pending with
      | group => rfl
      | negation => rfl
      | binary op =>
        simp [pushes, symbol, Pending.symbol, Ne.symm (operator_symbol_ne op).2]
  | negation minus negates =>
    have behind : (solid before).getLast?.any endsOperand = false := by simpa [wants] using negates
    simp [pushes, negate, isBinary_of_minus minus, behind, Pending.isBinary]
  | @binary op values stack symbol subtracts reduced =>
    have found : t.isBinary before = true := by
      refine isBinary_of_symbol symbol ?_
      intro same
      simpa [wants] using subtracts same
    simp [pushes, found, symbol, Pending.isBinary, Pending.symbol]

theorem pushCount_of_run (ran : start.run policy ts = .ok m) :
    pushCount policy ts = binaryCount ts := by
  refine List.countP_congr ?_
  intro i member
  have inside := List.mem_range.mp member
  have whole : start.run policy (ts.take (i + 1) ++ ts.drop (i + 1)) = .ok m := by
    rwa [List.take_append_drop]
  rw [run_append_bind] at whole
  obtain ⟨mid, first, _⟩ := bind_ok_iff.mp whole
  have last := first
  rw [List.take_succ_eq_append_getElem inside] at last
  obtain ⟨earlier, ran, takes⟩ := run_snoc_ok last
  simp [first, List.getElem?_eq_getElem inside, Except.toOption,
    pushes_eq_isBinary takes (wantsOperand_behind ran)]

/-- At every point of a run the scopes of the stack are layered, an operand is wanted unless one has
    just ended, and the values are the numbers less the binary operators that are not pending any
    more. -/
theorem stacks_of_run (policy : ZeroDivision) (ts : List Token) (m : Machine)
    (ran : start.run policy ts = .ok m) :
    (∀ scope ∈ m.stack.scopes, Layered scope) ∧
    (m.wantsOperand = false ↔
      ∃ t ∈ (solid ts).getLast?, t.kind = .number ∨ t.closes = true) ∧
    (m.values.length : Int) = numberCount ts - pushCount policy ts + m.stack.binaries := by
  refine ⟨fun scope => layered_of_climbing (climbing_of_run ran), ?_, ?_⟩
  · rw [wantsOperand_behind ran]
    simp [Option.any_eq_true, endsOperand]
  · have counted := length_of_run ran
    rw [pushCount_of_run ran]
    omega

theorem stacks_of_run_malformed :
    ∃ m, start.run .ieee (tokenize "1 2+3*-(4-".toList) = .ok m ∧
      m.stack.scopes = [[.binary .add, .binary .multiply, .negation], [.binary .subtract]] ∧
      (∀ scope ∈ m.stack.scopes, Layered scope) ∧ m.wantsOperand = true ∧
      (m.values.length : Int) = numberCount (tokenize "1 2+3*-(4-".toList) -
        pushCount .ieee (tokenize "1 2+3*-(4-".toList) + m.stack.binaries := by
  have cut : tokenize "1 2+3*-(4-".toList =
      [⟨['1'], .number, 0⟩, ⟨[' '], .blank, 1⟩, ⟨['2'], .number, 2⟩, ⟨['+'], .operator, 3⟩,
        ⟨['3'], .number, 4⟩, ⟨['*'], .operator, 5⟩, ⟨['-'], .operator, 6⟩, ⟨['('], .operator, 7⟩,
        ⟨['4'], .number, 8⟩, ⟨['-'], .operator, 9⟩] :=
    (tokenize_eq_steps _).trans rfl
  have ran : start.run .ieee (tokenize "1 2+3*-(4-".toList) = .ok
      ⟨[4, 3, 2, 1], [(.binary .subtract, 9), (.group, 7), (.negation, 6), (.binary .multiply, 5),
        (.binary .add, 3)], true⟩ := by
    rw [cut]
    rfl
  obtain ⟨layered, _, counted⟩ := stacks_of_run _ _ _ ran
  exact ⟨_, ran, rfl, layered, rfl, counted⟩

end Machine
end LineCalc
