import LineCalc.Proofs.Machine.Acceptance
import LineCalc.Proofs.Machine.Faults
import LineCalc.Proofs.Parens.Matching

/-!
Which operator a missing operand is blamed on. An operand is missing where one is wanted and
none starts, but the machine goes on there. It notices only when an operator is applied to too
few values, and that one may have waited longer, for an operand further to the right, or it may
stand behind a group without a value.
-/
namespace LineCalc

variable {policy : ZeroDivision} {values values' : Values} {stack stack' : Stack}
  {t : Token} {ts before after : List Token}

/-- Where an operand is wanted and none starts. -/
def Gap (before after : List Token) : Prop :=
  before.getLast?.any Token.endsOperand = false ∧ after.head?.any Token.startsFactor = false

/-- No operand ends directly before the operator, in binary use, or none starts directly
    behind it. -/
def LacksOperand (before : List Token) (t : Token) (after : List Token) : Prop :=
  ((t.binary? before).isSome ∧ before.getLast?.any Token.endsOperand = false) ∨
    after.head?.any Token.startsFactor = false

instance (before : List Token) (t : Token) (after : List Token) :
    Decidable (LacksOperand before t after) := inferInstanceAs (Decidable (_ ∨ _))

/-- Where an operand is missing, seen from the operator that is blamed for it: at the operator,
    further behind it before its group ends, or somewhere before it, where it stands behind a
    group and no number has come yet. -/
inductive Blamed (before : List Token) (t : Token) : List Token → Prop
  | own {after : List Token} (lacks : LacksOperand before t after) : Blamed before t after
  | behind {l r : List Token} (further : l ≠ []) (inside : StaysInside l) (gap : Gap l r) :
      Blamed before t (l ++ r)
  | empty {l r after : List Token} (group : before.getLast?.any Token.closes = true)
      (bare : ∀ u ∈ before, u.kind ≠ .number) (split : before = l ++ r) (within : r ≠ [])
      (gap : Gap l r) : Blamed before t after

def Blames (ts : List Token) (c : Char) (p : Nat) : Prop :=
  ∃ before t after, ts = before ++ t :: after ∧ t.start = p ∧ t.symbol? = some c ∧
    c ∈ "+-*/".toList ∧ Blamed before t after

section Gaps

variable {l r : List Token}

theorem gap_append_left (further : l ≠ []) (outer : List Token) :
    Gap (outer ++ l) r ↔ Gap l r := by
  rw [Gap, Gap, List.getLast?_append_of_ne_nil outer further]

theorem gap_append_right (within : r ≠ []) (rest : List Token) :
    Gap l (r ++ rest) ↔ Gap l r := by
  rw [Gap, Gap, List.head?_append_of_ne_nil r within]

theorem blamed_of_gap (inside : StaysInside l) (gap : Gap (before ++ t :: l) r) :
    Blamed before t (l ++ r) := by
  by_cases own : l = []
  · rw [own]
    exact .own (Or.inr gap.2)
  · rw [List.append_cons, gap_append_left own] at gap
    exact .behind own inside gap

theorem lacksOperand_of_blamed (blamed : Blamed before t after)
    (only : ∀ l r, before ++ t :: after = l ++ r → Gap l r → l = before ∨ l = before ++ [t]) :
    LacksOperand before t after := by
  cases blamed with
  | own lacks => exact lacks
  | @behind l r further inside gap =>
    have found := only (before ++ [t] ++ l) r (by simp) ((gap_append_left further _).mpr gap)
    simp [further] at found
  | @empty l r _ group bare split within gap =>
    have found := only l (r ++ t :: after) (by simp [split]) ((gap_append_right within _).mpr gap)
    simp [split, within] at found

end Gaps

theorem reduce_nonempty {level : Nat} (some : values ≠ [])
    (reduced : reduce policy level values stack = .ok (values', stack')) : values' ≠ [] := by
  induction stack generalizing values with
  | nil =>
    cases reduced
    exact some
  | cons top stack ih =>
    rcases reduce_cons_ok reduced with ⟨_, rfl, rfl⟩ | ⟨_, mid, applied, rest⟩
    · exact some
    · obtain ⟨value, others, rfl, _⟩ := applyPending_ok applied
      exact ih (List.cons_ne_nil value others) rest

namespace Machine

variable {m m' : Machine}

/-- A token at which a run wants an operand and none starts, or no operand is lost. -/
theorem operands_of_run (ran : m.run policy ts = .ok m') (solid : ∀ t ∈ ts, t.kind ≠ .blank) :
    m.operands + m'.stack.binaries ≤ m'.operands + m.stack.binaries ∨
      ∃ l u r mid, ts = l ++ u :: r ∧ m.run policy l = .ok mid ∧ mid.wantsOperand = true ∧
        u.startsFactor = false := by
  induction ts generalizing m with
  | nil =>
    cases ran
    exact Or.inl le_rfl
  | cons t ts ih =>
    rw [run_cons] at ran
    obtain ⟨mid, taken, later⟩ := bind_ok_iff.mp ran
    have counted := operands_of_takes (takes_of_step taken) (solid t (by simp))
    by_cases late : (m.wantsOperand && !t.startsFactor) = true
    · refine Or.inr ⟨[], t, ts, m, rfl, rfl, ?_⟩
      simpa using late
    · rw [if_neg late] at counted
      rcases ih later fun u member => solid u (by simp [member]) with kept | ⟨l, u, r, last, found⟩
      · exact Or.inl (by omega)
      · obtain ⟨rfl, first, wants, none⟩ := found
        refine Or.inr ⟨t :: l, u, r, last, rfl, ?_, wants, none⟩
        rw [run_cons, taken]
        exact first

theorem gap_of_run (ran : start.run policy ts = .ok m) (solid : ∀ t ∈ ts, t.kind ≠ .blank)
    (wants : m.wantsOperand = true) (none : after.head?.any Token.startsFactor = false) :
    Gap ts after := by
  have flag := wantsOperand_of_run ran solid
  rw [wants] at flag
  exact ⟨by simpa using flag.symm, none⟩

theorem values_of_takes (takes : Takes policy m t m') (nothing : m'.values = []) :
    m.values = [] ∧ t.kind ≠ .number := by
  cases takes with
  | blank blank => exact ⟨nothing, by simp [blank]⟩
  | number number reads => cases nothing
  | opens opens =>
    exact ⟨nothing, by simp [Token.kind_of_symbol (Token.opens_iff.mp opens)]⟩
  | closes closes closed =>
    obtain ⟨place, reduced⟩ := closeGroup_ok_iff.mp closed
    refine ⟨?_, by simp [Token.kind_of_symbol (Token.closes_iff.mp closes)]⟩
    by_contra some
    exact reduce_nonempty some reduced nothing
  | negation minus wants => exact ⟨nothing, by simp [Token.kind_of_symbol minus]⟩
  | binary symbol behind reduced =>
    refine ⟨?_, by simp [Token.kind_of_symbol symbol]⟩
    by_contra some
    exact reduce_nonempty some reduced nothing

theorem no_number_of_run (ran : start.run policy ts = .ok m) (nothing : m.values = []) :
    ∀ t ∈ ts, t.kind ≠ .number := by
  induction ts using List.reverseRecOn generalizing m with
  | nil => simp
  | append_singleton before t ih =>
    obtain ⟨mid, first, takes⟩ := run_snoc_ok ran
    obtain ⟨earlier, other⟩ := values_of_takes takes nothing
    intro u member
    rcases List.mem_append.mp member with inside | last
    · exact ih first earlier u inside
    · rw [List.mem_singleton.mp last]
      exact other

theorem staysInside_of_runsAbove (runs : RunsAbove policy m.stack m m' ts) : StaysInside ts := by
  intro l short
  obtain ⟨mid, ran, rests⟩ := runs.2 l short
  have counted := groups_length_of_run ran
  have kept : m.stack.groups.length ≤ mid.stack.groups.length := (rests.filterMap _).length_le
  omega

theorem reduced_of_takes {op : Operator} {p : Nat} {below : Stack} (takes : Takes policy m t m')
    (stands : t.StandsFor (.binary op, p)) (pushed : m'.stack = (.binary op, p) :: below) :
    (op = .subtract → m.wantsOperand = false) ∧
      reduce policy op.level m.values m.stack = .ok (m'.values, below) := by
  have symbol := stands.1
  cases takes with
  | blank blank => simp [Token.kind_of_symbol symbol] at blank
  | number number reads => simp [Token.kind_of_symbol symbol] at number
  | opens opens =>
    rw [Token.opens_iff, symbol] at opens
    exact absurd (Option.some.inj opens) (operator_symbol_ne op).1
  | closes closes closed =>
    rw [Token.closes_iff, symbol] at closes
    exact absurd (Option.some.inj closes) (operator_symbol_ne op).2
  | negation minus wants => cases pushed
  | binary symbol' behind reduced =>
    cases pushed
    exact ⟨behind, reduced⟩

theorem blamed_of_bare {op : Operator} {below : Stack} (ran : start.run policy before = .ok m)
    (solid : ∀ u ∈ before, u.kind ≠ .blank) (symbol : t.symbol? = some op.symbol)
    (behind : op = .subtract → m.wantsOperand = false)
    (reduced : reduce policy op.level m.values m.stack = .ok ([], below)) (after : List Token) :
    Blamed before t after := by
  have nothing : m.values = [] := by
    by_contra some
    exact reduce_nonempty some reduced rfl
  have flag := wantsOperand_of_run ran solid
  cases wants : m.wantsOperand with
  | true =>
    have found : (t.binary? before).isSome := by
      cases op with
      | subtract =>
        rw [behind rfl] at wants
        cases wants
      | add | multiply | divide =>
        simp [Token.binary?, symbol, Operator.symbol, Operator.ofSymbol?]
    rw [wants] at flag
    exact .own (Or.inl ⟨found, by simpa using flag.symm⟩)
  | false =>
    have bare := no_number_of_run ran nothing
    have group : before.getLast?.any Token.closes = true := by
      rw [wants] at flag
      cases last : before.getLast? with
      | none => simp [last] at flag
      | some u =>
        simpa [last, Token.endsOperand, bare u (List.mem_of_getLast? last)] using flag
    rcases operands_of_run ran solid with kept | ⟨l, u, r, mid, rfl, first, wants', none⟩
    · -- With all its operands this part of the text would have had a value.
      simp [start, operands, nothing, wants, Stack.binaries] at kept
    · have earlier : ∀ v ∈ l, v.kind ≠ .blank := fun v member => solid v (by simp [member])
      exact .empty group bare rfl (List.cons_ne_nil u r)
        (gap_of_run first earlier wants' (by simp [none]))

theorem wantsOperand_of_stands {top : Pending × Nat} (takes : Takes policy m t m')
    (other : top.1 ≠ .group) (stands : t.StandsFor top) : m'.wantsOperand = true := by
  have solid : t.kind ≠ .blank := by simp [Token.kind_of_symbol stands.1]
  rw [wantsOperand_of_takes takes solid, Token.endsOperand_of_symbol stands.1]
  have arithmetic := symbol_mem_of_not_group other
  simp only [Bool.not_eq_true', decide_eq_false_iff_not]
  intro closes
  rw [closes] at arithmetic
  exact absurd arithmetic (by decide)

theorem values_lt_of_operands {above below : Stack} {top : Pending × Nat} {left : Values}
    (pushed : m.stack = top :: below) (split : m'.stack = above ++ top :: below)
    (counted : left.length + above.binaries = m'.values.length) (waits : m.wantsOperand = true)
    (ended : m'.wantsOperand = false)
    (kept : m.operands + m'.stack.binaries ≤ m'.operands + m.stack.binaries) :
    m.values.length < left.length := by
  simp only [operands, waits, ended, split, pushed, Stack.binaries, List.countP_append,
    Bool.false_eq_true, ↓reduceIte] at kept
  simp only [Stack.binaries] at counted
  omega

/-- An operator that finds too few values lacks an operand, or its own operand lacks one. -/
theorem blamed_of_fails {c : Char} {p : Nat} (rest : List Token)
    (ran : start.run policy ts = .ok m) (solid : ∀ t ∈ ts, t.kind ≠ .blank)
    (fails : Fails policy m.values m.stack (.missingOperand c p))
    (unplaced : m.wantsOperand = true → rest.head?.any Token.startsFactor = false) :
    Blames (ts ++ rest) c p := by
  obtain ⟨above, top, below, left, split, other, counted, failed⟩ := fails
  have waits : top :: below <:+ m.stack := by
    rw [split]
    exact List.suffix_append above _
  cases inapplicable_of_error failed with | operand _ few =>
  obtain @⟨before, inside, t, outer, inner, ran', taken, stands, pushed, runs⟩ :=
    origin_of_run ran waits
  refine ⟨before, t, inside ++ rest, by simp, stands.2, stands.1,
    symbol_mem_of_not_group other, ?_⟩
  have takes := takes_of_step taken
  have within : StaysInside inside := staysInside_of_runsAbove (pushed ▸ runs)
  rcases operands_of_run runs.1 fun u member => solid u (by simp [member]) with
    kept | ⟨l, u, r, mid, rfl, first, wants, none⟩
  · cases wants : m.wantsOperand with
    | true => exact blamed_of_gap within (gap_of_run ran solid wants (unplaced wants))
    | false =>
      -- All operands behind the operator are there, so it is the left one that it did not find.
      have fewer := values_lt_of_operands pushed split counted
        (wantsOperand_of_stands takes other stands) wants kept
      have bare := Nat.lt_of_lt_of_le fewer few
      obtain ⟨pending, start⟩ := top
      cases pending with
      | group => exact absurd rfl other
      | negation => exact absurd bare (Nat.not_lt_zero _)
      | binary op =>
        obtain ⟨behind, reduced⟩ := reduced_of_takes takes stands pushed
        rw [List.length_eq_zero_iff.mp (Nat.lt_one_iff.mp bare)] at reduced
        exact blamed_of_bare ran' (fun u member => solid u (by simp [member])) stands.1 behind
          reduced _
  · have read : start.run policy (before ++ t :: l) = .ok mid := by
      rw [run_append_bind, ran']
      change outer.run policy (t :: l) = .ok mid
      rw [run_cons, taken]
      exact first
    have earlier : ∀ v ∈ before ++ t :: l, v.kind ≠ .blank := fun v member =>
      solid v (by simp only [List.mem_append, List.mem_cons] at member ⊢; tauto)
    have gap : Gap (before ++ t :: l) (u :: r ++ rest) :=
      gap_of_run read earlier wants (by simp [none])
    have blamed := blamed_of_gap (staysInside_mono within (List.prefix_append l (u :: r))) gap
    rwa [← List.append_assoc] at blamed

theorem not_missing_of_startsFactor {c : Char} {p : Nat} (wants : m.wantsOperand = true)
    (starts : t.startsFactor = true) : m.step policy t ≠ .error (.missingOperand c p) := by
  intro failed
  simp only [Token.startsFactor, Token.startsOperand, Bool.or_eq_true, decide_eq_true_eq] at starts
  rcases starts with (number | opens) | minus
  · cases reads : Decimal.read? t.text with
    | none => simp [step, number, reads] at failed
    | some value =>
      rw [step_of_number number reads] at failed
      cases failed
  · rw [step_of_opens opens] at failed
    cases failed
  · rw [step_of_negation minus wants] at failed
    cases failed

theorem blamed_of_run {c : Char} {p : Nat} (solid : ∀ t ∈ ts, t.kind ≠ .blank)
    (failed : start.run policy ts = .error (.missingOperand c p)) : Blames ts c p := by
  obtain ⟨read, u, rest, m, rfl, ran, stops⟩ := run_error failed
  have solidRead : ∀ v ∈ read, v.kind ≠ .blank := fun v member => solid v (by simp [member])
  cases stops_of_step stops with
  | misread misread => cases misread
  | fails fails =>
    refine blamed_of_fails (u :: rest) ran solidRead fails ?_
    intro wants
    cases starts : u.startsFactor with
    | false => simpa using starts
    | true => exact absurd stops (not_missing_of_startsFactor wants starts)

theorem blamed_of_result {c : Char} {p : Nat} (ran : start.run policy ts = .ok m)
    (solid : ∀ t ∈ ts, t.kind ≠ .blank)
    (failed : m.result policy = .error (.missingOperand c p)) : Blames ts c p := by
  rw [result_eq_bind] at failed
  rcases bind_error_iff.mp failed with applying | ⟨values, _, counted⟩
  · rcases applyAll_error applying with fails | ⟨_, same⟩
    · have blamed := blamed_of_fails [] ran solid fails fun _ => rfl
      rwa [List.append_nil] at blamed
    · cases same
  · obtain ⟨same, _⟩ := onlyValue_error counted
    cases same

end Machine

theorem Rules.blamed_of_evaluateRaw {rules : Rules} {c : Char} {p : Nat}
    (solid : ∀ t ∈ ts, t.kind ≠ .blank)
    (failed : rules.evaluateRaw ts = .error (.missingOperand c p)) : Blames ts c p := by
  rw [evaluateRaw_eq] at failed
  rcases bind_error_iff.mp failed with running | ⟨m, ran, finished⟩
  · exact Machine.blamed_of_run solid running
  · exact Machine.blamed_of_result ran solid finished

end LineCalc
