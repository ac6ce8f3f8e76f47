import LineCalc.Proofs.Rules

/-!
Two evaluations in lockstep. The second one reads the same tokens at other places and with other
operators of the same levels, and it may allow zero divisors that the first one refuses. What
the operators preserve of the numbers is preserved by each step, so up to the first refusal
both evaluations have numbers that are alike, and they end with the same fault, which the second
one reports for the token that it has read.
-/
namespace LineCalc

/-- How a token of the first evaluation reads in the second one. -/
structure Reading where
  move : Nat → Nat
  operator : Operator → Operator
  level : ∀ op, (operator op).level = op.level
  minus : ∀ op, operator op = .subtract ↔ op = .subtract

namespace Reading

def sign (r : Reading) (c : Char) : Char :=
  match Operator.ofSymbol? c with
  | some op => (r.operator op).symbol
  | none => c

def token (r : Reading) (t : Token) : Token :=
  ⟨if t.kind = .operator then t.text.map r.sign else t.text, t.kind, r.move t.start⟩

def pending (r : Reading) : Pending → Pending
  | .group => .group
  | .negation => .negation
  | .binary op => .binary (r.operator op)

def entry (r : Reading) (top : Pending × Nat) : Pending × Nat := (r.pending top.1, r.move top.2)

def stack (r : Reading) (stack : Stack) : Stack := stack.map r.entry

def fault (r : Reading) : CalcError → CalcError
  | .unbalanced p => .unbalanced (r.move p)
  | .unknownCharacter c p => .unknownCharacter c (r.move p)
  | .missingOperand c p => .missingOperand (r.sign c) (r.move p)
  | .badNumber literal p => .badNumber literal (r.move p)
  | .notOneValue n => .notOneValue n
  | .notAnOperator c => .notAnOperator c
  | .zeroDivisor p => .zeroDivisor (r.move p)

end Reading

/-- The second result is the counterpart of the first one, unless that is a refusal. -/
inductive Lockstep (r : Reading) (refuses : Prop) {α β : Type} (alike : α → β → Prop) :
    Except CalcError α → Except CalcError β → Prop
  | value {a : α} {b : β} (related : alike a b) : Lockstep r refuses alike (.ok a) (.ok b)
  | fault (e : CalcError) : Lockstep r refuses alike (.error e) (.error (r.fault e))
  | refused {p : Nat} {second : Except CalcError β} (refused : refuses) :
      Lockstep r refuses alike (.error (.zeroDivisor p)) second

structure Reading.Respects (r : Reading) (policy policy' : ZeroDivision) (refuses : Prop)
    (alike : Float → Float → Prop) : Prop where
  number : ∀ value, alike value value
  negation : ∀ {value value'}, alike value value' → alike (-value) (-value')
  operator : ∀ (op : Operator) (start : Nat) {left right left' right' : Float},
    alike left left' → alike right right' →
      Lockstep r refuses alike (op.apply policy start left right)
        ((r.operator op).apply policy' (r.move start) left' right')

variable {r : Reading} {refuses : Prop} {policy policy' : ZeroDivision}

theorem lockstep_bind {α β γ δ : Type} {alike : α → β → Prop} {alike' : γ → δ → Prop}
    {first : Except CalcError α} {second : Except CalcError β}
    {next : α → Except CalcError γ} {next' : β → Except CalcError δ}
    (lockstep : Lockstep r refuses alike first second)
    (later : ∀ a b, alike a b → Lockstep r refuses alike' (next a) (next' b)) :
    Lockstep r refuses alike' (first >>= next) (second >>= next') := by
  cases lockstep with
  | value related => exact later _ _ related
  | fault e => exact .fault e
  | refused refused => exact .refused refused

section Signs

theorem sign_symbol (op : Operator) : r.sign op.symbol = (r.operator op).symbol := by
  rw [Reading.sign, Operator.ofSymbol?_symbol]

theorem sign_other {c : Char} (other : Operator.ofSymbol? c = none) : r.sign c = c := by
  rw [Reading.sign, other]

theorem sign_eq_iff {c d : Char} (other : Operator.ofSymbol? d = none) :
    r.sign c = d ↔ c = d := by
  cases found : Operator.ofSymbol? c with
  | none => rw [sign_other found]
  | some op =>
    obtain rfl := Operator.ofSymbol?_eq_some_iff.mp found
    rw [sign_symbol]
    constructor
    · rintro rfl
      rw [Operator.ofSymbol?_symbol] at other
      cases other
    · rintro rfl
      rw [found] at other
      cases other

theorem sign_minus : r.sign '-' = '-' := by
  have kept : r.operator .subtract = .subtract := (r.minus _).mpr rfl
  exact (sign_symbol .subtract).trans (congrArg Operator.symbol kept)

theorem symbol_eq_minus_iff (op : Operator) : op.symbol = '-' ↔ op = .subtract := by
  cases op <;> decide

theorem pending_eq_group_iff {top : Pending} : r.pending top = .group ↔ top = .group := by
  cases top <;> simp [Reading.pending]

theorem pending_level (top : Pending) : (r.pending top).level = top.level := by
  cases top with
  | group | negation => rfl
  | binary op => exact r.level op

theorem holds_stack (level : Nat) (stack : Stack) :
    Holds level (r.stack stack) ↔ Holds level stack := by
  cases stack with
  | nil => rfl
  | cons top stack =>
    rw [Reading.stack, List.map_cons, holds_cons, holds_cons, Reading.entry,
      pending_eq_group_iff, pending_level]

end Signs

section Tokens

theorem symbol_token (t : Token) : (r.token t).symbol? = t.symbol?.map r.sign := by
  obtain ⟨text, kind, start⟩ := t
  cases kind with
  | operator => cases text <;> rfl
  | number | blank | unknown => rfl

theorem opens_token (t : Token) : (r.token t).opens = t.opens := by
  have bracket (c : Char) : r.sign c = '(' ↔ c = '(' := sign_eq_iff rfl
  rw [Bool.eq_iff_iff, Token.opens_iff, Token.opens_iff, symbol_token]
  simp [bracket]

theorem closes_token (t : Token) : (r.token t).closes = t.closes := by
  have bracket (c : Char) : r.sign c = ')' ↔ c = ')' := sign_eq_iff rfl
  rw [Bool.eq_iff_iff, Token.closes_iff, Token.closes_iff, symbol_token]
  simp [bracket]

theorem known_token (ts : List Token) :
    Token.known (ts.map r.token) = (Token.known ts).map r.token := by
  rw [Token.known, List.filter_map]
  rfl

theorem refused_token (rules : Rules) (ts : List Token) :
    rules.refused? (ts.map r.token) = (rules.refused? ts).map r.token := by
  unfold Rules.refused?
  split
  · rw [List.find?_map]
    rfl
  · rfl

end Tokens

section Stacks

variable {alike : Float → Float → Prop}

def SameStacks (r : Reading) (alike : Float → Float → Prop) (s s' : Values × Stack) : Prop :=
  List.Forall₂ alike s.1 s'.1 ∧ s'.2 = r.stack s.2

variable (respects : r.Respects policy policy' refuses alike) {values values' : Values}
  (same : List.Forall₂ alike values values')
include respects same

theorem applyPending_lockstep (top : Pending × Nat) :
    Lockstep r refuses (List.Forall₂ alike) (applyPending policy values top)
      (applyPending policy' values' (r.entry top)) := by
  obtain ⟨pending, start⟩ := top
  cases pending with
  | group => exact .fault (.notAnOperator '(')
  | negation =>
    cases same with
    | nil =>
      have missing : r.fault (.missingOperand '-' start) = .missingOperand '-' (r.move start) := by
        rw [Reading.fault, sign_minus]
      simp only [applyPending, Reading.entry, Reading.pending, ← missing]
      exact .fault _
    | cons value rest => exact .value (.cons (respects.negation value) rest)
  | binary op =>
    have missing : r.fault (.missingOperand op.symbol start) =
        .missingOperand (r.operator op).symbol (r.move start) := by
      rw [Reading.fault, sign_symbol]
    rw [Reading.entry, Reading.pending]
    rcases same with _ | ⟨right, _ | ⟨left, rest⟩⟩
    · simp only [applyPending, ← missing]
      exact .fault _
    · simp only [applyPending, ← missing]
      exact .fault _
    · rw [applyPending_binary, applyPending_binary]
      exact lockstep_bind (respects.operator op start left right) fun _ _ related =>
        .value (.cons related rest)

theorem reduce_lockstep (level : Nat) (stack : Stack) :
    Lockstep r refuses (SameStacks r alike) (reduce policy level values stack)
      (reduce policy' level values' (r.stack stack)) := by
  induction stack generalizing values values' with
  | nil => exact .value ⟨same, rfl⟩
  | cons top stack ih =>
    have alike := holds_stack (r := r) level (top :: stack)
    by_cases holds : Holds level (top :: stack)
    · rw [reduce_of_holds holds, reduce_of_holds (alike.mpr holds)]
      exact .value ⟨same, rfl⟩
    · rw [reduce_cons_of_not_holds holds]
      rw [← alike, Reading.stack, List.map_cons] at holds
      rw [Reading.stack, List.map_cons, reduce_cons_of_not_holds holds]
      exact lockstep_bind (applyPending_lockstep respects same top) fun _ _ same => ih same

theorem closeGroup_lockstep (start : Nat) (stack : Stack) :
    Lockstep r refuses (SameStacks r alike) (closeGroup policy start values stack)
      (closeGroup policy' (r.move start) values' (r.stack stack)) := by
  induction stack generalizing values values' with
  | nil => exact .fault (.unbalanced start)
  | cons top stack ih =>
    by_cases group : top.1 = .group
    · obtain ⟨_, place⟩ := top
      obtain rfl := group
      exact .value ⟨same, rfl⟩
    · have group' : (r.entry top).1 ≠ .group := fun inner => group (pending_eq_group_iff.mp inner)
      rw [closeGroup_cons_of_other group, Reading.stack, List.map_cons,
        closeGroup_cons_of_other group']
      exact lockstep_bind (applyPending_lockstep respects same top) fun _ _ same => ih same

theorem applyAll_lockstep (stack : Stack) :
    Lockstep r refuses (List.Forall₂ alike) (applyAll policy values stack)
      (applyAll policy' values' (r.stack stack)) := by
  induction stack generalizing values values' with
  | nil => exact .value same
  | cons top stack ih =>
    rw [applyAll_cons, Reading.stack, List.map_cons, applyAll_cons]
    exact lockstep_bind (applyPending_lockstep respects same top) fun _ _ same => ih same

end Stacks

namespace Machine

variable {alike : Float → Float → Prop}

structure Alike (r : Reading) (alike : Float → Float → Prop) (m m' : Machine) : Prop where
  values : List.Forall₂ alike m.values m'.values
  stack : m'.stack = r.stack m.stack
  wants : m'.wantsOperand = m.wantsOperand

theorem alike_start : Alike r alike start start := ⟨.nil, rfl, rfl⟩

theorem onlyValue_lockstep {values values' : Values}
    (same : List.Forall₂ alike values values') :
    Lockstep r refuses alike (onlyValue values) (onlyValue values') := by
  have count := same.length_eq
  rcases same with _ | ⟨first, _ | ⟨second, more⟩⟩
  · exact .fault (.notOneValue 0)
  · exact .value first
  · simp only [onlyValue, ← count]
    exact .fault (.notOneValue _)

section Steps

variable (respects : r.Respects policy policy' refuses alike) {m m' : Machine}
  (same : Alike r alike m m')
include respects same

omit respects in
theorem push_stack (top : Pending × Nat) : r.entry top :: m'.stack = r.stack (top :: m.stack) :=
  congrArg (r.entry top :: ·) same.stack

theorem close_lockstep (start : Nat) :
    Lockstep r refuses (Alike r alike) (m.close policy start)
      (m'.close policy' (r.move start)) := by
  rw [close_eq, close_eq, same.stack]
  exact lockstep_bind (closeGroup_lockstep respects same.values start m.stack) fun s s' same =>
    .value ⟨same.1, same.2, rfl⟩

theorem binary_lockstep (op : Operator) (start : Nat) :
    Lockstep r refuses (Alike r alike) (m.binary policy op start)
      (m'.binary policy' (r.operator op) (r.move start)) := by
  rw [binary_eq, binary_eq, same.stack, r.level]
  exact lockstep_bind (reduce_lockstep respects same.values op.level m.stack) fun s s' same =>
    .value ⟨same.1, congrArg (r.entry (.binary op, start) :: ·) same.2, rfl⟩

theorem operator_lockstep (symbol : Char) (start : Nat) :
    Lockstep r refuses (Alike r alike) (m.operator policy symbol start)
      (m'.operator policy' (r.sign symbol) (r.move start)) := by
  have negated : Alike r alike (m.negate start) (m'.negate (r.move start)) :=
    ⟨same.values, push_stack same (.negation, start), same.wants⟩
  cases found : Operator.ofSymbol? symbol with
  | some op =>
    obtain rfl := Operator.ofSymbol?_eq_some_iff.mp found
    simp only [operator, sign_symbol, operator_symbol_ne, symbol_eq_minus_iff, r.minus,
      same.wants, Operator.ofSymbol?_symbol, ↓reduceIte]
    split
    · exact .value negated
    · exact binary_lockstep respects same op start
  | none =>
    rw [sign_other found]
    unfold operator
    split
    · exact .value ⟨same.values, push_stack same (.group, start), rfl⟩
    · split
      · exact close_lockstep respects same start
      · rw [same.wants, found]
        split
        · exact .value negated
        · exact .fault (.notAnOperator symbol)

theorem step_lockstep (t : Token) :
    Lockstep r refuses (Alike r alike) (m.step policy t) (m'.step policy' (r.token t)) := by
  obtain ⟨text, kind, start⟩ := t
  cases kind with
  | blank => exact .value same
  | unknown => exact .fault (.unknownCharacter text start)
  | number =>
    simp only [step, Reading.token, reduceCtorEq, ↓reduceIte]
    cases Decimal.read? text with
    | none => exact .fault (.badNumber text start)
    | some value => exact .value ⟨.cons (respects.number value) same.values, same.stack, rfl⟩
  | operator =>
    have sign : (text.map r.sign).headD '\x00' = r.sign (text.headD '\x00') := by
      cases text with
      | nil => exact (sign_other rfl).symm
      | cons c rest => rfl
    simp only [step, Reading.token, ↓reduceIte, sign]
    exact operator_lockstep respects same (text.headD '\x00') start

theorem run_lockstep (ts : List Token) :
    Lockstep r refuses (Alike r alike) (m.run policy ts)
      (m'.run policy' (ts.map r.token)) := by
  induction ts generalizing m m' with
  | nil => exact .value same
  | cons t ts ih =>
    rw [List.map_cons, run_cons, run_cons]
    exact lockstep_bind (step_lockstep respects same t) fun _ _ same => ih same

theorem result_lockstep :
    Lockstep r refuses alike (m.result policy) (m'.result policy') := by
  rw [result_eq_bind, result_eq_bind, same.stack]
  exact lockstep_bind (applyAll_lockstep respects same.values m.stack) fun _ _ =>
    onlyValue_lockstep

end Steps

end Machine

theorem Parens.balanceFrom_lockstep (pending : List Nat) (ts : List Token) :
    Lockstep r refuses (fun _ _ => True) (balanceFrom pending ts)
      (balanceFrom (pending.map r.move) (ts.map r.token)) := by
  induction ts generalizing pending with
  | nil =>
    cases pending with
    | nil => exact .value trivial
    | cons p outer => exact .fault (.unbalanced p)
  | cons t ts ih =>
    rw [List.map_cons]
    have opens' := opens_token (r := r) t
    have closes' := closes_token (r := r) t
    cases opens : t.opens with
    | true =>
      rw [opens] at opens'
      rw [balanceFrom_opens opens, balanceFrom_opens opens']
      exact ih (t.start :: pending)
    | false =>
      rw [opens] at opens'
      cases closes : t.closes with
      | false =>
        rw [closes] at closes'
        rw [balanceFrom_other opens closes, balanceFrom_other opens' closes']
        exact ih pending
      | true =>
        rw [closes] at closes'
        cases pending with
        | nil =>
          rw [balanceFrom_unopened opens closes, List.map_nil,
            balanceFrom_unopened opens' closes']
          exact .fault (.unbalanced t.start)
        | cons p outer =>
          rw [balanceFrom_closes opens closes, List.map_cons, balanceFrom_closes opens' closes']
          exact ih outer

namespace Rules

variable {alike : Float → Float → Prop} (respects : r.Respects policy policy' refuses alike)
include respects

theorem evaluateRaw_lockstep (unknowns : Unknowns) (ts : List Token) :
    Lockstep r refuses alike ((Rules.mk unknowns policy).evaluateRaw ts)
      ((Rules.mk unknowns policy').evaluateRaw (ts.map r.token)) := by
  rw [evaluateRaw_eq, evaluateRaw_eq]
  exact lockstep_bind (Machine.run_lockstep respects Machine.alike_start ts) fun _ _ =>
    Machine.result_lockstep respects

theorem evaluateTokens_lockstep (unknowns : Unknowns) (ts : List Token) :
    Lockstep r refuses alike ((Rules.mk unknowns policy).evaluateTokens ts)
      ((Rules.mk unknowns policy').evaluateTokens (ts.map r.token)) := by
  have moved := refused_token (r := r) (Rules.mk unknowns policy') ts
  cases refused : (Rules.mk unknowns policy).refused? ts with
  | some t =>
    have refused' : (Rules.mk unknowns policy').refused? ts = some t := refused
    have unknown : t.kind = .unknown := by
      simpa using List.find?_some (refused_eq_some_iff.mp refused).2
    have text : (r.token t).text = t.text := if_neg (by simp [unknown])
    rw [refused'] at moved
    rw [evaluateTokens_of_refused refused, evaluateTokens_of_refused moved, text]
    exact .fault (.unknownCharacter t.text t.start)
  | none =>
    have passed' : (Rules.mk unknowns policy').refused? ts = none := refused
    rw [passed'] at moved
    rw [evaluateTokens_of_passed refused, evaluateTokens_of_passed moved, known_token]
    exact lockstep_bind (Parens.balanceFrom_lockstep [] ts) fun _ _ _ =>
      evaluateRaw_lockstep respects unknowns (Token.known ts)

end Rules
end LineCalc
