import LineCalc.Decimal.Numeral
import LineCalc.Proofs.Formula
import LineCalc.Proofs.Parens
import Mathlib.Data.List.Chain

/-!
Expressions as a grammar: a sum chains terms, a term chains factors, and a
factor is a number, a sum in parentheses or a negated factor. A derivation
carries the formula that it reads.
-/
namespace LineCalc

namespace Token

def endsOperand (t : Token) : Bool := t.kind = .number || t.closes

def startsOperand (t : Token) : Bool := t.kind = .number || t.opens

def startsFactor (t : Token) : Bool := t.startsOperand || t.symbol? = some '-'

def Counts (t : Token) : Prop := t.kind ≠ .blank ∧ t.kind ≠ .unknown

instance (t : Token) : Decidable t.Counts := inferInstanceAs (Decidable (_ ∧ _))

def solid (ts : List Token) : List Token := ts.filter fun t => t.kind ≠ .blank

def known (ts : List Token) : List Token := ts.filter fun t => t.kind ≠ .unknown

def counted (ts : List Token) : List Token := ts.filter fun t => t.Counts

/-- The binary operator at t behind the tokens before it; a minus is one only where an operand
    has ended. -/
def binary? (before : List Token) (t : Token) : Option Operator :=
  if t.symbol? = some '-' ∧ before.getLast?.any endsOperand = false then none
  else t.symbol?.bind Operator.ofSymbol?

theorem solid_known (ts : List Token) : solid (known ts) = counted ts := by
  rw [solid, known, counted, List.filter_filter]
  refine List.filter_congr fun t _ => ?_
  rw [Bool.eq_iff_iff, decide_eq_true_iff]
  simp [Counts]

theorem known_eq_self {ts : List Token} (all : ∀ t ∈ ts, t.kind ≠ .unknown) :
    known ts = ts := by
  simpa [known, List.filter_eq_self] using all

theorem mem_known {t : Token} {ts : List Token} :
    t ∈ known ts ↔ t ∈ ts ∧ t.kind ≠ .unknown := by
  simp [known]

theorem opens_iff {t : Token} : t.opens = true ↔ t.symbol? = some '(' := by simp [opens]

theorem closes_iff {t : Token} : t.closes = true ↔ t.symbol? = some ')' := by simp [closes]

theorem kind_of_symbol {t : Token} {c : Char} (symbol : t.symbol? = some c) :
    t.kind = .operator := by
  unfold symbol? at symbol
  split at symbol
  · assumption
  · cases symbol

theorem counts_of_number {t : Token} (number : t.kind = .number) : t.Counts := by
  simp [Counts, number]

theorem counts_of_symbol {t : Token} {c : Char} (symbol : t.symbol? = some c) : t.Counts := by
  simp [Counts, kind_of_symbol symbol]

theorem endsOperand_of_symbol {t : Token} {c : Char} (symbol : t.symbol? = some c) :
    t.endsOperand = decide (c = ')') := by
  simp [endsOperand, kind_of_symbol symbol, closes, symbol]

theorem startsOperand_of_symbol {t : Token} {c : Char} (symbol : t.symbol? = some c) :
    t.startsOperand = decide (c = '(') := by
  simp [startsOperand, kind_of_symbol symbol, opens, symbol]

theorem symbol_of_number {t : Token} (number : t.kind = .number) : t.symbol? = none := by
  simp [symbol?, number]

theorem symbol_of_binary {before : List Token} {t : Token} {op : Operator}
    (found : t.binary? before = some op) : t.symbol? = some op.symbol := by
  unfold binary? at found
  split at found
  · cases found
  · obtain ⟨c, symbol, same⟩ := Option.bind_eq_some_iff.mp found
    rw [symbol, Operator.ofSymbol?_eq_some_iff.mp same]

theorem binary?_append {before : List Token} (nonempty : before ≠ []) (outer : List Token)
    (t : Token) : t.binary? (outer ++ before) = t.binary? before := by
  simp [binary?, List.getLast?_append_of_ne_nil outer nonempty]

theorem binary?_cons {first : Token} (silent : first.endsOperand = false)
    (before : List Token) (t : Token) : t.binary? (first :: before) = t.binary? before := by
  cases h : before.getLast? <;> simp [binary?, List.getLast?_cons, h, silent]

end Token

inductive Form
  | sum
  | term
  | factor
  deriving DecidableEq, Repr

def Form.level : Form → Nat
  | .sum => 1
  | .term => 2
  | .factor => 3

inductive Derives : Form → Formula → List Token → Prop
  | number {t : Token} {value : Float} (number : t.kind = .number)
      (reads : Decimal.read? t.text = some value) : Derives .factor (.number value) [t]
  | group {l r : Token} {f : Formula} {ts : List Token} (opens : l.opens = true)
      (closes : r.closes = true) (inner : Derives .sum f ts) :
      Derives .factor f (l :: ts ++ [r])
  | negation {t : Token} {f : Formula} {ts : List Token} (minus : t.symbol? = some '-')
      (operand : Derives .factor f ts) : Derives .factor (.negation f) (t :: ts)
  | term {f : Formula} {ts : List Token} (single : Derives .factor f ts) : Derives .term f ts
  | product {op : Operator} {t : Token} {f g : Formula} {ts us : List Token}
      (tight : op.level = 2) (symbol : t.symbol? = some op.symbol)
      (left : Derives .term f ts) (right : Derives .factor g us) :
      Derives .term (.binary op t.start f g) (ts ++ t :: us)
  | sum {f : Formula} {ts : List Token} (single : Derives .term f ts) : Derives .sum f ts
  | addition {op : Operator} {t : Token} {f g : Formula} {ts us : List Token}
      (loose : op.level = 1) (symbol : t.symbol? = some op.symbol)
      (left : Derives .sum f ts) (right : Derives .term g us) :
      Derives .sum (.binary op t.start f g) (ts ++ t :: us)

/-- An operand is followed by no other, and nothing closes before an operand has ended. -/
def Joins (l r : Token) : Prop :=
  (l.endsOperand = true → r.startsOperand = false) ∧ (r.closes = true → l.endsOperand = true)

theorem operator_symbol_ne (op : Operator) : op.symbol ≠ '(' ∧ op.symbol ≠ ')' := by
  cases op <;> decide

theorem startsFactor_of_closes {t : Token} (closes : t.closes = true) :
    t.startsFactor = false := by
  have symbol := Token.closes_iff.mp closes
  simp [Token.startsFactor, Token.startsOperand_of_symbol symbol, symbol]

theorem joins_starting {l r : Token} (waits : l.endsOperand = false)
    (starts : r.startsFactor = true) : Joins l r := by
  refine ⟨?_, ?_⟩
  · intro ends; rw [waits] at ends; cases ends
  · intro closes; rw [startsFactor_of_closes closes] at starts; cases starts

theorem joins_ending {l r : Token} (ends : l.endsOperand = true)
    (silent : r.startsOperand = false) : Joins l r :=
  ⟨fun _ => silent, fun _ => ends⟩

theorem operator_silent {t : Token} {op : Operator} (symbol : t.symbol? = some op.symbol) :
    t.startsOperand = false ∧ t.endsOperand = false := by
  rw [Token.startsOperand_of_symbol symbol, Token.endsOperand_of_symbol symbol]
  simp [operator_symbol_ne op]

def IsExpression (ts : List Token) : Prop := ∃ f, Derives .sum f ts

def HasOperands (before after : List Token) : Prop :=
  ∃ outer left right rest, before = outer ++ left ∧ after = right ++ rest ∧
    IsExpression left ∧ IsExpression right

theorem hasOperands_widen {before after : List Token} (operands : HasOperands before after)
    (outer rest : List Token) : HasOperands (outer ++ before) (after ++ rest) := by
  obtain ⟨front, left, right, back, rfl, rfl, hl, hr⟩ := operands
  exact ⟨outer ++ front, left, right, back ++ rest, by simp, by simp, hl, hr⟩

theorem derives_lift {form target : Form} {f : Formula} {ts : List Token}
    (derives : Derives form f ts) (le : target.level ≤ form.level) : Derives target f ts := by
  cases form with
  | sum =>
    cases target with
    | sum => exact derives
    | term | factor => exact absurd le (by decide)
  | term =>
    cases target with
    | sum => exact derives.sum
    | term => exact derives
    | factor => exact absurd le (by decide)
  | factor =>
    cases target with
    | sum => exact derives.term.sum
    | term => exact derives.term
    | factor => exact derives

theorem isExpression_of_derives {form : Form} {f : Formula} {ts : List Token}
    (derives : Derives form f ts) : IsExpression ts :=
  ⟨f, derives_lift derives (by cases form <;> decide)⟩

theorem derives_chain {form high : Form} {op : Operator} {t : Token} {f g : Formula}
    {ts us : List Token} (level : op.level = form.level) (symbol : t.symbol? = some op.symbol)
    (left : Derives form f ts) (right : Derives high g us) (tighter : op.level < high.level) :
    Derives form (.binary op t.start f g) (ts ++ t :: us) := by
  rw [level] at tighter
  cases form with
  | sum => exact .addition level symbol left (derives_lift right tighter)
  | term => exact .product level symbol left (derives_lift right tighter)
  | factor => cases op <;> cases level

section Shape

variable {form : Form} {f : Formula} {ts : List Token}

theorem derives_counts (derives : Derives form f ts) : ∀ t ∈ ts, t.Counts := by
  induction derives with
  | number number =>
    intro t member
    rw [List.mem_singleton.mp member]
    exact Token.counts_of_number number
  | @group l r _ ts opens closes inner ih =>
    intro t member
    rcases List.mem_append.mp member with inside | last
    · rcases List.mem_cons.mp inside with rfl | inside
      · exact Token.counts_of_symbol (Token.opens_iff.mp opens)
      · exact ih t inside
    · rw [List.mem_singleton.mp last]
      exact Token.counts_of_symbol (Token.closes_iff.mp closes)
  | negation minus operand ih =>
    intro t member
    rcases List.mem_cons.mp member with rfl | inside
    · exact Token.counts_of_symbol minus
    · exact ih t inside
  | term single ih | sum single ih => exact ih
  | product level symbol left right hl hr | addition level symbol left right hl hr =>
    intro t member
    rcases List.mem_append.mp member with before | behind
    · exact hl t before
    · rcases List.mem_cons.mp behind with rfl | after
      · exact Token.counts_of_symbol symbol
      · exact hr t after

theorem derives_ends (derives : Derives form f ts) :
    ∃ before last, ts = before ++ [last] ∧ last.endsOperand = true := by
  induction derives with
  | @number t _ number => exact ⟨[], t, rfl, by simp [Token.endsOperand, number]⟩
  | @group l r _ ts opens closes inner ih =>
    exact ⟨l :: ts, r, rfl, by simp [Token.endsOperand, closes]⟩
  | @negation t _ _ minus operand ih =>
    obtain ⟨before, last, rfl, ends⟩ := ih
    exact ⟨t :: before, last, rfl, ends⟩
  | term single ih | sum single ih => exact ih
  | @product _ t _ _ ts _ level symbol left right hl hr
  | @addition _ t _ _ ts _ level symbol left right hl hr =>
    obtain ⟨before, last, rfl, ends⟩ := hr
    exact ⟨ts ++ t :: before, last, by simp, ends⟩

theorem derives_starts (derives : Derives form f ts) :
    ∃ first behind, ts = first :: behind ∧ first.startsFactor = true := by
  induction derives with
  | @number t _ number =>
    exact ⟨t, [], rfl, by simp [Token.startsFactor, Token.startsOperand, number]⟩
  | @group l r _ ts opens closes inner ih =>
    exact ⟨l, ts ++ [r], rfl, by simp [Token.startsFactor, Token.startsOperand, opens]⟩
  | @negation t _ ts minus operand ih => exact ⟨t, ts, rfl, by simp [Token.startsFactor, minus]⟩
  | term single ih | sum single ih => exact ih
  | @product _ t _ _ _ us level symbol left right hl hr
  | @addition _ t _ _ _ us level symbol left right hl hr =>
    obtain ⟨first, behind, rfl, starts⟩ := hl
    exact ⟨first, behind ++ t :: us, rfl, starts⟩

theorem joins_first {l : Token} (waits : l.endsOperand = false) (derives : Derives form f ts) :
    ∀ r ∈ ts.head?, Joins l r := by
  obtain ⟨first, behind, rfl, starts⟩ := derives_starts derives
  intro r member
  cases member
  exact joins_starting waits starts

theorem joins_last {r : Token} (silent : r.startsOperand = false) (derives : Derives form f ts) :
    ∀ l ∈ ts.getLast?, Joins l r := by
  obtain ⟨before, last, rfl, ends⟩ := derives_ends derives
  intro l member
  obtain rfl : last = l := by simpa using member
  exact joins_ending ends silent

theorem derives_joins (derives : Derives form f ts) : ts.IsChain Joins := by
  induction derives with
  | number => exact List.IsChain.singleton _
  | @group l r _ ts opens closes inner ih =>
    have waits : l.endsOperand = false := by
      simp [Token.endsOperand_of_symbol (Token.opens_iff.mp opens)]
    have silent : r.startsOperand = false := by
      simp [Token.startsOperand_of_symbol (Token.closes_iff.mp closes)]
    obtain ⟨before, last, same, _⟩ := derives_ends inner
    rw [List.isChain_append, List.isChain_cons]
    refine ⟨⟨joins_first waits inner, ih⟩, List.IsChain.singleton r, ?_⟩
    intro t member u closing
    cases closing
    have inside : t ∈ ts.getLast? := by simpa [same, List.getLast?_cons] using member
    exact joins_last silent inner t inside
  | @negation t _ ts minus operand ih =>
    have minus : t.symbol? = some Operator.subtract.symbol := minus
    exact List.isChain_cons.mpr ⟨joins_first (operator_silent minus).2 operand, ih⟩
  | term single ih | sum single ih => exact ih
  | @product _ t _ _ ts us level symbol left right hl hr
  | @addition _ t _ _ ts us level symbol left right hl hr =>
    obtain ⟨silent, waits⟩ := operator_silent symbol
    rw [List.isChain_append, List.isChain_cons]
    refine ⟨hl, ⟨joins_first waits right, hr⟩, ?_⟩
    intro l member r found
    cases found
    exact joins_last silent left l member

theorem derives_zeroDivisions (derives : Derives form f ts) :
    ∀ start ∈ f.zeroDivisions, ∃ t ∈ ts, t.symbol? = some '/' ∧ t.start = start := by
  induction derives with
  | number => intro start member; cases member
  | group opens closes inner ih =>
    intro start member
    obtain ⟨t, found, division⟩ := ih start member
    exact ⟨t, by simp [found], division⟩
  | negation minus operand ih =>
    intro start member
    obtain ⟨t, found, division⟩ := ih start member
    exact ⟨t, by simp [found], division⟩
  | term single ih | sum single ih => exact ih
  | @product op u _ _ ts us level symbol left right hl hr
  | @addition op u _ _ ts us level symbol left right hl hr =>
    intro start member
    rcases List.mem_append.mp member with operands | own
    · rcases List.mem_append.mp operands with before | behind
      · obtain ⟨t, found, division⟩ := hl start before
        exact ⟨t, by simp [found], division⟩
      · obtain ⟨t, found, division⟩ := hr start behind
        exact ⟨t, by simp [found], division⟩
    · split at own
      · next zero =>
        rw [List.mem_singleton.mp own]
        exact ⟨u, by simp, by rw [symbol, zero.1]; rfl, rfl⟩
      · cases own

theorem derives_balance (derives : Derives form f ts) (pending : List Nat)
    (rest : List Token) :
    Parens.balanceFrom pending (ts ++ rest) = Parens.balanceFrom pending rest := by
  induction derives generalizing pending rest with
  | number number =>
    have silent := Parens.silent_of_kind (by rw [number]; decide)
    exact Parens.balanceFrom_other silent.1 silent.2 pending
  | @group l r _ ts opens closes inner ih =>
    have still := Parens.not_opens_of_closes closes
    rw [List.append_assoc, List.cons_append, Parens.balanceFrom_opens opens, ih]
    exact Parens.balanceFrom_closes still closes l.start pending
  | @negation t _ ts minus operand ih =>
    have silent := Parens.silent_of_symbol minus (by decide)
    rw [List.cons_append, Parens.balanceFrom_other silent.1 silent.2, ih]
  | term single ih | sum single ih => exact ih pending rest
  | @product op t _ _ ts us level symbol left right hl hr
  | @addition op t _ _ ts us level symbol left right hl hr =>
    have silent := Parens.silent_of_symbol symbol (operator_symbol_ne op)
    rw [List.append_assoc, hl, List.cons_append,
      Parens.balanceFrom_other silent.1 silent.2, hr]

theorem split_append {xs ys before after : List Token} {t : Token}
    (split : xs ++ ys = before ++ t :: after) :
    (∃ mid, xs = before ++ t :: mid ∧ after = mid ++ ys) ∨
      ∃ mid, before = xs ++ mid ∧ ys = mid ++ t :: after := by
  rcases List.append_eq_append_iff.mp split with ⟨mid, left, right⟩ | ⟨mid, left, right⟩
  · exact Or.inr ⟨mid, left, right⟩
  · cases mid with
    | nil => exact Or.inr ⟨[], by simpa using left.symm, by simpa using right.symm⟩
    | cons first mid =>
      obtain ⟨rfl, rfl⟩ := List.cons.inj right
      exact Or.inl ⟨mid, left, rfl⟩

theorem split_cons {first : Token} {ts before after : List Token} {t : Token}
    (split : first :: ts = before ++ t :: after) :
    (before = [] ∧ t = first ∧ after = ts) ∨
      ∃ mid, before = first :: mid ∧ ts = mid ++ t :: after := by
  rcases List.cons_eq_append_iff.mp split with ⟨rfl, same⟩ | more
  · obtain ⟨rfl, rfl⟩ := List.cons.inj same
    exact Or.inl ⟨rfl, rfl, rfl⟩
  · exact Or.inr more

theorem derives_operands (derives : Derives form f ts) {before after : List Token}
    {t : Token} {op : Operator} (split : ts = before ++ t :: after)
    (found : t.binary? before = some op) : HasOperands before after := by
  induction derives generalizing before after with
  | @number u _ number =>
    rcases split_cons split with ⟨_, rfl, _⟩ | ⟨mid, _, nothing⟩
    · have symbol := Token.symbol_of_binary found
      rw [Token.symbol_of_number number] at symbol
      cases symbol
    · simp at nothing
  | @group l r _ ts opens closes inner ih =>
    have silent : l.endsOperand = false := by
      simp [Token.endsOperand_of_symbol (Token.opens_iff.mp opens)]
    have symbol := Token.symbol_of_binary found
    have outside := operator_symbol_ne op
    rcases split_cons split with ⟨_, rfl, _⟩ | ⟨mid, rfl, inside⟩
    · rw [Token.opens_iff.mp opens] at symbol
      exact absurd (Option.some.inj symbol).symm outside.1
    · rw [Token.binary?_cons silent] at found
      rcases split_append inside with ⟨behind, within, rfl⟩ | ⟨behind, rfl, last⟩
      · exact hasOperands_widen (ih within found) [l] [r]
      · rcases split_cons last with ⟨_, rfl, _⟩ | ⟨_, _, nothing⟩
        · rw [Token.closes_iff.mp closes] at symbol
          exact absurd (Option.some.inj symbol).symm outside.2
        · simp at nothing
  | @negation u _ ts minus operand ih =>
    have minus : u.symbol? = some Operator.subtract.symbol := minus
    rcases split_cons split with ⟨rfl, rfl, _⟩ | ⟨mid, rfl, inside⟩
    · simp [Token.binary?, minus, Operator.symbol] at found
    · rw [Token.binary?_cons (operator_silent minus).2] at found
      simpa using hasOperands_widen (ih inside found) [u] []
  | term single ih | sum single ih => exact ih split found
  | @product _ u _ _ ts us level symbol left right hl hr
  | @addition _ u _ _ ts us level symbol left right hl hr =>
    rcases split_append split with ⟨mid, inside, rfl⟩ | ⟨mid, rfl, behind⟩
    · exact hasOperands_widen (hl inside found) [] (u :: us)
    · rcases split_cons behind with ⟨rfl, rfl, rfl⟩ | ⟨mid, rfl, inside⟩
      · exact ⟨[], ts, after, [], by simp, by simp, isExpression_of_derives left,
          isExpression_of_derives right⟩
      · rw [Token.binary?_append (by simp), Token.binary?_cons (operator_silent symbol).2] at found
        simpa using hasOperands_widen (hr inside found) (ts ++ [u]) []

end Shape

end LineCalc
