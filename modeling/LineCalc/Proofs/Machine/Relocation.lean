import LineCalc.Proofs.Machine.Lockstep

/-!
Tokens that lie elsewhere. An evaluation of the same tokens at other places, which may allow the
zero divisors that the first one refuses, ends with the same value or with the same fault, which
it reports where it found the token.
-/
namespace LineCalc

def CalcError.relocate (move : Nat → Nat) : CalcError → CalcError
  | .unbalanced p => .unbalanced (move p)
  | .unknownCharacter c p => .unknownCharacter c (move p)
  | .missingOperand c p => .missingOperand c (move p)
  | .badNumber literal p => .badNumber literal (move p)
  | .notOneValue n => .notOneValue n
  | .notAnOperator c => .notAnOperator c
  | .zeroDivisor p => .zeroDivisor (move p)

def Token.relocate (move : Nat → Nat) (t : Token) : Token := { t with start := move t.start }

def ZeroDivision.Allows (policy policy' : ZeroDivision) : Prop :=
  policy' = policy ∨ policy = .reject ∧ policy' = .ieee

/-- The second result is the image of the first one, or the first one refuses a divisor that
    the second one allows. -/
inductive Follows (policy policy' : ZeroDivision) (move : Nat → Nat) {α β : Type}
    (image : α → β) : Except CalcError α → Except CalcError β → Prop
  | value (a : α) : Follows policy policy' move image (.ok a) (.ok (image a))
  | fault (e : CalcError) :
      Follows policy policy' move image (.error e) (.error (e.relocate move))
  | refused {p : Nat} {second : Except CalcError β} (rejects : policy = .reject)
      (allows : policy' = .ieee) :
      Follows policy policy' move image (.error (.zeroDivisor p)) second

variable {policy policy' : ZeroDivision}

section Readings

variable (move : Nat → Nat)

theorem relocate_id (ts : List Token) : ts.map (Token.relocate id) = ts := by
  have same : Token.relocate id = id := rfl
  rw [same, List.map_id]

theorem relocate_position (e : CalcError) : (e.relocate move).position = e.position.map move := by
  cases e <;> rfl

def Reading.relocation : Reading := ⟨move, id, fun _ => rfl, fun _ => Iff.rfl⟩

theorem sign_relocation (c : Char) : (Reading.relocation move).sign c = c := by
  cases found : Operator.ofSymbol? c with
  | none => exact sign_other found
  | some op =>
    obtain rfl := Operator.ofSymbol?_eq_some_iff.mp found
    exact sign_symbol op

theorem token_relocation : (Reading.relocation move).token = Token.relocate move := by
  funext t
  have same : (Reading.relocation move).sign = id := funext (sign_relocation move)
  rw [Reading.token, same, List.map_id, ite_self]
  rfl

theorem fault_relocation (e : CalcError) : (Reading.relocation move).fault e = e.relocate move := by
  cases e with
  | missingOperand c p => rw [Reading.fault, sign_relocation]; rfl
  | _ => rfl

theorem follows_of_lockstep {first second : Except CalcError Float}
    (lockstep : Lockstep (Reading.relocation move) (policy = .reject ∧ policy' = .ieee) Eq
      first second) : Follows policy policy' move id first second := by
  cases lockstep with
  | value related =>
    cases related
    exact .value _
  | fault e =>
    rw [fault_relocation]
    exact .fault e
  | refused refused => exact .refused refused.1 refused.2

end Readings

section Rules

variable (allows : policy.Allows policy') (move : Nat → Nat)
include allows

theorem respects_relocation :
    (Reading.relocation move).Respects policy policy' (policy = .reject ∧ policy' = .ieee) Eq where
  number := fun _ => rfl
  negation := by
    rintro _ _ rfl
    rfl
  operator := by
    rintro op start left right _ _ rfl rfl
    cases op with
    | add | subtract | multiply => exact .value rfl
    | divide =>
      simp only [Reading.relocation, id_eq, Operator.apply]
      rcases allows with rfl | ⟨rfl, rfl⟩
      · split
        · exact .fault (.zeroDivisor start)
        · exact .value rfl
      · split
        · exact .refused ⟨rfl, rfl⟩
        · exact .value rfl

theorem Rules.evaluateRaw_follows (unknowns : Unknowns) (ts : List Token) :
    Follows policy policy' move id ((Rules.mk unknowns policy).evaluateRaw ts)
      ((Rules.mk unknowns policy').evaluateRaw (ts.map (Token.relocate move))) := by
  have lockstep := evaluateRaw_lockstep (respects_relocation allows move) unknowns ts
  rw [token_relocation] at lockstep
  exact follows_of_lockstep move lockstep

theorem Rules.evaluateTokens_follows (unknowns : Unknowns) (ts : List Token) :
    Follows policy policy' move id ((Rules.mk unknowns policy).evaluateTokens ts)
      ((Rules.mk unknowns policy').evaluateTokens (ts.map (Token.relocate move))) := by
  have lockstep := evaluateTokens_lockstep (respects_relocation allows move) unknowns ts
  rw [token_relocation] at lockstep
  exact follows_of_lockstep move lockstep

end Rules

end LineCalc
