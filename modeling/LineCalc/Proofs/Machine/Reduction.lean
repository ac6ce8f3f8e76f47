import LineCalc.Machine

/-!
Laws of the two stacks. Reducing to a low level is the same as reducing to a
higher one first, and closing a group or ending a run starts with reducing
everything in the innermost group.
-/
namespace LineCalc

variable {policy : ZeroDivision} {values values' : Values} {stack stack' : Stack}

theorem bind_ok_iff {α β : Type} {x : Except CalcError α} {f : α → Except CalcError β} {b : β} :
    x >>= f = .ok b ↔ ∃ a, x = .ok a ∧ f a = .ok b := by
  cases x with
  | error e => simp [bind, Except.bind]
  | ok a => simp [bind, Except.bind]

theorem applyPending_binary (op : Operator) (start : Nat) (left right : Float)
    (values : Values) :
    applyPending policy (right :: left :: values) (.binary op, start) =
      op.apply policy start left right >>= fun value => .ok (value :: values) := by
  rw [applyPending]
  cases op.apply policy start left right <;> rfl

/-- No entry on top of the stack binds as tightly as level within its group. -/
def Holds (level : Nat) (stack : Stack) : Prop :=
  ∀ top ∈ stack.head?, top.1 = .group ∨ top.1.level < level

theorem holds_nil (level : Nat) : Holds level [] := by simp [Holds]

theorem holds_cons {level : Nat} {top : Pending × Nat} :
    Holds level (top :: stack) ↔ top.1 = .group ∨ top.1.level < level := by simp [Holds]

theorem holds_group (level start : Nat) (stack : Stack) :
    Holds level ((.group, start) :: stack) := by simp [Holds]

theorem holds_mono {low high : Nat} (le : low ≤ high) (holds : Holds low stack) :
    Holds high stack :=
  fun top member => (holds top member).imp_right fun below => Nat.lt_of_lt_of_le below le

theorem reduce_of_holds {level : Nat} (holds : Holds level stack) (values : Values) :
    reduce policy level values stack = .ok (values, stack) := by
  cases stack with
  | nil => rfl
  | cons top stack => simp only [reduce, holds_cons.mp holds, ↓reduceIte]

theorem reduce_cons_of_not_holds {level : Nat} {top : Pending × Nat}
    (tight : ¬ Holds level (top :: stack)) (values : Values) :
    reduce policy level values (top :: stack) =
      applyPending policy values top >>= fun values => reduce policy level values stack := by
  rw [holds_cons] at tight
  simp only [reduce, tight, ↓reduceIte]
  cases applyPending policy values top <;> rfl

theorem reduce_cons_ok {level : Nat} {top : Pending × Nat}
    (reduced : reduce policy level values (top :: stack) = .ok (values', stack')) :
    (Holds level (top :: stack) ∧ values' = values ∧ stack' = top :: stack) ∨
      ¬ Holds level (top :: stack) ∧ ∃ mid, applyPending policy values top = .ok mid ∧
        reduce policy level mid stack = .ok (values', stack') := by
  by_cases holds : Holds level (top :: stack)
  · rw [reduce_of_holds holds] at reduced
    cases reduced
    exact Or.inl ⟨holds, rfl, rfl⟩
  · rw [reduce_cons_of_not_holds holds] at reduced
    exact Or.inr ⟨holds, bind_ok_iff.mp reduced⟩

theorem reduce_holds {level : Nat}
    (reduced : reduce policy level values stack = .ok (values', stack')) :
    Holds level stack' := by
  induction stack generalizing values with
  | nil =>
    cases reduced
    exact holds_nil level
  | cons top stack ih =>
    rcases reduce_cons_ok reduced with ⟨holds, rfl, rfl⟩ | ⟨_, mid, _, rest⟩
    · exact holds
    · exact ih rest

theorem reduce_after_reduce {low high : Nat} (le : low ≤ high) (values : Values)
    (stack : Stack) :
    (reduce policy high values stack >>= fun s => reduce policy low s.1 s.2) =
      reduce policy low values stack := by
  induction stack generalizing values with
  | nil => rfl
  | cons top stack ih =>
    by_cases holds : Holds high (top :: stack)
    · rw [reduce_of_holds holds]; rfl
    · have tight : ¬ Holds low (top :: stack) := fun loose => holds (holds_mono le loose)
      rw [reduce_cons_of_not_holds holds, reduce_cons_of_not_holds tight, bind_assoc]
      simp only [ih]

theorem closeGroup_cons_of_other {start : Nat} {top : Pending × Nat} (other : top.1 ≠ .group)
    (values : Values) :
    closeGroup policy start values (top :: stack) =
      applyPending policy values top >>= fun values => closeGroup policy start values stack := by
  simp only [closeGroup, other, ↓reduceIte]
  cases applyPending policy values top <;> rfl

theorem applyAll_cons (top : Pending × Nat) (values : Values) :
    applyAll policy values (top :: stack) =
      applyPending policy values top >>= fun values => applyAll policy values stack := by
  rw [applyAll]
  cases applyPending policy values top <;> rfl

theorem closeGroup_after_reduce (start : Nat) (values : Values) (stack : Stack) :
    (reduce policy 1 values stack >>= fun s => closeGroup policy start s.1 s.2) =
      closeGroup policy start values stack := by
  induction stack generalizing values with
  | nil => rfl
  | cons top stack ih =>
    obtain ⟨pending, place⟩ := top
    by_cases holds : Holds 1 ((pending, place) :: stack)
    · rw [reduce_of_holds holds]; rfl
    · have other : (pending, place).1 ≠ .group := fun group => holds (holds_cons.mpr (Or.inl group))
      rw [reduce_cons_of_not_holds holds, bind_assoc, closeGroup_cons_of_other other]
      simp only [ih]

theorem applyAll_after_reduce (values : Values) (stack : Stack) :
    (reduce policy 1 values stack >>= fun s => applyAll policy s.1 s.2) =
      applyAll policy values stack := by
  induction stack generalizing values with
  | nil => rfl
  | cons top stack ih =>
    by_cases holds : Holds 1 (top :: stack)
    · rw [reduce_of_holds holds]; rfl
    · rw [reduce_cons_of_not_holds holds, bind_assoc, applyAll_cons]
      simp only [ih]

theorem holds_one_cases (holds : Holds 1 stack) :
    stack = [] ∨ ∃ start outer, stack = (.group, start) :: outer := by
  cases stack with
  | nil => exact Or.inl rfl
  | cons top stack =>
    obtain ⟨pending, start⟩ := top
    rw [holds_cons] at holds
    cases pending with
    | group => exact Or.inr ⟨start, stack, rfl⟩
    | negation => simp [Pending.level] at holds
    | binary op => cases op <;> simp [Pending.level, Operator.level] at holds

theorem closeGroup_ok_iff {start : Nat} :
    closeGroup policy start values stack = .ok (values', stack') ↔
      ∃ place, reduce policy 1 values stack = .ok (values', (.group, place) :: stack') := by
  rw [← closeGroup_after_reduce, bind_ok_iff]
  constructor
  · rintro ⟨⟨left, rest⟩, reduced, closed⟩
    rcases holds_one_cases (reduce_holds reduced) with rfl | ⟨place, outer, rfl⟩
    · cases closed
    · cases closed
      exact ⟨place, reduced⟩
  · rintro ⟨place, reduced⟩
    exact ⟨_, reduced, rfl⟩

theorem applyAll_ok_iff :
    applyAll policy values stack = .ok values' ↔
      reduce policy 1 values stack = .ok (values', []) := by
  rw [← applyAll_after_reduce, bind_ok_iff]
  constructor
  · rintro ⟨⟨left, rest⟩, reduced, applied⟩
    rcases holds_one_cases (reduce_holds reduced) with rfl | ⟨place, outer, rfl⟩
    · cases applied
      exact reduced
    · cases applied
  · intro reduced
    exact ⟨_, reduced, rfl⟩

end LineCalc
