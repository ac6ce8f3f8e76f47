import LineCalc.Parens

/-!
Reading parentheses one token at a time. Tokens that are no operators play no part, and
a failure lies at a parenthesis.
-/
namespace LineCalc.Parens

variable {t : Token} {ts : List Token}

theorem balanceFrom_opens (opens : t.opens = true) (pending : List Nat) :
    balanceFrom pending (t :: ts) = balanceFrom (t.start :: pending) ts := by
  cases pending <;> simp [balanceFrom, opens]

theorem balanceFrom_closes (opens : t.opens = false) (closes : t.closes = true) (p : Nat)
    (pending : List Nat) : balanceFrom (p :: pending) (t :: ts) = balanceFrom pending ts := by
  simp [balanceFrom, opens, closes]

theorem balanceFrom_other (opens : t.opens = false) (closes : t.closes = false)
    (pending : List Nat) : balanceFrom pending (t :: ts) = balanceFrom pending ts := by
  cases pending <;> simp [balanceFrom, opens, closes]

theorem balanceFrom_unopened (opens : t.opens = false) (closes : t.closes = true) :
    balanceFrom [] (t :: ts) = .error (.unbalanced t.start) := by
  simp [balanceFrom, opens, closes]

theorem not_opens_of_closes (closes : t.closes = true) : t.opens = false := by
  have symbol : t.symbol? = some ')' := by simpa [Token.closes] using closes
  simp [Token.opens, symbol]

theorem not_closes_of_opens (opens : t.opens = true) : t.closes = false := by
  have symbol : t.symbol? = some '(' := by simpa [Token.opens] using opens
  simp [Token.closes, symbol]

theorem silent_of_symbol {c : Char} (symbol : t.symbol? = some c)
    (other : c ≠ '(' ∧ c ≠ ')') : t.opens = false ∧ t.closes = false := by
  simp [Token.opens, Token.closes, symbol, other]

theorem silent_of_kind (other : t.kind ≠ .operator) : t.opens = false ∧ t.closes = false := by
  simp [Token.opens, Token.closes, Token.symbol?, other]

theorem balanceFrom_cons_congr {us : List Token}
    (same : ∀ pending, balanceFrom pending ts = balanceFrom pending us) (t : Token)
    (pending : List Nat) : balanceFrom pending (t :: ts) = balanceFrom pending (t :: us) := by
  cases pending <;> simp [balanceFrom, same]

theorem balanceFrom_filter {keep : Token → Bool}
    (dropped : ∀ t, keep t = false → t.kind ≠ .operator) (pending : List Nat)
    (ts : List Token) : balanceFrom pending (ts.filter keep) = balanceFrom pending ts := by
  induction ts generalizing pending with
  | nil => rfl
  | cons t ts ih =>
    cases kept : keep t with
    | false =>
      have silent := silent_of_kind (dropped t kept)
      rw [List.filter_cons_of_neg (by simp [kept]), balanceFrom_other silent.1 silent.2]
      exact ih pending
    | true =>
      rw [List.filter_cons_of_pos kept]
      exact balanceFrom_cons_congr ih t pending

def At (ts : List Token) (p : Nat) : Prop :=
  ∃ t ∈ ts, (t.opens = true ∨ t.closes = true) ∧ t.start = p

theorem at_cons {p : Nat} (later : At ts p) : At (t :: ts) p := by
  obtain ⟨u, member, place⟩ := later
  exact ⟨u, List.mem_cons_of_mem t member, place⟩

theorem balanceFrom_error {pending : List Nat} {e : CalcError}
    (failed : balanceFrom pending ts = .error e) :
    ∃ p, e = .unbalanced p ∧ (p ∈ pending ∨ At ts p) := by
  induction ts generalizing pending with
  | nil =>
    cases pending with
    | nil => cases failed
    | cons p outer =>
      cases failed
      exact ⟨p, rfl, Or.inl (by simp)⟩
  | cons t ts ih =>
    cases opens : t.opens with
    | true =>
      rw [balanceFrom_opens opens] at failed
      obtain ⟨p, rfl, before | later⟩ := ih failed
      · rcases List.mem_cons.mp before with rfl | outside
        · exact ⟨t.start, rfl, Or.inr ⟨t, by simp, Or.inl opens, rfl⟩⟩
        · exact ⟨p, rfl, Or.inl outside⟩
      · exact ⟨p, rfl, Or.inr (at_cons later)⟩
    | false =>
      cases closes : t.closes with
      | false =>
        rw [balanceFrom_other opens closes] at failed
        obtain ⟨p, same, place⟩ := ih failed
        exact ⟨p, same, place.imp_right at_cons⟩
      | true =>
        cases pending with
        | nil =>
          rw [balanceFrom_unopened opens closes] at failed
          cases failed
          exact ⟨t.start, rfl, Or.inr ⟨t, by simp, Or.inr closes, rfl⟩⟩
        | cons q outer =>
          rw [balanceFrom_closes opens closes] at failed
          obtain ⟨p, same, place⟩ := ih failed
          exact ⟨p, same, place.imp (List.mem_cons_of_mem q) at_cons⟩

theorem balance_error {e : CalcError} (failed : balance ts = .error e) :
    ∃ t ∈ ts, (t.opens = true ∨ t.closes = true) ∧ e = .unbalanced t.start := by
  obtain ⟨p, rfl, pending | ⟨t, member, parenthesis, rfl⟩⟩ := balanceFrom_error failed
  · cases pending
  · exact ⟨t, member, parenthesis, rfl⟩

end LineCalc.Parens
