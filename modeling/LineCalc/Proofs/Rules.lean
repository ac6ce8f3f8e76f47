import LineCalc.Proofs.Machine.Steps
import LineCalc.Proofs.Token.Scan
import LineCalc.Rules

/-!
The stages of an evaluation. The tokens that are kept are numbers and operators, and
evaluating them is a run and its result.
-/
namespace LineCalc.Rules

variable {ts : List Token}

theorem evaluateRaw_eq (rules : Rules) (ts : List Token) :
    rules.evaluateRaw ts =
      Machine.start.run rules.zeroDivision ts >>= fun m => m.result rules.zeroDivision := by
  rw [evaluateRaw]
  cases Machine.start.run rules.zeroDivision ts <;> rfl

theorem evaluateRaw_solid (rules : Rules) (ts : List Token) :
    rules.evaluateRaw (Token.solid ts) = rules.evaluateRaw ts := by
  rw [evaluateRaw_eq, evaluateRaw_eq, Machine.run_solid]

theorem run_of_evaluateRaw {rules : Rules} {ts : List Token} {value : Float}
    (evaluated : rules.evaluateRaw ts = .ok value) :
    ∃ m, Machine.start.run rules.zeroDivision ts = .ok m ∧
      m.result rules.zeroDivision = .ok value := by
  rw [evaluateRaw_eq] at evaluated
  exact bind_ok_iff.mp evaluated

theorem keep_eq_solid (rules : Rules) (known : ∀ t ∈ ts, t.kind ≠ .unknown) :
    rules.keep ts = .ok (Token.solid ts) := by
  induction ts with
  | nil => rfl
  | cons t ts ih =>
    have rest := ih fun u member => known u (List.mem_cons_of_mem t member)
    cases kind : t.kind with
    | unknown => exact absurd kind (known t (by simp))
    | blank => simp [keep, kind, rest, Token.solid]
    | number | operator => simp [keep, kind, rest, Token.solid, Except.map]

theorem keep_of_map {rules : Rules} {t : Token} {kept : List Token}
    (mapped : (rules.keep ts).map (t :: ·) = .ok kept) :
    ∃ rest, rules.keep ts = .ok rest ∧ kept = t :: rest := by
  cases inner : rules.keep ts with
  | error e =>
    rw [inner] at mapped
    cases mapped
  | ok rest =>
    rw [inner] at mapped
    cases mapped
    exact ⟨rest, rfl, rfl⟩

theorem keep_cons_ok {rules : Rules} {t : Token} {kept : List Token}
    (keeps : rules.keep (t :: ts) = .ok kept) :
    rules.keep ts = .ok kept ∨
      (t.Counts ∧ ∃ rest, rules.keep ts = .ok rest ∧ kept = t :: rest) := by
  unfold keep at keeps
  cases kind : t.kind with
  | blank =>
    simp only [kind] at keeps
    exact Or.inl keeps
  | number | operator =>
    simp only [kind] at keeps
    exact Or.inr ⟨by simp [Token.Counts, kind], keep_of_map keeps⟩
  | unknown =>
    cases unknowns : rules.unknowns with
    | strict =>
      simp only [kind, unknowns] at keeps
      cases keeps
    | lenient =>
      simp only [kind, unknowns] at keeps
      exact Or.inl keeps

theorem counts_of_keep {rules : Rules} {kept : List Token} (keeps : rules.keep ts = .ok kept) :
    ∀ t ∈ kept, t.Counts := by
  induction ts generalizing kept with
  | nil => cases keeps; simp
  | cons t ts ih =>
    rcases keep_cons_ok keeps with same | ⟨counts, rest, keeps', rfl⟩
    · exact ih same
    · intro u member
      rcases List.mem_cons.mp member with rfl | inside
      · exact counts
      · exact ih keeps' u inside

/-- The unknown character at which a strict reading stops. -/
def refused? (rules : Rules) (ts : List Token) : Option Token :=
  if rules.unknowns = .strict then ts.find? fun t => t.kind = .unknown else none

theorem refused_eq_some_iff {rules : Rules} {t : Token} :
    rules.refused? ts = some t ↔
      rules.unknowns = .strict ∧ ts.find? (fun t => t.kind = .unknown) = some t := by
  cases unknowns : rules.unknowns <;> simp [refused?, unknowns]

theorem refused_eq_none_iff {rules : Rules} :
    rules.refused? ts = none ↔
      (rules.unknowns = .strict → ∀ t ∈ ts, t.kind ≠ .unknown) := by
  simp [refused?]

theorem refused_of_known (rules : Rules) (known : ∀ t ∈ ts, t.kind ≠ .unknown) :
    rules.refused? ts = none :=
  refused_eq_none_iff.mpr fun _ => known

theorem refused_of_lenient {rules : Rules} (lenient : rules.unknowns = .lenient)
    (ts : List Token) : rules.refused? ts = none := by
  simp [refused?, lenient]

theorem keep_eq (rules : Rules) (ts : List Token) :
    rules.keep ts =
      match rules.refused? ts with
      | some t => .error (.unknownCharacter t.text t.start)
      | none => .ok (Token.counted ts) := by
  induction ts with
  | nil => simp [keep, refused?, Token.counted]
  | cons t ts ih =>
    cases kind : t.kind with
    | blank =>
      have same : rules.refused? (t :: ts) = rules.refused? ts := by simp [refused?, kind]
      simp [keep, kind, ih, same, Token.counted, Token.Counts]
    | number | operator =>
      have same : rules.refused? (t :: ts) = rules.refused? ts := by simp [refused?, kind]
      rw [same]
      simp only [keep, kind, ih]
      cases rules.refused? ts <;> simp [Except.map, Token.counted, Token.Counts, kind]
    | unknown =>
      cases unknowns : rules.unknowns with
      | strict => simp [keep, kind, unknowns, refused?]
      | lenient =>
        rw [refused_of_lenient unknowns] at ih ⊢
        simp [keep, kind, unknowns, ih, Token.counted, Token.Counts]

theorem evaluateTokens_of_refused {rules : Rules} {t : Token}
    (refused : rules.refused? ts = some t) :
    rules.evaluateTokens ts = .error (.unknownCharacter t.text t.start) := by
  rw [evaluateTokens, keep_eq, refused]

theorem balance_known (ts : List Token) :
    Parens.balance (Token.known ts) = Parens.balance ts := by
  refine Parens.balanceFrom_filter ?_ [] ts
  intro t dropped operator
  simp [operator] at dropped

theorem balance_counted (ts : List Token) :
    Parens.balance (Token.counted ts) = Parens.balance ts := by
  refine Parens.balanceFrom_filter ?_ [] ts
  intro t dropped operator
  simp [Token.Counts, operator] at dropped

theorem keep_solid (rules : Rules) (ts : List Token) :
    rules.keep (Token.solid ts) = rules.keep ts := by
  induction ts with
  | nil => rfl
  | cons t ts ih =>
    by_cases blank : t.kind = .blank
    · have dropped : Token.solid (t :: ts) = Token.solid ts := by simp [Token.solid, blank]
      rw [dropped, ih]
      simp [keep, blank]
    · have kept : Token.solid (t :: ts) = t :: Token.solid ts := by simp [Token.solid, blank]
      rw [kept, keep, keep, ih]

theorem evaluateTokens_solid (rules : Rules) (ts : List Token) :
    rules.evaluateTokens (Token.solid ts) = rules.evaluateTokens ts := by
  rw [evaluateTokens, evaluateTokens, keep_solid]

theorem evaluateTokens_of_passed {rules : Rules} (passed : rules.refused? ts = none) :
    rules.evaluateTokens ts =
      Parens.balance ts >>= fun _ => rules.evaluateRaw (Token.known ts) := by
  have computed : rules.evaluateRaw (Token.counted ts) = rules.evaluateRaw (Token.known ts) := by
    rw [← Token.solid_known, evaluateRaw_solid]
  rw [evaluateTokens, keep_eq, passed]
  simp only [balance_counted, computed]
  cases Parens.balance ts <;> rfl

theorem stages_of_evaluateTokens {rules : Rules} {value : Float}
    (evaluated : rules.evaluateTokens ts = .ok value) :
    ∃ kept, rules.keep ts = .ok kept ∧ Parens.balance kept = .ok () ∧
      rules.evaluateRaw kept = .ok value := by
  unfold evaluateTokens at evaluated
  cases keeps : rules.keep ts with
  | error e => rw [keeps] at evaluated; cases evaluated
  | ok kept =>
    simp only [keeps] at evaluated
    cases balanced : Parens.balance kept with
    | error e => rw [balanced] at evaluated; cases evaluated
    | ok done =>
      simp only [balanced] at evaluated
      exact ⟨kept, rfl, balanced, evaluated⟩

theorem evaluate_eq_steps (rules : Rules) (t : Text) :
    rules.evaluate t =
      rules.evaluateTokens (((Scan.ofText t).steps t.length).filterMap Prod.fst) := by
  rw [evaluate, tokenize_eq_steps]

end LineCalc.Rules
