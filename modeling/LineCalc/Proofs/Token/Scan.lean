import LineCalc.Token.Scan

/-!
Tokens one at a time. As many steps as the text has characters reach the end of it,
and what they find is all that the text is cut into.
-/
namespace LineCalc

theorem next?_eq_none_iff {s : Scan} : s.next? = none ↔ s.remaining = [] := by
  unfold Scan.next?
  cases s.remaining with
  | nil => simp
  | cons c rest => simp

theorem tokens_of_none {s : Scan} (step : s.next? = none) : s.tokens = [] := by
  rw [Scan.tokens]
  split
  · rfl
  · next found => simp [step] at found

theorem tokens_of_some {s s' : Scan} {t : Token} (step : s.next? = some (t, s')) :
    s.tokens = t :: s'.tokens := by
  rw [Scan.tokens]
  split
  · next found => simp [step] at found
  · next found =>
    rw [step] at found
    cases found
    rfl

theorem tokens_eq_steps (s : Scan) (n : Nat) (enough : s.remaining.length ≤ n) :
    s.tokens = (s.steps n).filterMap Prod.fst := by
  induction n generalizing s with
  | zero =>
    have left : s.remaining = [] := List.length_eq_zero_iff.mp (Nat.le_zero.mp enough)
    exact tokens_of_none (next?_eq_none_iff.mpr left)
  | succ n ih =>
    cases step : s.next? with
    | none =>
      have rest := ih s (by simp [next?_eq_none_iff.mp step])
      simp [Scan.steps, step, ← rest, tokens_of_none step]
    | some found =>
      obtain ⟨t, s'⟩ := found
      have shorter := Scan.next?_shorter step
      have rest := ih s' (by omega)
      simp [Scan.steps, step, ← rest, tokens_of_some step]

theorem tokenize_eq_steps (t : Text) :
    tokenize t = ((Scan.ofText t).steps t.length).filterMap Prod.fst :=
  tokens_eq_steps (Scan.ofText t) t.length (Nat.le_refl _)

/-- A number takes in one point only. -/
example : tokenize "1.2.3é".toList =
    [⟨"1.2".toList, .number, 0⟩, ⟨['.'], .unknown, 3⟩, ⟨['3'], .number, 4⟩,
      ⟨['é'], .unknown, 5⟩] := (tokenize_eq_steps _).trans rfl

end LineCalc
