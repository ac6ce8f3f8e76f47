import LineCalc.Proofs.Machine.Relocation
import LineCalc.Proofs.Positions
import LineCalc.Proofs.Unknowns
import Mathlib.Logic.Function.Basic

/-!
White space between tokens. More of it anywhere between the tokens of a text, in front of
them or behind them leaves all other tokens as they are and only moves them, so the value
stays the same, and so does the fault, which is reported at the same token.
-/
namespace LineCalc

variable {text text' : Text} {ts us us' : List Token}

/-- The text of the tokens with white space in front of each and behind the last one. -/
inductive Spaced : List Token → Text → Prop
  | nil {gap : Text} (blank : gap.IsBlank) : Spaced [] gap
  | cons {gap rest : Text} {t : Token} {ts : List Token} (blank : gap.IsBlank)
      (later : Spaced ts rest) : Spaced (t :: ts) (gap ++ (t.text ++ rest))

def Token.shape (t : Token) : Kind × Text := (t.kind, t.text)

def CalcError.unplaced (e : CalcError) : CalcError := e.relocate fun _ => 0

/-- Neither fault has a place, or both are at the same token that is no white space. -/
def SamePlace (text text' : Text) (e e' : CalcError) : Prop :=
  (e.position = none ∧ e'.position = none) ∨
    ∃ (k : Nat) (t t' : Token), (Token.solid (tokenize text))[k]? = some t ∧
      (Token.solid (tokenize text'))[k]? = some t' ∧ t'.shape = t.shape ∧
      e.position = some t.start ∧ e'.position = some t'.start

section Tokens

theorem stopsBefore_spaced {kind : Kind} {lexeme rest : Text} (solid : kind ≠ .blank)
    (lexemes : ∀ t ∈ ts, IsLexeme t.kind t.text)
    (stops : StopsBefore kind lexeme (ts.map Token.text).flatten) (spaced : Spaced ts rest) :
    StopsBefore kind lexeme rest := by
  intro c member
  cases spaced with
  | nil blank =>
    have inside := List.mem_of_mem_head? member
    exact stopsAt_of_blank solid (List.all_eq_true.mp blank c inside) lexeme
  | @cons gap rest t ts blank later =>
    cases gap with
    | cons d gap =>
      cases member
      exact stopsAt_of_blank solid (List.all_eq_true.mp blank c (by simp)) lexeme
    | nil =>
      obtain ⟨d, more, same⟩ := isLexeme_cons (lexemes t (by simp))
      refine stops c ?_
      rw [List.map_cons, List.flatten_cons, same]
      rw [List.nil_append, same] at member
      exact member

theorem solid_tokens_spaced {start : Nat} (cut : Tokenization start text ts)
    (spaced : Spaced ts text') (start' : Nat) :
    (Token.solid (Scan.mk start' text').tokens).map Token.shape =
      (Token.solid ts).map Token.shape := by
  -- White space in front of a token is dropped, and the token itself is cut off as before.
  induction spaced generalizing start start' text with
  | @nil gap blank =>
    rw [solid_tokens_blank (List.all_eq_true.mp blank)]
    rfl
  | @cons gap rest t ts blank later ih =>
    obtain ⟨_, isLexeme, _, _, stops, cut'⟩ := (tokenization_cons _ _ t ts).mp cut
    rw [solid_tokens_blank_append (List.all_eq_true.mp blank)]
    by_cases white : t.kind = .blank
    · rw [white] at isLexeme
      rw [solid_tokens_blank_append isLexeme.2, solid_cons_blank white]
      exact ih cut' _
    · rw [← cut'.whole] at stops
      have stops' := stopsBefore_spaced white cut'.lexemes stops later
      have found : (Scan.mk (start' + gap.size) (t.text ++ rest)).tokens =
          t.relocate (fun _ => start' + gap.size) :: _ :=
        tokens_of_lexeme rfl isLexeme rfl stops'
      have white' : (t.relocate fun _ => start' + gap.size).kind ≠ .blank := white
      rw [found, solid_cons_other white', solid_cons_other white, List.map_cons, List.map_cons,
        ih cut']
      rfl

theorem starts_nodup {start : Nat} (cut : Tokenization start text ts) :
    (ts.map Token.start).Nodup := by
  induction ts generalizing start text with
  | nil => simp
  | cons t ts ih =>
    obtain ⟨rfl, isLexeme, rest, _, _, later⟩ := (tokenization_cons _ _ t ts).mp cut
    rw [List.map_cons, List.nodup_cons]
    refine ⟨?_, ih later⟩
    intro again
    obtain ⟨u, member, same⟩ := List.mem_map.mp again
    obtain ⟨before, _, _, place⟩ := tokenization_place later member
    obtain ⟨c, more, text⟩ := isLexeme_cons isLexeme
    have positive : 0 < t.text.size := Text.size_pos (by simp [text])
    rw [Token.stop] at place
    omega

theorem exists_relocate (same : us'.map Token.shape = us.map Token.shape)
    (distinct : (us.map Token.start).Nodup) :
    ∃ move, us' = us.map (Token.relocate move) := by
  induction us generalizing us' with
  | nil => exact ⟨id, List.map_eq_nil_iff.mp same⟩
  | cons u us ih =>
    obtain ⟨u', us', rfl, head, tail⟩ := List.map_eq_cons_iff.mp same
    rw [List.map_cons, List.nodup_cons] at distinct
    obtain ⟨move, rfl⟩ := ih tail distinct.2
    refine ⟨Function.update move u.start u'.start, ?_⟩
    have first : u' = u.relocate (Function.update move u.start u'.start) := by
      obtain ⟨kind, text⟩ := Prod.mk.inj head
      simp [Token.relocate, ← kind, ← text]
    have others : ∀ v ∈ us,
        v.relocate move = v.relocate (Function.update move u.start u'.start) := by
      intro v member
      have other : v.start ≠ u.start := by
        intro equal
        exact distinct.1 (equal ▸ List.mem_map_of_mem member)
      simp [Token.relocate, Function.update_of_ne other]
    rw [List.map_cons, ← first, List.map_congr_left others]

theorem tokenize_spaced (spaced : Spaced (tokenize text) text') :
    ∃ move, Token.solid (tokenize text') =
      (Token.solid (tokenize text)).map (Token.relocate move) := by
  have cut := tokens_tokenization (Scan.ofText text)
  have distinct : ((Token.solid (tokenize text)).map Token.start).Nodup :=
    (starts_nodup cut).sublist (List.filter_sublist.map Token.start)
  exact exists_relocate (solid_tokens_spaced cut spaced 0) distinct

end Tokens

namespace Rules

/-- Under one rule for zero divisors a text whose tokens are moved has the same value, or the
    same fault moved with them. -/
theorem evaluate_of_moved (rules : Rules) {move : Nat → Nat}
    (moved : Token.solid (tokenize text') =
      (Token.solid (tokenize text)).map (Token.relocate move)) :
    (∃ value, rules.evaluate text = .ok value ∧ rules.evaluate text' = .ok value) ∨
      ∃ e, rules.evaluate text = .error e ∧ rules.evaluate text' = .error (e.relocate move) := by
  have allows : rules.zeroDivision.Allows rules.zeroDivision := Or.inl rfl
  have follows := evaluateTokens_follows allows move rules.unknowns
    (Token.solid (tokenize text))
  rw [← moved, evaluateTokens_solid, evaluateTokens_solid] at follows
  change Follows _ _ _ _ (rules.evaluate text) (rules.evaluate text') at follows
  generalize rules.evaluate text = first at follows ⊢
  generalize rules.evaluate text' = second at follows ⊢
  cases follows with
  | value value => exact Or.inl ⟨value, rfl, rfl⟩
  | fault e => exact Or.inr ⟨e, rfl, rfl⟩
  | refused rejects allows =>
    rw [rejects] at allows
    cases allows

end Rules

theorem unplaced_relocate (move : Nat → Nat) (e : CalcError) :
    (e.relocate move).unplaced = e.unplaced := by
  cases e <;> rfl

theorem samePlace_of_moved {rules : Rules} {move : Nat → Nat} {e : CalcError}
    (failed : rules.evaluate text = .error e)
    (moved : Token.solid (tokenize text') =
      (Token.solid (tokenize text)).map (Token.relocate move)) :
    SamePlace text text' e (e.relocate move) := by
  rcases pointsAt_of_evaluate failed with ⟨n, rfl⟩ | ⟨t, member, solid, place, _⟩
  · exact Or.inl ⟨rfl, rfl⟩
  · have kept : t ∈ Token.solid (tokenize text) := by simp [Token.solid, member, solid]
    obtain ⟨k, found⟩ := List.mem_iff_getElem?.mp kept
    refine Or.inr ⟨k, t, t.relocate move, found, ?_, rfl, place, ?_⟩
    · rw [moved, List.getElem?_map, found]
      rfl
    · rw [relocate_position, place]
      rfl

/-- White space between tokens never matters: a text with more of it has the same value, or the
    same fault at the same token. -/
theorem evaluate_spaced (rules : Rules) (text text' : Text)
    (spaced : Spaced (tokenize text) text') :
    (Token.solid (tokenize text')).map Token.shape =
      (Token.solid (tokenize text)).map Token.shape ∧
    (∀ value, rules.evaluate text = .ok value ↔ rules.evaluate text' = .ok value) ∧
    ∀ e, rules.evaluate text = .error e →
      ∃ e', rules.evaluate text' = .error e' ∧ e'.unplaced = e.unplaced ∧
        SamePlace text text' e e' := by
  have cut := tokens_tokenization (Scan.ofText text)
  obtain ⟨move, moved⟩ := tokenize_spaced spaced
  refine ⟨solid_tokens_spaced cut spaced 0, ?_, ?_⟩
  · intro value
    rcases rules.evaluate_of_moved moved with ⟨value', first, second⟩ | ⟨e, first, second⟩
    · rw [first, second]
    · simp [first, second]
  · intro e failed
    have same := samePlace_of_moved failed moved
    rcases rules.evaluate_of_moved moved with ⟨value, first, _⟩ | ⟨cause, first, second⟩
    · rw [first] at failed
      cases failed
    · rw [first] at failed
      cases failed
      exact ⟨e.relocate move, second, unplaced_relocate move e, same⟩

theorem evaluate_spaced_division :
    Spaced (tokenize "é1/ 0".toList) " é 1 /  0 ".toList ∧
      (Rules.mk .lenient .reject).evaluate "é1/ 0".toList = .error (.zeroDivisor 3) ∧
      ∃ e', (Rules.mk .lenient .reject).evaluate " é 1 /  0 ".toList = .error e' ∧
        e'.unplaced = .zeroDivisor 0 ∧
        SamePlace "é1/ 0".toList " é 1 /  0 ".toList (.zeroDivisor 3) e' := by
  have cut : tokenize "é1/ 0".toList =
      [⟨['é'], .unknown, 0⟩, ⟨['1'], .number, 2⟩, ⟨['/'], .operator, 3⟩, ⟨[' '], .blank, 4⟩,
        ⟨['0'], .number, 5⟩] :=
    (tokenize_eq_steps _).trans rfl
  have spaced : Spaced (tokenize "é1/ 0".toList) " é 1 /  0 ".toList := by
    have nothing : Text.IsBlank [] := rfl
    have blank : Text.IsBlank [' '] := rfl
    rw [cut]
    exact .cons blank (.cons blank (.cons blank (.cons nothing (.cons blank (.nil blank)))))
  have failed : (Rules.mk .lenient .reject).evaluate "é1/ 0".toList =
      .error (.zeroDivisor 3) := by
    rw [Rules.evaluate, cut]
    rfl
  exact ⟨spaced, failed, (evaluate_spaced _ _ _ spaced).2.2 _ failed⟩

end LineCalc
