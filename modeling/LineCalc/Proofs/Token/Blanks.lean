import LineCalc.Proofs.Grammar
import LineCalc.Proofs.Token.Tokenization

/-!
White space in front. A run of white space is one token, or joins the one that the text
begins with, so the other tokens are those of the text behind it, at the same bytes.
-/
namespace LineCalc

theorem solid_cons_blank {t : Token} (blank : t.kind = .blank) (ts : List Token) :
    Token.solid (t :: ts) = Token.solid ts := by
  simp [Token.solid, blank]

theorem solid_cons_other {t : Token} (solid : t.kind ≠ .blank) (ts : List Token) :
    Token.solid (t :: ts) = t :: Token.solid ts := by
  simp [Token.solid, solid]

theorem stopsAt_of_blank {kind : Kind} {c : Char} (solid : kind ≠ .blank)
    (blank : isBlank c = true) (text : Text) : StopsAt kind text c := by
  refine ⟨fun _ => ⟨?_, ?_⟩, fun same => absurd same solid⟩
  · refine Bool.eq_false_iff.mpr fun digit => ?_
    rw [not_blank_of_digit digit] at blank
    cases blank
  · rintro _ rfl
    cases blank

theorem tokens_of_lexeme {s : Scan} {t : Token} {rest : Text} (begins : t.start = s.position)
    (isLexeme : IsLexeme t.kind t.text) (left : s.remaining = t.text ++ rest)
    (stops : StopsBefore t.kind t.text rest) : s.tokens = t :: (Scan.mk t.stop rest).tokens :=
  tokens_of_some (next?_of_lexeme begins isLexeme left stops)

section Run

variable {run : Text} (blank : ∀ c ∈ run, isBlank c = true)
include blank

theorem solid_tokens_of_stop (start : Nat) {rest : Text}
    (stop : ∀ c ∈ rest.head?, isBlank c = false) :
    Token.solid (Scan.mk start (run ++ rest)).tokens =
      Token.solid (Scan.mk (start + run.size) rest).tokens := by
  by_cases empty : run = []
  · subst empty
    rfl
  · have stops : StopsBefore .blank run rest := fun c member =>
      ⟨by simp, fun _ => stop c member⟩
    have cut : (Scan.mk start (run ++ rest)).tokens =
        ⟨run, .blank, start⟩ :: (Scan.mk (start + run.size) rest).tokens :=
      tokens_of_lexeme (t := ⟨run, .blank, start⟩) rfl ⟨empty, blank⟩ rfl stops
    rw [cut, solid_cons_blank rfl]

theorem solid_tokens_blank_append (start : Nat) (rest : Text) :
    Token.solid (Scan.mk start (run ++ rest)).tokens =
      Token.solid (Scan.mk (start + run.size) rest).tokens := by
  -- The white space that the rest begins with belongs to the run.
  have inner : ∀ c ∈ rest.takeWhile isBlank, isBlank c = true := fun c member =>
    List.mem_takeWhile_imp member
  have both : ∀ c ∈ run ++ rest.takeWhile isBlank, isBlank c = true := by
    intro c member
    rcases List.mem_append.mp member with front | behind
    · exact blank c front
    · exact inner c behind
  have stop := head_dropWhile isBlank rest
  have whole : rest = rest.takeWhile isBlank ++ rest.dropWhile isBlank :=
    List.takeWhile_append_dropWhile.symm
  rw [whole, ← List.append_assoc, solid_tokens_of_stop both start stop,
    solid_tokens_of_stop inner _ stop, Text.size_append, Nat.add_assoc]

theorem solid_tokens_blank (start : Nat) : Token.solid (Scan.mk start run).tokens = [] := by
  have ended : (Scan.mk (start + run.size) []).tokens = [] :=
    tokens_of_none (next?_eq_none_iff.mpr rfl)
  have dropped := solid_tokens_blank_append blank start []
  rw [List.append_nil, ended] at dropped
  exact dropped

end Run

end LineCalc
