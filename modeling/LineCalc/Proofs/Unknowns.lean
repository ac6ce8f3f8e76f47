import LineCalc.Proofs.Rules
import LineCalc.Proofs.Token.Blanks

/-!
Unknown characters under the lenient rule. Dropping them is the same as writing blanks
in their place, as many as they have bytes: the text keeps its numbers and operators,
each at its byte, and so its value or its fault.
-/
namespace LineCalc

namespace Token

def blanked (t : Token) : Text := if t.kind = .unknown then Text.spaces t.text.size else t.text

theorem blanked_unknown {t : Token} (unknown : t.kind = .unknown) :
    t.blanked = Text.spaces t.text.size := by
  simp [blanked, unknown]

theorem blanked_known {t : Token} (known : t.kind ≠ .unknown) : t.blanked = t.text := by
  simp [blanked, known]

theorem blanked_size (t : Token) : t.blanked.size = t.text.size := by
  by_cases unknown : t.kind = .unknown
  · rw [blanked_unknown unknown, Text.size_spaces]
  · rw [blanked_known unknown]

theorem blanked_isBlank {t : Token} (isLexeme : IsLexeme t.kind t.text) (idle : ¬ t.Counts) :
    ∀ c ∈ t.blanked, isBlank c = true := by
  by_cases unknown : t.kind = .unknown
  · intro c member
    rw [blanked_unknown unknown] at member
    rw [List.eq_of_mem_replicate member]
    rfl
  · have blank : t.kind = .blank := by
      by_contra solid
      exact idle ⟨solid, unknown⟩
    rw [blanked_known unknown]
    rw [blank] at isLexeme
    exact isLexeme.2

theorem counted_cons {t : Token} (counts : t.Counts) (ts : List Token) :
    counted (t :: ts) = t :: counted ts := by
  simp [counted, counts]

theorem counted_cons_idle {t : Token} (idle : ¬ t.Counts) (ts : List Token) :
    counted (t :: ts) = counted ts := by
  simp [counted, idle]

end Token

def blankedTexts (ts : List Token) : Text := (ts.map Token.blanked).flatten

def blankUnknowns (text : Text) : Text := blankedTexts (tokenize text)

theorem blankedTexts_cons (t : Token) (ts : List Token) :
    blankedTexts (t :: ts) = t.blanked ++ blankedTexts ts := rfl

theorem blankedTexts_size (ts : List Token) :
    (blankedTexts ts).size = Text.size (ts.map Token.text).flatten := by
  induction ts with
  | nil => rfl
  | cons t ts ih =>
    rw [blankedTexts_cons, List.map_cons, List.flatten_cons, Text.size_append, Text.size_append,
      Token.blanked_size, ih]

theorem stopsBefore_blankedTexts {kind : Kind} {text : Text} {ts : List Token}
    (solid : kind ≠ .blank) (lexemes : ∀ t ∈ ts, IsLexeme t.kind t.text)
    (stops : StopsBefore kind text (ts.map Token.text).flatten) :
    StopsBefore kind text (blankedTexts ts) := by
  cases ts with
  | nil => exact stops
  | cons t ts =>
    obtain ⟨c, more, same⟩ := isLexeme_cons (lexemes t (by simp))
    rw [blankedTexts_cons]
    by_cases unknown : t.kind = .unknown
    · have positive : 0 < t.text.size := Text.size_pos (by simp [same])
      obtain ⟨n, size⟩ := Nat.exists_eq_add_of_lt positive
      have front : t.blanked = ' ' :: Text.spaces n := by
        rw [Token.blanked_unknown unknown, size, Nat.zero_add, Text.spaces, List.replicate_succ]
        rfl
      intro d member
      rw [front] at member
      cases member
      exact stopsAt_of_blank solid rfl text
    · intro d member
      rw [Token.blanked_known unknown] at member
      refine stops d ?_
      rw [same] at member
      rw [List.map_cons, List.flatten_cons, same]
      exact member

/-- Blanking keeps every number and operator and makes no other token but white space. -/
theorem solid_tokens_blankedTexts {start : Nat} {text : Text} {ts : List Token}
    (cut : Tokenization start text ts) :
    Token.solid (Scan.mk start (blankedTexts ts)).tokens = Token.counted ts := by
  induction ts generalizing start text with
  | nil =>
    rw [tokens_of_none (next?_eq_none_iff.mpr rfl)]
    rfl
  | cons t ts ih =>
    obtain ⟨rfl, isLexeme, rest, _, stops, later⟩ := (tokenization_cons _ _ t ts).mp cut
    have inside := ih later
    rw [blankedTexts_cons]
    by_cases counts : t.Counts
    · rw [← later.whole] at stops
      have stops' := stopsBefore_blankedTexts counts.1 later.lexemes stops
      rw [Token.blanked_known counts.2, tokens_of_lexeme rfl isLexeme rfl stops',
        solid_cons_other counts.1, inside, Token.counted_cons counts]
    · -- A token that does not count becomes white space in front of the rest.
      rw [solid_tokens_blank_append (Token.blanked_isBlank isLexeme counts), Token.blanked_size,
        Token.counted_cons_idle counts]
      exact inside

theorem solid_tokenize_blankUnknowns (text : Text) :
    Token.solid (tokenize (blankUnknowns text)) = Token.counted (tokenize text) :=
  solid_tokens_blankedTexts (tokens_tokenization (Scan.ofText text))

theorem known_tokenize_blankUnknowns (text : Text) :
    ∀ t ∈ tokenize (blankUnknowns text), t.kind ≠ .unknown := by
  intro t member unknown
  have solid : t ∈ Token.solid (tokenize (blankUnknowns text)) := by
    simp [Token.solid, member, unknown]
  rw [solid_tokenize_blankUnknowns] at solid
  have counts : t.Counts := by simpa [Token.counted] using (List.mem_filter.mp solid).2
  exact counts.2 unknown

theorem blankUnknowns_size (text : Text) : (blankUnknowns text).size = text.size := by
  have cut := tokens_tokenization (Scan.ofText text)
  rw [blankUnknowns, blankedTexts_size]
  exact congrArg Text.size cut.whole

namespace Rules

theorem evaluateTokens_congr {rules rules' : Rules} {ts us : List Token}
    (division : rules.zeroDivision = rules'.zeroDivision) (same : rules.keep ts = rules'.keep us) :
    rules.evaluateTokens ts = rules'.evaluateTokens us := by
  simp only [evaluateTokens, evaluateRaw, same, division]

/-- A lenient reading is a strict one of the text with blanks for the unknown characters: the
    same value or the same fault at the same byte. The numbers and operators it reads are
    those of the text, so no number joins another over a dropped character. -/
theorem lenient_eq_strict_blankUnknowns (division : ZeroDivision) (text : Text) :
    (Rules.mk .lenient division).evaluate text =
      (Rules.mk .strict division).evaluate (blankUnknowns text) ∧
    (blankUnknowns text).size = text.size ∧
    Token.solid (tokenize (blankUnknowns text)) = Token.counted (tokenize text) := by
  refine ⟨?_, blankUnknowns_size text, solid_tokenize_blankUnknowns text⟩
  have strict := keep_eq_solid ⟨.strict, division⟩ (known_tokenize_blankUnknowns text)
  have lenient := keep_eq ⟨.lenient, division⟩ (tokenize text)
  rw [refused_of_lenient rfl] at lenient
  rw [solid_tokenize_blankUnknowns] at strict
  exact evaluateTokens_congr rfl (lenient.trans strict.symm)

/-- The second point belongs to no number, and the letter has two bytes. -/
example : blankUnknowns "1.2.é3".toList = "1.2   3".toList := by
  rw [blankUnknowns, tokenize_eq_steps]
  rfl

end Rules
end LineCalc
