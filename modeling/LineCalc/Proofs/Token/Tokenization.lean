import LineCalc.Proofs.Token.Lexeme
import LineCalc.Proofs.Token.Scan
import Mathlib.Data.List.Chain

/-!
Tokenizing a text as a relation: the tokens lie end to end over the text, each text
is a lexeme of its kind, and no token could take in the beginning of the next one.
Every text has exactly one such list of tokens.
-/
namespace LineCalc

/-- The second token does not begin with what the first one would take in. -/
def Munches (t u : Token) : Prop :=
  ¬ (t.kind = .blank ∧ u.kind = .blank) ∧
    (t.kind = .number → ∀ c ∈ u.text.head?, c.isDigit = false ∧ ('.' ∉ t.text → c ≠ '.'))

structure Tokenization (start : Nat) (text : Text) (ts : List Token) : Prop where
  whole : (ts.map Token.text).flatten = text
  first : ∀ t ∈ ts.head?, t.start = start
  next : ts.IsChain fun t u => u.start = t.stop
  last : ∀ t ∈ ts.getLast?, t.stop = start + text.size
  lexemes : ∀ t ∈ ts, IsLexeme t.kind t.text
  maximal : ts.IsChain Munches

theorem isLexeme_cons {kind : Kind} {t : Text} (isLexeme : IsLexeme kind t) :
    ∃ c rest, t = c :: rest := by
  cases kind with
  | number =>
    obtain ⟨whole, part, nonempty, _, _, same⟩ := isLexeme
    obtain ⟨c, rest, rfl⟩ := List.exists_cons_of_ne_nil nonempty
    rcases same with rfl | rfl
    · exact ⟨c, rest, rfl⟩
    · exact ⟨c, rest ++ '.' :: part, rfl⟩
  | blank => exact List.exists_cons_of_ne_nil isLexeme.1
  | operator =>
    obtain ⟨c, _, rfl⟩ := isLexeme
    exact ⟨c, [], rfl⟩
  | unknown =>
    obtain ⟨c, rfl, _⟩ := isLexeme
    exact ⟨c, [], rfl⟩

theorem isBlank_head {kind : Kind} {c : Char} {t : Text} (isLexeme : IsLexeme kind (c :: t)) :
    isBlank c = true ↔ kind = .blank := by
  cases kind with
  | number =>
    obtain ⟨whole, part, nonempty, digits, _, same⟩ := isLexeme
    obtain ⟨d, more, rfl⟩ := List.exists_cons_of_ne_nil nonempty
    have head : c = d := by
      rcases same with same | same
      · exact (List.cons.inj same).1
      · exact (List.cons.inj same).1
    simp [head, not_blank_of_digit (digits d (by simp))]
  | blank => simp [isLexeme.2 c (by simp)]
  | operator =>
    obtain ⟨d, member, same⟩ := isLexeme
    obtain ⟨rfl, rfl⟩ := List.cons.inj same
    simp [not_blank_of_operator ((isOperator_iff c).mpr member)]
  | unknown =>
    obtain ⟨d, same, _, _, blank⟩ := isLexeme
    obtain ⟨rfl, rfl⟩ := List.cons.inj same
    simp [blank]

theorem munches_iff_stopsBefore (t : Token) {ts : List Token}
    (lexemes : ∀ u ∈ ts, IsLexeme u.kind u.text) :
    (∀ u ∈ ts.head?, Munches t u) ↔
      StopsBefore t.kind t.text (ts.map Token.text).flatten := by
  cases ts with
  | nil => simp [StopsBefore]
  | cons u ts =>
    have isLexeme := lexemes u (by simp)
    obtain ⟨c, more, same⟩ := isLexeme_cons isLexeme
    rw [same] at isLexeme
    have blank := isBlank_head isLexeme
    simp only [Munches, StopsBefore, StopsAt, same, List.map_cons, List.flatten_cons,
      List.cons_append, List.head?_cons, Option.mem_some_iff, forall_eq', ← blank, not_and,
      Bool.not_eq_true]
    exact and_comm

theorem tokenization_nil (start : Nat) (text : Text) : Tokenization start text [] ↔ text = [] := by
  constructor
  · intro cut
    exact cut.whole.symm
  · rintro rfl
    exact ⟨rfl, by simp, .nil, by simp, by simp, .nil⟩

theorem tokenization_cons (start : Nat) (text : Text) (t : Token) (ts : List Token) :
    Tokenization start text (t :: ts) ↔
      t.start = start ∧ IsLexeme t.kind t.text ∧ ∃ rest, text = t.text ++ rest ∧
        StopsBefore t.kind t.text rest ∧ Tokenization t.stop rest ts := by
  constructor
  · intro cut
    obtain ⟨follows, next⟩ := List.isChain_cons.mp cut.next
    obtain ⟨munches, maximal⟩ := List.isChain_cons.mp cut.maximal
    have begins : t.start = start := cut.first t rfl
    have whole : text = t.text ++ (ts.map Token.text).flatten := cut.whole.symm
    have lexemes : ∀ u ∈ ts, IsLexeme u.kind u.text := fun u member =>
      cut.lexemes u (List.mem_cons_of_mem t member)
    have stops := (munches_iff_stopsBefore t lexemes).mp munches
    refine ⟨begins, cut.lexemes t (by simp), _, whole, stops, rfl, follows, next, ?_, lexemes,
      maximal⟩
    intro u last
    have ends : u.stop = start + text.size := cut.last u (List.mem_getLast?_cons last)
    rw [ends, whole, Text.size_append, Token.stop, begins, Nat.add_assoc]
  · rintro ⟨rfl, isLexeme, rest, rfl, stops, cut⟩
    obtain rfl := cut.whole
    have munches := (munches_iff_stopsBefore t cut.lexemes).mpr stops
    refine ⟨rfl, ?_, List.isChain_cons.mpr ⟨cut.first, cut.next⟩, ?_, ?_,
      List.isChain_cons.mpr ⟨munches, cut.maximal⟩⟩
    · intro u member
      cases member
      rfl
    · intro u last
      rw [Text.size_append, ← Nat.add_assoc]
      cases ts with
      | nil =>
        cases last
        rfl
      | cons v ts => exact cut.last u (by simpa using last)
    · intro u member
      rcases List.mem_cons.mp member with rfl | later
      · exact isLexeme
      · exact cut.lexemes u later

theorem next?_of_lexeme {s : Scan} {t : Token} {rest : Text} (begins : t.start = s.position)
    (isLexeme : IsLexeme t.kind t.text) (left : s.remaining = t.text ++ rest)
    (stops : StopsBefore t.kind t.text rest) : s.next? = some (t, ⟨t.stop, rest⟩) := by
  obtain ⟨c, more, same⟩ := isLexeme_cons isLexeme
  rw [same] at isLexeme stops left
  have found := lexeme_unique isLexeme stops
  have token : (⟨c :: more, t.kind, s.position⟩ : Token) = t := by rw [← same, ← begins]
  simp [Scan.next?, left, found, token]

theorem lexeme_of_next? {s s' : Scan} {t : Token} (step : s.next? = some (t, s')) :
    IsLexeme t.kind t.text ∧ StopsBefore t.kind t.text s'.remaining := by
  unfold Scan.next? at step
  split at step
  · cases step
  · next c rest left =>
    cases step
    exact lexeme_isLexeme c rest

theorem tokens_tokenization (s : Scan) : Tokenization s.position s.remaining s.tokens := by
  fun_induction Scan.tokens s with
  | case1 s step =>
    exact (tokenization_nil _ _).mpr (next?_eq_none_iff.mp step)
  | case2 s t s' step later =>
    obtain ⟨whole, begins, ends⟩ := Scan.next?_append step
    obtain ⟨isLexeme, stops⟩ := lexeme_of_next? step
    rw [ends] at later
    exact (tokenization_cons _ _ t _).mpr ⟨begins, isLexeme, _, whole, stops, later⟩

theorem tokens_of_tokenization {s : Scan} {ts : List Token}
    (cut : Tokenization s.position s.remaining ts) : s.tokens = ts := by
  induction ts generalizing s with
  | nil =>
    have left := (tokenization_nil _ _).mp cut
    exact tokens_of_none (next?_eq_none_iff.mpr left)
  | cons t ts ih =>
    obtain ⟨begins, isLexeme, rest, whole, stops, later⟩ := (tokenization_cons _ _ t ts).mp cut
    -- The first token is the only lexeme that the scan can take here.
    have step := next?_of_lexeme begins isLexeme whole stops
    rw [tokens_of_some step, ih later]

/-- The tokens of a text are its one tokenization. -/
theorem tokenize_eq_iff_tokenization (text : Text) (ts : List Token) :
    tokenize text = ts ↔ Tokenization 0 text ts := by
  constructor
  · rintro rfl
    exact tokens_tokenization (Scan.ofText text)
  · intro cut
    exact tokens_of_tokenization (s := Scan.ofText text) cut

end LineCalc
