import LineCalc.Command.Libraries
import LineCalc.Proofs.Causes

/-!
Where faults are reported. A fault with a position points at the first byte of a token
that it names, so there is always a place in the text for the caret. Only a wrong number
of values has no position.
-/
namespace LineCalc

variable {rules : Rules} {text : Text} {t : Token} {e : CalcError}

section Place

theorem tokenization_place {start : Nat} {ts : List Token} (cut : Tokenization start text ts)
    (member : t ∈ ts) :
    ∃ before after, text = before ++ (t.text ++ after) ∧ t.start = start + before.size := by
  induction ts generalizing start text with
  | nil => cases member
  | cons u ts ih =>
    obtain ⟨rfl, _, rest, rfl, _, later⟩ := (tokenization_cons _ _ u ts).mp cut
    rcases List.mem_cons.mp member with rfl | inside
    · exact ⟨[], rest, rfl, rfl⟩
    · obtain ⟨before, after, rfl, place⟩ := ih later inside
      refine ⟨u.text ++ before, after, by simp, ?_⟩
      rw [place, Token.stop, Text.size_append, Nat.add_assoc]

theorem tokenize_place (member : t ∈ tokenize text) :
    ∃ before after, text = before ++ (t.text ++ after) ∧ t.start = before.size := by
  obtain ⟨before, after, whole, place⟩ :=
    tokenization_place (tokens_tokenization (Scan.ofText text)) member
  refine ⟨before, after, whole, ?_⟩
  rw [place]
  exact Nat.zero_add _

theorem cut_tokenize (member : t ∈ tokenize text) :
    (text.cut t.start).1.size = t.start ∧ t.text <+: (text.cut t.start).2 := by
  obtain ⟨before, after, rfl, place⟩ := tokenize_place member
  rw [place, Text.cut_at_size]
  exact ⟨rfl, List.prefix_append t.text after⟩

theorem start_lt_size (member : t ∈ tokenize text) : t.start < text.size := by
  obtain ⟨before, after, whole, place⟩ := tokenize_place member
  obtain ⟨c, rest, same⟩ := isLexeme_cons (isLexeme_of_tokenize member)
  have positive := c.utf8Size_pos
  rw [whole, Text.size_append, Text.size_append, same, Text.size_cons]
  omega

theorem not_isBlank_of_solid (member : t ∈ tokenize text) (solid : t.kind ≠ .blank) :
    ¬ text.IsBlank := by
  intro blank
  have isLexeme := isLexeme_of_tokenize member
  obtain ⟨before, after, rfl, _⟩ := tokenize_place member
  obtain ⟨c, rest, same⟩ := isLexeme_cons isLexeme
  have inside : c ∈ before ++ (t.text ++ after) := by simp [same]
  rw [same] at isLexeme
  exact solid ((isBlank_head isLexeme).mp (List.all_eq_true.mp blank c inside))

end Place

/-- What a fault says of the token it points at. -/
def CalcError.Names : CalcError → Token → Prop
  | .unknownCharacter c _, t => t.kind = .unknown ∧ t.text = c ∧ c.length = 1
  | .unbalanced _, t => t.kind = .operator ∧ (t.text = ['('] ∨ t.text = [')'])
  | .missingOperand c _, t => t.kind = .operator ∧ t.text = [c] ∧ c ∈ "+-*/".toList
  | .zeroDivisor _, t => t.kind = .operator ∧ t.text = ['/']
  | .badNumber _ _, _ | .notOneValue _, _ | .notAnOperator _, _ => False

def PointsAt (e : CalcError) (t : Token) (text : Text) : Prop :=
  t ∈ tokenize text ∧ t.kind ≠ .blank ∧ e.position = some t.start ∧ e.Names t

theorem text_of_symbol {c : Char} (isLexeme : IsLexeme t.kind t.text)
    (symbol : t.symbol? = some c) : t.kind = .operator ∧ t.text = [c] := by
  have operator := Token.kind_of_symbol symbol
  rw [operator] at isLexeme
  obtain ⟨d, _, same⟩ := isLexeme
  simp only [Token.symbol?, operator, same, ↓reduceIte, List.head?_cons,
    Option.some.injEq] at symbol
  exact ⟨operator, by rw [same, symbol]⟩

theorem pointsAt_of_unknown (member : t ∈ tokenize text) (unknown : t.kind = .unknown) :
    PointsAt (.unknownCharacter t.text t.start) t text := by
  have isLexeme := isLexeme_of_tokenize member
  rw [unknown] at isLexeme
  obtain ⟨c, same, _⟩ := isLexeme
  exact ⟨member, by simp [unknown], rfl, unknown, rfl, by simp [same]⟩

theorem pointsAt_of_parenthesis (member : t ∈ tokenize text)
    (parenthesis : t.opens = true ∨ t.closes = true) :
    PointsAt (.unbalanced t.start) t text := by
  have isLexeme := isLexeme_of_tokenize member
  rcases parenthesis with opens | closes
  · obtain ⟨operator, same⟩ := text_of_symbol isLexeme (Token.opens_iff.mp opens)
    exact ⟨member, by simp [operator], rfl, operator, Or.inl same⟩
  · obtain ⟨operator, same⟩ := text_of_symbol isLexeme (Token.closes_iff.mp closes)
    exact ⟨member, by simp [operator], rfl, operator, Or.inr same⟩

theorem pointsAt_of_misapplied {policy : ZeroDivision} (member : t ∈ tokenize text)
    (misapplied : Misapplied policy t e) : PointsAt e t text := by
  have isLexeme := isLexeme_of_tokenize member
  cases misapplied with
  | operand symbol arithmetic =>
    obtain ⟨operator, same⟩ := text_of_symbol isLexeme symbol
    exact ⟨member, by simp [operator], rfl, operator, same, arithmetic⟩
  | divisor reject symbol =>
    obtain ⟨operator, same⟩ := text_of_symbol isLexeme symbol
    exact ⟨member, by simp [operator], rfl, operator, same⟩

theorem pointsAt_of_evaluate (failed : rules.evaluate text = .error e) :
    (∃ n, e = .notOneValue n) ∨ ∃ t, PointsAt e t text := by
  cases Rules.textFault_of_evaluate failed with
  | @refused t refused =>
    have found := (Rules.refused_eq_some_iff.mp refused).2
    have unknown : t.kind = .unknown := by simpa using List.find?_some found
    exact Or.inr ⟨t, pointsAt_of_unknown (List.mem_of_find?_eq_some found) unknown⟩
  | @unbalanced t passed member parenthesis unbalanced =>
    exact Or.inr ⟨t, pointsAt_of_parenthesis member parenthesis⟩
  | @count n other => exact Or.inl ⟨n, rfl⟩
  | @misapplied t e member misapplied =>
    exact Or.inr ⟨t, pointsAt_of_misapplied member misapplied⟩

namespace Command

theorem caret_of_tokenize (member : t ∈ tokenize text) :
    ∃ caret, caret? text t.start = some caret := by
  have boundary : text.IsBoundary t.start := (cut_tokenize member).1
  exact ⟨_, by rw [caret?, if_pos ⟨start_lt_size member, boundary⟩]⟩

def tableOutput (withTokens : Bool) (text : Text) : Text :=
  if withTokens then line [] ++ line (tokenTable (tokenize text)) else []

theorem eval_out [Json.Writer] [Painter] (colored withTokens : Bool) :
    (eval rules colored ⟨text, false, .text, withTokens⟩).out =
      line (paintedMessage colored (Answer.ofText rules text)) ++
        lineIfAny (answerCaret? (Answer.ofText rules text)) ++ tableOutput withTokens text := rfl

theorem eval_out_of_pointsAt [Json.Writer] [Painter] (failed : rules.evaluate text = .error e)
    (points : PointsAt e t text) {caret : Text} (found : caret? text t.start = some caret)
    (colored withTokens : Bool) :
    (eval rules colored ⟨text, false, .text, withTokens⟩).out =
      line (paint colored .failure e.message) ++ line caret ++ tableOutput withTokens text := by
  obtain ⟨member, solid, place, _⟩ := points
  have shown : ¬ text.IsBlank := not_isBlank_of_solid member solid
  have outcome : rules.evaluateTokens (tokenize text) = .error e := failed
  have answer : Answer.ofText rules text = ⟨text, tokenize text, some (.error e)⟩ := by
    simp [Answer.ofText, shown, outcome]
  have pointed : answerCaret? (Answer.ofText rules text) = some caret := by
    simp [answer, answerCaret?, Answer.errorPosition?, Answer.error?, place, found]
  have message : paintedMessage colored (Answer.ofText rules text) =
      paint colored .failure e.message := by
    simp [answer, paintedMessage, answerInk?, Answer.isBlank, Answer.isSuccess, Answer.value?,
      Answer.message]
  rw [eval_out, pointed, message, lineIfAny]

theorem eval_out_of_position_none [Json.Writer] [Painter]
    (failed : rules.evaluate text = .error e) (nowhere : e.position = none)
    (colored withTokens : Bool) :
    (eval rules colored ⟨text, false, .text, withTokens⟩).out =
      line (paintedMessage colored (Answer.ofText rules text)) ++ tableOutput withTokens text := by
  have outcome : rules.evaluateTokens (tokenize text) = .error e := failed
  have pointed : answerCaret? (Answer.ofText rules text) = none := by
    by_cases blank : text.IsBlank
    · simp [answerCaret?, Answer.errorPosition?, Answer.error?, Answer.ofText, blank]
    · simp [answerCaret?, Answer.errorPosition?, Answer.error?, Answer.ofText, blank, outcome,
        nowhere]
  rw [eval_out, pointed, lineIfAny, List.append_nil]

end Command

/-- Every position that a fault reports is the start of a token that the fault names, and the
    caret is drawn under it. Faults without a position count values. -/
theorem fault_points_at_token [Json.Writer] [Command.Painter] (rules : Rules) (text : Text)
    (e : CalcError) (failed : rules.evaluate text = .error e) :
    (e.position = none ↔ ∃ n, e = .notOneValue n) ∧
    (∀ p, e.position = some p →
      p < text.size ∧ text.IsBoundary p ∧
      (∃ t ∈ tokenize text, t.start = p ∧ t.kind ≠ .blank ∧ t.text <+: (text.cut p).2 ∧
        e.Names t) ∧
      ∃ caret, Command.caret? text p = some caret ∧ ∀ colored withTokens,
        (Command.eval rules colored ⟨text, false, .text, withTokens⟩).out =
          Command.line (Command.paint colored .failure e.message) ++ Command.line caret ++
            Command.tableOutput withTokens text) ∧
    (e.position = none → ∀ colored withTokens,
      (Command.eval rules colored ⟨text, false, .text, withTokens⟩).out =
        Command.line (Command.paintedMessage colored (Answer.ofText rules text)) ++
          Command.tableOutput withTokens text) := by
  refine ⟨?_, ?_, Command.eval_out_of_position_none failed⟩
  · constructor
    · intro nowhere
      rcases pointsAt_of_evaluate failed with count | ⟨t, _, _, place, _⟩
      · exact count
      · rw [nowhere] at place
        cases place
    · rintro ⟨n, rfl⟩
      rfl
  · intro p position
    rcases pointsAt_of_evaluate failed with ⟨n, rfl⟩ | ⟨t, points⟩
    · cases position
    · have ⟨member, solid, place, names⟩ := points
      obtain rfl : t.start = p := Option.some.inj (place.symm.trans position)
      have ⟨boundary, begins⟩ := cut_tokenize member
      obtain ⟨caret, found⟩ := Command.caret_of_tokenize member
      refine ⟨start_lt_size member, boundary, ⟨t, member, rfl, solid, begins, names⟩, caret,
        found, ?_⟩
      exact Command.eval_out_of_pointsAt failed points found

theorem fault_points_at_token_division :
    (Rules.mk .lenient .reject).evaluate "é 1/(2-2)".toList = .error (.zeroDivisor 4) ∧
      Text.IsBoundary "é 1/(2-2)".toList 4 ∧
      ∃ t ∈ tokenize "é 1/(2-2)".toList, t.start = 4 ∧ t.text = ['/'] := by
  have cut : tokenize "é 1/(2-2)".toList =
      [⟨['é'], .unknown, 0⟩, ⟨[' '], .blank, 2⟩, ⟨['1'], .number, 3⟩, ⟨['/'], .operator, 4⟩,
        ⟨['('], .operator, 5⟩, ⟨['2'], .number, 6⟩, ⟨['-'], .operator, 7⟩, ⟨['2'], .number, 8⟩,
        ⟨[')'], .operator, 9⟩] :=
    (tokenize_eq_steps _).trans rfl
  have failed : (Rules.mk .lenient .reject).evaluate "é 1/(2-2)".toList =
      .error (.zeroDivisor 4) := by
    rw [Rules.evaluate, cut]
    rfl
  obtain ⟨_, boundary, ⟨t, member, place, _, _, _, division⟩, _⟩ :=
    (fault_points_at_token _ _ _ failed).2.1 4 rfl
  exact ⟨failed, boundary, t, member, place, division⟩

end LineCalc
