import LineCalc.Proofs.Answer

/-!
Where a caret is printed. The expression is indented, and the caret's line is the next one: there
it stands behind as many characters as the expression has in front of the one at fault. So it
stands under this character if the expression is a single line, and elsewhere if it has a line
feed, in front of this character or behind it.
-/
namespace LineCalc.Command

def behindCharacter (place : Nat × Nat) (c : Char) : Nat × Nat :=
  if c = '\n' then (place.1 + 1, 0) else (place.1, place.2 + 1)

def printPlace (printed : Text) : Nat × Nat := printed.foldl behindCharacter (0, 0)

/-- What is printed from here on begins on the next line, in the same column. -/
def IsBelow (printed between : Text) : Prop :=
  printPlace (printed ++ between) = ((printPlace printed).1 + 1, (printPlace printed).2)

section Places

variable {t printed : Text}

theorem printPlace_append (s t : Text) :
    printPlace (s ++ t) = t.foldl behindCharacter (printPlace s) := List.foldl_append

theorem foldl_of_single (single : '\n' ∉ t) (place : Nat × Nat) :
    t.foldl behindCharacter place = (place.1, place.2 + t.length) := by
  induction t generalizing place with
  | nil => rfl
  | cons c rest ih =>
    obtain ⟨other, later⟩ := List.ne_and_not_mem_of_not_mem_cons single
    rw [List.foldl_cons, ih later, behindCharacter, if_neg other.symm, List.length_cons,
      Nat.add_assoc, Nat.add_comm 1]

theorem printPlace_line (single : '\n' ∉ t) (printed : Text) :
    printPlace (printed ++ line t) = ((printPlace printed).1 + 1, 0) := by
  rw [line, ← List.append_assoc, printPlace_append, printPlace_append, foldl_of_single single]
  rfl

theorem foldl_line (t : Text) (place : Nat × Nat) :
    (t.foldl behindCharacter place).1 = place.1 + t.count '\n' := by
  induction t generalizing place with
  | nil => rfl
  | cons c rest ih =>
    rw [List.foldl_cons, ih, behindCharacter, List.count_cons]
    by_cases feed : c = '\n' <;> simp [feed]; omega

theorem foldl_column_le (t : Text) (place : Nat × Nat) :
    (t.foldl behindCharacter place).2 ≤ place.2 + t.length := by
  induction t generalizing place with
  | nil => exact Nat.le_refl _
  | cons c rest ih =>
    have later := ih (behindCharacter place c)
    have step : (behindCharacter place c).2 ≤ place.2 + 1 := by
      rw [behindCharacter]
      split <;> simp
    rw [List.foldl_cons, List.length_cons]
    omega

theorem foldl_column_lt (feed : '\n' ∈ t) (place : Nat × Nat) :
    (t.foldl behindCharacter place).2 < place.2 + t.length := by
  obtain ⟨front, behind, rfl⟩ := List.append_of_mem feed
  have later := foldl_column_le behind (behindCharacter (front.foldl behindCharacter place) '\n')
  have start : (behindCharacter (front.foldl behindCharacter place) '\n').2 = 0 := rfl
  rw [List.foldl_append, List.foldl_cons, List.length_append, List.length_cons]
  omega

theorem splitOn_head (single : '\n' ∉ t) (rest : Text) :
    ∃ l more, (t ++ rest).splitOn '\n' = (t ++ l) :: more := by
  by_cases feed : '\n' ∈ rest
  · obtain ⟨l, behind, rfl, first⟩ := List.eq_append_cons_of_mem feed
    have whole := List.splitOn_append_cons_self_of_not_mem
      (List.not_mem_append single first) behind
    exact ⟨l, behind.splitOn '\n', by rw [← whole, List.append_assoc]⟩
  · exact ⟨rest, [], List.splitOn_eq_singleton (List.not_mem_append single feed)⟩

theorem splitOn_foldl {c : Char} (other : c ≠ '\n') (printed rest : Text) {before : Text}
    (single : '\n' ∉ before) (first : Nat) :
    ∃ i l, (printed.foldl behindCharacter (first, before.length)).1 = first + i ∧
      ((before ++ printed ++ c :: rest).splitOn '\n')[i]? = some l ∧
      l[(printed.foldl behindCharacter (first, before.length)).2]? = some c := by
  induction printed generalizing before first with
  | nil =>
    have alone : '\n' ∉ before ++ [c] :=
      List.not_mem_append single (by simpa using other.symm)
    obtain ⟨l, more, split⟩ := splitOn_head alone rest
    refine ⟨0, before ++ [c] ++ l, rfl, ?_, ?_⟩
    · rw [List.append_nil, List.append_cons, split, List.getElem?_cons_zero]
    · simp
  | cons d printed ih =>
    by_cases feed : d = '\n'
    · subst feed
      obtain ⟨i, l, place, found, column⟩ := ih List.not_mem_nil (first + 1)
      refine ⟨i + 1, l, ?_, ?_, column⟩
      · rw [Nat.add_comm i, ← Nat.add_assoc, ← place]
        rfl
      · rw [List.append_assoc, List.cons_append,
          List.splitOn_append_cons_self_of_not_mem single, List.getElem?_cons_succ]
        exact found
    · have longer : '\n' ∉ before ++ [d] :=
        List.not_mem_append single (by simpa using Ne.symm feed)
      obtain ⟨i, l, place, found, column⟩ := ih longer first
      have step : behindCharacter (first, before.length) d = (first, (before ++ [d]).length) := by
        rw [behindCharacter, if_neg feed, List.length_append, List.length_singleton]
      rw [List.foldl_cons, step]
      refine ⟨i, l, place, ?_, column⟩
      rw [List.append_cons before d printed]
      exact found

def Holds (out : Text) (place : Nat × Nat) (c : Char) : Prop :=
  ∃ l, (out.splitOn '\n')[place.1]? = some l ∧ l[place.2]? = some c

theorem holds_printPlace {c : Char} (other : c ≠ '\n') (printed rest : Text) :
    Holds (printed ++ c :: rest) (printPlace printed) c := by
  have start : '\n' ∉ ([] : Text) := List.not_mem_nil
  obtain ⟨i, l, place, found, column⟩ := splitOn_foldl other printed rest start 0
  obtain rfl : (printPlace printed).1 = i := place.trans (Nat.zero_add i)
  exact ⟨l, found, column⟩

end Places

/-- What a command prints for a fault at a byte of the expression. -/
inductive PrintsFault [Json.Writer] [Painter] (expression : Text) : Nat → Text → Prop
  | eval {rules : Rules} {p : Nat}
      (place : (Answer.ofText rules expression).errorPosition? = some p)
      (colored withTokens : Bool) :
      PrintsFault expression p (eval rules colored ⟨expression, false, .text, withTokens⟩).out
  | check {cause : CalcError} {p : Nat}
      (unbalanced : Parens.balance (tokenize expression) = .error cause)
      (place : cause.position = some p) :
      PrintsFault expression p (check expression).out

def caretLine (column : Nat) : Text := "  ".toList ++ Text.spaces column ++ ['^']

section Faults

variable {t expression caret out : Text} {p : Nat}

theorem line_caret (found : caret? t p = some caret) :
    line caret = line ("  ".toList ++ t) ++ line (caretLine (t.cut p).1.length) := by
  rw [caret?] at found
  split at found
  · obtain rfl := Option.some.inj found
    simp [line, caretLine]
  · cases found

theorem caret_of_place (inside : p < t.size ∧ t.IsBoundary p) :
    ∃ caret, caret? t p = some caret := ⟨_, if_pos inside⟩

theorem character_of_token {u : Token} (member : u ∈ tokenize t) (solid : u.kind ≠ .blank) :
    ∃ c behind, t = (t.cut u.start).1 ++ c :: behind ∧ isBlank c = false := by
  have isLexeme := isLexeme_of_tokenize member
  obtain ⟨c, rest, same⟩ := isLexeme_cons isLexeme
  obtain ⟨behind, split⟩ := (cut_tokenize member).2
  rw [same] at isLexeme split
  refine ⟨c, rest ++ behind, ?_, ?_⟩
  · rw [← List.cons_append, split, Text.cut_append]
  · exact Bool.eq_false_iff.mpr (mt (isBlank_head isLexeme).mp solid)

theorem feed_not_mem_paint [Painter] {said : Text} (single : '\n' ∉ said) (colored : Bool)
    (ink : Ink) : '\n' ∉ paint colored ink said := by
  cases colored with
  | false => exact single
  | true => exact Painter.single ink said single

theorem out_of_printsFault [Json.Writer] [Painter]
    (prints : PrintsFault expression p out) :
    ∃ said rest, '\n' ∉ said ∧ (∃ u ∈ tokenize expression, u.kind ≠ .blank ∧ u.start = p) ∧
      out = line said ++ line ("  ".toList ++ expression) ++
        line (caretLine (expression.cut p).1.length) ++ rest := by
  cases prints with
  | @eval rules _ place colored withTokens =>
    obtain ⟨caret, found⟩ := caret_of_place (Answer.place_of_errorPosition place)
    obtain ⟨e, fault, position⟩ := Option.bind_eq_some_iff.mp place
    obtain ⟨shown, failed⟩ := Answer.error?_eq_some_iff.mp fault
    have message : paintedMessage colored (Answer.ofText rules expression) =
        paint colored .failure e.message := by
      rw [Answer.ofText_eq (Answer.outcome?_of_error shown failed)]
      rfl
    have single := feed_not_mem_paint (feed_not_mem_of_evaluate failed) colored .failure
    refine ⟨_, tableOutput withTokens expression, single, ?_, ?_⟩
    · rcases pointsAt_of_evaluate failed with ⟨n, rfl⟩ | ⟨u, member, solid, start, _⟩
      · cases position
      · exact ⟨u, member, solid, Option.some.inj (start.symm.trans position)⟩
    · have pointed : answerCaret? (Answer.ofText rules expression) = some caret := by
        rw [answerCaret?, place]
        exact found
      simp only [eval_out, message, pointed, lineIfAny, line_caret found, List.append_assoc]
  | @check cause _ unbalanced place =>
    obtain ⟨u, member, parenthesis, rfl⟩ := Parens.balance_error unbalanced
    obtain rfl : u.start = p := Option.some.inj place
    obtain ⟨caret, found⟩ := caret_of_tokenize member
    have points := pointsAt_of_parenthesis member parenthesis
    refine ⟨(Failure.parentheses (.unbalanced u.start)).message, [], ?_,
      ⟨u, member, points.2.1, rfl⟩, ?_⟩
    · exact feed_not_mem_append (by decide) (feed_not_mem_numbered (by decide) u.start)
    · have pointed : (CalcError.unbalanced u.start).position.bind (caret? expression) =
          some caret := found
      simp only [check, unbalanced, pointed, lineIfAny, line_caret found, List.append_nil,
        List.append_assoc]

/-- The caret stands as far from the margin as the character does from its indented line, so any
    line feed in the expression sets them apart. -/
theorem isBelow_iff {said : Text} (single : '\n' ∉ said) (before behind : Text) :
    IsBelow (line said ++ "  ".toList ++ before)
        (behind ++ "\n  ".toList ++ Text.spaces before.length) ↔ '\n' ∉ before ++ behind := by
  have start : printPlace (line said ++ "  ".toList ++ before) =
      before.foldl behindCharacter (1, 2) := by
    rw [printPlace_append, printPlace_append]
    have message := printPlace_line single []
    rw [List.nil_append] at message
    rw [message]
    rfl
  have caret : printPlace (line said ++ "  ".toList ++ before ++
      (behind ++ "\n  ".toList ++ Text.spaces before.length)) =
        (1 + (before ++ behind).count '\n' + 1, 2 + before.length) := by
    have margin : '\n' ∉ "  ".toList ++ Text.spaces before.length :=
      feed_not_mem_append (by decide) (feed_not_mem_spaces _)
    have row := foldl_line (before ++ behind) (1, 2)
    rw [List.foldl_append] at row
    rw [printPlace_append, start, List.append_assoc, List.foldl_append]
    have feed : "\n  ".toList ++ Text.spaces before.length =
        '\n' :: ("  ".toList ++ Text.spaces before.length) := rfl
    rw [feed, List.foldl_cons, behindCharacter, if_pos rfl, foldl_of_single margin, row,
      List.length_append, Text.spaces, List.length_replicate, Nat.zero_add]
    rfl
  rw [IsBelow, caret, start, Prod.mk.injEq, foldl_line, List.count_append]
  constructor
  · rintro ⟨lines, columns⟩ feed
    rcases List.mem_append.mp feed with early | late
    · exact absurd (foldl_column_lt early (1, 2)) (by omega)
    · have := List.count_pos_iff.mpr late
      omega
  · intro none
    obtain ⟨early, late⟩ := not_or.mp (mt List.mem_append.mpr none)
    rw [foldl_of_single early, List.count_eq_zero.mpr early, List.count_eq_zero.mpr late]
    exact ⟨rfl, rfl⟩

/-- The character at fault and the caret are both printed. The caret stands on the next line and in
    the column of the character exactly if there is no line feed in the expression. -/
theorem caret_below_character_iff [Json.Writer] [Painter]
    (prints : PrintsFault expression p out) :
    ∃ said c behind rest,
      let before := (expression.cut p).1
      let shown := line said ++ "  ".toList ++ before
      let between := c :: behind ++ "\n  ".toList ++ Text.spaces before.length
      (Text.size before = p ∧ expression = before ++ c :: behind) ∧
      out = shown ++ between ++ '^' :: '\n' :: rest ∧
      Holds out (printPlace shown) c ∧ Holds out (printPlace (shown ++ between)) '^' ∧
      (IsBelow shown between ↔ '\n' ∉ expression) := by
  obtain ⟨said, rest, single, ⟨u, member, solid, rfl⟩, printed⟩ := out_of_printsFault prints
  obtain ⟨c, behind, split, ink⟩ := character_of_token member solid
  have visible : c ≠ '\n' := by
    rintro rfl
    exact absurd ink (by decide)
  have size := (cut_tokenize member).1
  generalize (expression.cut u.start).1 = before at *
  have whole : out = line said ++ "  ".toList ++ before ++
      (c :: behind ++ "\n  ".toList ++ Text.spaces before.length) ++ '^' :: '\n' :: rest := by
    rw [printed, split]
    simp [line, caretLine]
  refine ⟨said, c, behind, rest, ⟨size, split⟩, whole, ?_, ?_, ?_⟩
  · rw [whole, List.append_assoc]
    exact holds_printPlace visible _ _
  · rw [whole]
    exact holds_printPlace (by decide) _ _
  · rw [split]
    exact isBelow_iff single before (c :: behind)

theorem caret_below_character_iff_open :
    let out := (check "é+(".toList).out
    PrintsFault "é+(".toList 3 out ∧ ∃ shown between rest,
      out = shown ++ between ++ '^' :: rest ∧ Holds out (printPlace shown) '(' ∧
      IsBelow shown between := by
  have unbalanced : Parens.balance (tokenize "é+(".toList) = .error (.unbalanced 3) := by
    have cut : tokenize "é+(".toList = [⟨['é'], .unknown, 0⟩, ⟨['+'], .operator, 2⟩,
        ⟨['('], .operator, 3⟩] := (tokenize_eq_steps _).trans rfl
    rw [cut]
    rfl
  have prints := PrintsFault.check unbalanced rfl
  obtain ⟨said, c, behind, rest, ⟨_, split⟩, whole, shown, _, below⟩ :=
    caret_below_character_iff prints
  obtain rfl : '(' = c := by
    have before : (Text.cut "é+(".toList 3).1 = ['é', '+'] := rfl
    rw [before] at split
    exact (List.cons.inj (List.cons.inj (List.cons.inj split).2).2).1
  exact ⟨prints, _, _, _, whole, shown, below.mpr (by decide)⟩

end Faults

/-- The unknown character is the second one of its line, the caret on the next line is the sixth
    one. -/
theorem caret_beside_character :
    let r : EvalRequest := ⟨"1\n+x".toList, false, .text, false⟩
    let message := "Syntax Error: Unrecognized character 'x' at position 3".toList
    (Answer.ofText {} r.expression).errorPosition? = some 3 ∧
      (eval {} false r).out.splitOn '\n' =
        [message, "  1".toList, "+x".toList, "     ^".toList, []] ∧
      "+x".toList[5]? = none := by
  intro r message
  have failed : Rules.evaluate {} "1\n+x".toList = .error (.unknownCharacter ['x'] 3) :=
    (Rules.evaluate_eq_steps _ _).trans rfl
  have shown : ¬ Text.IsBlank "1\n+x".toList := by decide
  have fault := Answer.ofText_eq (Answer.outcome?_of_error shown failed)
  refine ⟨by rw [fault]; rfl, ?_, rfl⟩
  rw [eval_out, fault]
  decide +kernel

end LineCalc.Command
