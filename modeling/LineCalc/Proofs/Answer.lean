import LineCalc.Proofs.Decimal.Display
import LineCalc.Proofs.Positions
import LineCalc.Proofs.Session

/-!
What an answer says. Its text is blank, or has a value, or has a fault; a fault with a place has it
inside the text; and whatever is said about it is a single line.
-/
namespace LineCalc

section Lines

variable {s t : Text}

theorem feed_not_mem_append (first : '\n' ∉ s) (second : '\n' ∉ t) : '\n' ∉ s ++ t :=
  fun member => (List.mem_append.mp member).elim first second

theorem feed_not_mem_of_digits (digits : ∀ c ∈ t, c.isDigit = true) : '\n' ∉ t := by
  intro member
  cases digits '\n' member

theorem feed_not_mem_ofNat (n : Nat) : '\n' ∉ Text.ofNat n :=
  feed_not_mem_of_digits Decimal.isDigit_ofNat

theorem feed_not_mem_spaces (n : Nat) : '\n' ∉ Text.spaces n := by
  intro member
  cases List.eq_of_mem_replicate member

theorem toList_toString (n : Nat) : (toString n).toList = Text.ofNat n := by
  simp [Text.ofNat, Nat.repr]

theorem feed_not_mem_numbered {words : String} (single : '\n' ∉ words.toList) (n : Nat) :
    '\n' ∉ (words ++ toString n).toList := by
  rw [String.toList_append, toList_toString]
  exact feed_not_mem_append single (feed_not_mem_ofNat n)

namespace Decimal

theorem feed_not_mem_pointText {part : Text} (digits : ∀ c ∈ part, c.isDigit = true) :
    '\n' ∉ pointText part := by
  rw [pointText]
  split
  · exact List.not_mem_nil
  · have point : '\n' ∉ ['.'] := by decide
    exact feed_not_mem_append point (feed_not_mem_of_digits digits)

theorem feed_not_mem_pointed (n : Nat) : '\n' ∉ pointed n := by
  obtain ⟨part, digits, _, _, same, _⟩ := pointed_eq n
  rw [same]
  exact feed_not_mem_append (feed_not_mem_ofNat _) (feed_not_mem_pointText digits)

theorem feed_not_mem_ofInt (n : Int) : '\n' ∉ ofInt n := by
  refine feed_not_mem_append ?_ (feed_not_mem_ofNat n.natAbs)
  split <;> decide

theorem feed_not_mem_scientific (x : Scientific) : '\n' ∉ scientific x := by
  obtain ⟨first, others, _, digits, same⟩ := scientific_eq x
  obtain ⟨leading, more⟩ := List.forall_mem_cons.mp digits
  have front : '\n' ∉ [first] := feed_not_mem_of_digits (List.forall_mem_singleton.mpr leading)
  have power : '\n' ∉ ['e'] ++ ofInt x.lead :=
    feed_not_mem_append (by decide) (feed_not_mem_ofInt x.lead)
  rw [same]
  exact feed_not_mem_append (feed_not_mem_append front (feed_not_mem_pointText more)) power

theorem feed_not_mem_magnitudeText (mantissa : Nat) (exponent : Int) :
    '\n' ∉ magnitudeText mantissa exponent := by
  unfold magnitudeText
  split_ifs
  · decide
  · exact feed_not_mem_pointed _
  · exact feed_not_mem_scientific _

theorem feed_not_mem_display (x : Float) : '\n' ∉ display x := by
  cases read : Binary.ofFloat x with
  | nan =>
    rw [display, read]
    decide
  | infinite negative =>
    rw [display, read]
    cases negative <;> decide
  | finite negative mantissa exponent =>
    rw [display_finite read]
    refine feed_not_mem_append ?_ (feed_not_mem_magnitudeText mantissa exponent)
    cases negative && decide (mantissa ≠ 0) <;> decide

end Decimal

theorem feed_not_mem_message {e : CalcError} (single : '\n' ∉ e.detail) : '\n' ∉ e.message := by
  refine feed_not_mem_append ?_ single
  cases e.isSyntax <;> decide

theorem feed_not_mem_notOneValue (n : Nat) : '\n' ∉ (CalcError.notOneValue n).message := by
  apply feed_not_mem_message
  change '\n' ∉ ("Malformed expression: expected a single result, found " ++ toString n ++
    " values").toList
  rw [String.toList_append]
  exact feed_not_mem_append (feed_not_mem_numbered (by decide) n) (by decide)

theorem feed_not_mem_unknown {u : Token} (member : u ∈ tokenize t) (unknown : u.kind = .unknown) :
    '\n' ∉ u.text := by
  have isLexeme := isLexeme_of_tokenize member
  rw [unknown] at isLexeme
  obtain ⟨c, same, _, _, solid⟩ := isLexeme
  rw [same, List.mem_singleton]
  rintro rfl
  cases solid

theorem feed_not_mem_of_pointsAt {e : CalcError} {u : Token} (points : PointsAt e u t) :
    '\n' ∉ e.message := by
  obtain ⟨member, _, _, names⟩ := points
  apply feed_not_mem_message
  cases e with
  | unbalanced p => exact feed_not_mem_numbered (by decide) p
  | zeroDivisor p => exact feed_not_mem_numbered (by decide) p
  | missingOperand c p =>
    have visible : c ≠ '\n' := by
      rintro rfl
      exact absurd names.2.2 (by decide)
    have shown : '\n' ∉ (String.singleton c).toList := by simpa using visible.symm
    have words : '\n' ∉ ("Missing operand for '" ++ toString c ++ "' at position ").toList := by
      rw [String.toList_append, String.toList_append]
      exact feed_not_mem_append (feed_not_mem_append (by decide) shown) (by decide)
    exact feed_not_mem_numbered words p
  | unknownCharacter c p =>
    obtain ⟨unknown, rfl, _⟩ := names
    have named : '\n' ∉ "Unrecognized character '".toList ++ u.text :=
      feed_not_mem_append (by decide) (feed_not_mem_unknown member unknown)
    exact feed_not_mem_append named (feed_not_mem_numbered (by decide) p)
  | badNumber | notOneValue | notAnOperator => cases names

theorem feed_not_mem_of_evaluate {rules : Rules} {e : CalcError}
    (failed : rules.evaluate t = .error e) : '\n' ∉ e.message := by
  rcases pointsAt_of_evaluate failed with ⟨n, rfl⟩ | ⟨u, points⟩
  · exact feed_not_mem_notOneValue n
  · exact feed_not_mem_of_pointsAt points

end Lines

theorem token_of_position {rules : Rules} {t : Text} {e : CalcError} {p : Nat}
    (failed : rules.evaluate t = .error e) (place : e.position = some p) :
    ∃ u ∈ tokenize t, u.start = p := by
  rcases pointsAt_of_evaluate failed with ⟨n, rfl⟩ | ⟨u, member, _, start, _⟩
  · cases place
  · exact ⟨u, member, Option.some.inj (start.symm.trans place)⟩

namespace Answer

variable {rules : Rules} {t : Text} {e : CalcError} {p : Nat}

theorem ofText_eq {outcome? : Option (Except CalcError Float)}
    (outcome : (ofText rules t).outcome? = outcome?) :
    ofText rules t = ⟨t, tokenize t, outcome?⟩ := by
  rw [← outcome]
  rfl

theorem outcome?_of_blank (blank : t.IsBlank) : (ofText rules t).outcome? = none := if_pos blank

theorem outcome?_of_shown (shown : ¬ t.IsBlank) :
    (ofText rules t).outcome? = some (rules.evaluate t) := if_neg shown

theorem outcome?_of_value {value : Float} (evaluated : rules.evaluate t = .ok value) :
    (ofText rules t).outcome? = some (.ok value) := by
  rw [outcome?_of_shown (Rules.not_isBlank_of_evaluate evaluated), evaluated]

theorem outcome?_of_error (shown : ¬ t.IsBlank) (failed : rules.evaluate t = .error e) :
    (ofText rules t).outcome? = some (.error e) := by
  rw [outcome?_of_shown shown, failed]

theorem error?_eq_some_iff :
    (ofText rules t).error? = some e ↔ ¬ t.IsBlank ∧ rules.evaluate t = .error e := by
  by_cases blank : t.IsBlank
  · simp [error?, outcome?_of_blank blank, blank]
  · rw [error?, outcome?_of_shown blank]
    cases rules.evaluate t <;> simp [blank]

theorem place_of_errorPosition (found : (ofText rules t).errorPosition? = some p) :
    p < t.size ∧ t.IsBoundary p := by
  obtain ⟨e, failed, place⟩ := Option.bind_eq_some_iff.mp found
  obtain ⟨u, member, rfl⟩ := token_of_position (error?_eq_some_iff.mp failed).2 place
  exact ⟨start_lt_size member, (cut_tokenize member).1⟩

end Answer

theorem Command.caret_of_position {rules : Rules} {t : Text} {e : CalcError}
    (failed : rules.evaluate t = .error e) :
    ∀ p, e.position = some p → ∃ caret, caret? t p = some caret := by
  intro p place
  obtain ⟨u, member, rfl⟩ := token_of_position failed place
  exact caret_of_tokenize member

end LineCalc
