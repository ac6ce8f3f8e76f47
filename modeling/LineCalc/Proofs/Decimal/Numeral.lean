import LineCalc.Decimal.Numeral
import LineCalc.Proofs.Token.Lexeme

/-!
Reading numerals. Digits with at most one point behind the first of them are always read,
and read to their end.
-/
namespace LineCalc.Decimal

theorem unsigned_of_parts (negative : Bool) {whole rest part : Text} (nonempty : whole ≠ [])
    (digits : ∀ c ∈ whole, c.isDigit = true) (stop : ∀ c ∈ rest.head?, c.isDigit = false)
    (split : fraction rest = (part, [])) :
    unsigned? negative (whole ++ rest) =
      some ⟨negative, ofDigits (whole ++ part), -part.length⟩ := by
  have front : whole.isEmpty = false := by simpa using nonempty
  simp [unsigned?, takeWhile_run digits stop, dropWhile_run digits stop, split, front, exponent?]

theorem fraction_of_places {part : Text} (places : ∀ c ∈ part, c.isDigit = true) :
    fraction ('.' :: part) = (part, []) := by
  rw [fraction, List.takeWhile_eq_self_iff.mpr places, List.dropWhile_eq_nil_iff.mpr places]

theorem unsigned_of_isNumeral (negative : Bool) {t : Text} (numeral : IsNumeral t) :
    ∃ n, unsigned? negative t = some n := by
  obtain ⟨whole, part, nonempty, digits, places, same | same⟩ := numeral
  · have read := unsigned_of_parts negative nonempty digits (by simp) (rfl : fraction [] = _)
    rw [List.append_nil, ← same] at read
    exact ⟨_, read⟩
  · rw [same]
    exact ⟨_, unsigned_of_parts negative nonempty digits (by simp) (fraction_of_places places)⟩

theorem sign_of_digit {c : Char} (digit : c.isDigit = true) (rest : Text) :
    sign (c :: rest) = (false, c :: rest) := by
  unfold sign
  split
  · next same =>
    obtain ⟨rfl, _⟩ := List.cons.inj same
    cases digit
  · next same =>
    obtain ⟨rfl, _⟩ := List.cons.inj same
    cases digit
  · rfl

theorem read_of_isNumeral {t : Text} (numeral : IsNumeral t) :
    ∃ value, read? t = some value := by
  obtain ⟨n, read⟩ := unsigned_of_isNumeral false numeral
  have unsigned : sign t = (false, t) := by
    obtain ⟨whole, part, nonempty, digits, _, same⟩ := numeral
    obtain ⟨c, more, rfl⟩ := List.exists_cons_of_ne_nil nonempty
    have digit := digits c (by simp)
    rcases same with rfl | rfl
    · exact sign_of_digit digit more
    · exact sign_of_digit digit (more ++ '.' :: part)
  exact ⟨n.value, by simp [read?, unsigned, read]⟩

end LineCalc.Decimal
