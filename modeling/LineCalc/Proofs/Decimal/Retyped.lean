import LineCalc.Proofs.Decimal.Display
import LineCalc.Proofs.Decimal.Limits
import LineCalc.Proofs.Decimal.Numeral
import LineCalc.Proofs.Machine.TreeValue
import LineCalc.Proofs.Token.Tokenization

/-!
Typing a shown value back. Plain digits are read as the value nearest to what they denote. This
one lies no further from them than the value they were made from, so it has the same digits.
-/
namespace LineCalc.Decimal

open Binary

variable {mantissa n : Nat} {exponent : Int} {r : Ratio}

section Reading

theorem isNumeral_pointText {whole part : Text} (nonempty : whole ≠ [])
    (digits : ∀ c ∈ whole, c.isDigit = true) (places : ∀ c ∈ part, c.isDigit = true) :
    IsNumeral (whole ++ pointText part) := by
  refine ⟨whole, part, nonempty, digits, places, ?_⟩
  cases part with
  | nil => exact Or.inl (List.append_nil whole)
  | cons c rest => exact Or.inr rfl

theorem unsigned_pointText {whole part : Text} (nonempty : whole ≠ [])
    (digits : ∀ c ∈ whole, c.isDigit = true) (places : ∀ c ∈ part, c.isDigit = true) :
    unsigned? false (whole ++ pointText part) =
      some ⟨false, ofDigits (whole ++ part), -part.length⟩ := by
  cases part with
  | nil => exact unsigned_of_parts false nonempty digits (by simp [pointText]) rfl
  | cons c rest =>
    exact unsigned_of_parts false nonempty digits (by simp [pointText]) (fraction_of_places places)

theorem read_of_digit {t : Text} {value : Numeral} (unsigned : unsigned? false t = some value)
    (head : ∃ c rest, t = c :: rest ∧ c.isDigit = true) : read? t = some value.value := by
  obtain ⟨c, rest, rfl, digit⟩ := head
  simp [read?, sign_of_digit digit rest, unsigned]

theorem read_pointed (positive : 0 < n) (small : n < 10 ^ 100) :
    IsNumeral (pointed n) ∧ ∃ r : Ratio, 0 < r.num ∧ 0 < r.den ∧
      r.value = n / 10 ^ places ∧ read? (pointed n) = some (nearest false r) := by
  obtain ⟨part, digits, short, _, same, value⟩ := pointed_eq n
  have whole : ∀ c ∈ Text.ofNat (n / 10 ^ places), c.isDigit = true := isDigit_ofNat
  have unsigned := unsigned_pointText (ofNat_ne_nil (n / 10 ^ places)) whole digits
  have numeral := isNumeral_pointText (ofNat_ne_nil (n / 10 ^ places)) whole digits
  rw [← same] at unsigned numeral
  refine ⟨numeral, ?_⟩
  have read := read_of_digit unsigned (pointed_head n)
  generalize ofDigits (Text.ofNat (n / 10 ^ places) ++ part) = written at *
  have some : 0 < written := Nat.pos_of_mul_pos_right (value.symm ▸ positive)
  have fits : digitCount written ≤ 100 := by
    refine (Nat.length_toDigits_le_iff (by decide) (by decide)).mpr (lt_of_le_of_lt ?_ small)
    rw [← value]
    exact Nat.le_mul_of_pos_right written (by positivity)
  rw [value_of_limits some.ne' (by simp only [exponentLimit, places] at *; omega)
    (by simp only [exponentLimit]; omega)] at read
  refine ⟨_, ?_, Ratio.scale_den_pos (by decide : 0 < 1) (by decide) _, ?_, read⟩
  · exact Nat.mul_pos some (by simp only [Nat.pow_eq]; positivity)
  · rw [Ratio.value_scale _ (by decide), zpow_neg, zpow_natCast, ← div_eq_mul_inv,
      ← value_of_trimmed short value]
    simp [Ratio.value]

end Reading

section Rounding

theorem whole_or_small (mantissa : Nat) (exponent : Int) (fits : mantissa < 2 * fractionSize) :
    (∃ k : Nat, magnitude mantissa exponent = k) ∨
      magnitude mantissa exponent < fractionSize := by
  rcases Int.lt_or_le exponent 0 with fraction | whole
  · right
    have small : (mantissa : ℚ) < 2 * fractionSize := by exact_mod_cast fits
    have power : (2 : ℚ) ^ exponent ≤ 1 / 2 := by
      calc (2 : ℚ) ^ exponent ≤ 2 ^ (-1 : Int) := zpow_le_zpow_right₀ (by norm_num) (by omega)
        _ = 1 / 2 := by norm_num
    calc magnitude mantissa exponent ≤ mantissa * (1 / 2) :=
          mul_le_mul_of_nonneg_left power (by positivity)
      _ < fractionSize := by linarith
  · left
    obtain ⟨k, same⟩ := magnitude_on_grid mantissa whole
    exact ⟨k, by rw [same]; simp⟩

theorem rounded_of_nearer {x y : ℚ} (rounded : Rounded (x * 10 ^ places) n)
    (nearer : |n / 10 ^ places - y| ≤ |n / 10 ^ places - x|) : Rounded (y * 10 ^ places) n := by
  have unit : (0 : ℚ) < 10 ^ places := by positivity
  have closer : |y * 10 ^ places - n| ≤ |x * 10 ^ places - n| := by
    rw [abs_sub_comm, distance_scaled _ _ unit, abs_sub_comm (x * _), distance_scaled _ _ unit]
    exact mul_le_mul_of_nonneg_right nearer unit.le
  refine ⟨le_trans closer rounded.1, fun half => rounded.2 ?_⟩
  exact le_antisymm rounded.1 (half ▸ closer)

theorem digits_lt (high : magnitude mantissa exponent < 10 ^ 21)
    (rounded : Rounded (magnitude mantissa exponent * 10 ^ places) n) : n < 10 ^ 100 := by
  have near := abs_le.mp rounded.1
  rw [places] at near
  have large : (n : ℚ) < 10 ^ 32 := by linarith
  calc n < 10 ^ 32 := by exact_mod_cast large
    _ < 10 ^ 100 := by norm_num

theorem nearest_least (num : 0 < r.num) (den : 0 < r.den) (least : r.value = 1 / 10 ^ 10)
    (canonical : Canonical mantissa exponent)
    (bits : nearestBits r = magnitudeBits mantissa exponent) :
    1 / 10 ^ 10 ≤ magnitude mantissa exponent := by
  have other : Canonical 7737125245533627 (-86) :=
    ⟨by decide, by decide, by decide, Or.inl (by decide)⟩
  have within : Within 7737125245533627 (-86) r.value := by
    have reaches : reach 7737125245533627 (-86) = 1 / 2 := if_neg (by decide)
    rw [least]
    refine ⟨?_, ?_, fun _ => ⟨?_, ?_⟩⟩ <;> norm_num [reaches]
  obtain ⟨rfl, rfl⟩ := magnitudeBits_inj canonical other
    (bits.symm.trans (nearestBits_of_within other num den within))
  norm_num [magnitude]

section Digits

variable (num : 0 < r.num) (den : 0 < r.den) (value : r.value = n / 10 ^ places)
include num den value

theorem nearest_whole (canonical : Canonical mantissa exponent)
    (rounded : Rounded (magnitude mantissa exponent * 10 ^ places) n)
    (whole : ∃ k : Nat, magnitude mantissa exponent = k) :
    nearestBits r = magnitudeBits mantissa exponent := by
  obtain ⟨k, whole⟩ := whole
  have same : r.value = magnitude mantissa exponent := by
    rw [whole] at rounded ⊢
    rw [value, exact_of_rounded rounded]
  exact nearestBits_of_within canonical num den (same ▸ within_self mantissa exponent)

theorem nearest_rounded (canonical : Canonical mantissa exponent)
    (small : magnitude mantissa exponent < fractionSize)
    (rounded : Rounded (magnitude mantissa exponent * 10 ^ places) n) :
    ∃ m e, Canonical m e ∧ nearestBits r = magnitudeBits m e ∧
      Rounded (magnitude m e * 10 ^ places) n := by
  have close := abs_le.mp (close_of_rounded rounded)
  have finite : nearestBits r < infinityBits := by
    refine nearestBits_lt num den ?_
    calc r.value ≤ fractionSize + 1 := by rw [value]; linarith
      _ ≤ 2 ^ (53 : Int) := by rw [fractionSize_eq]; norm_num
      _ < 2 ^ (1023 : Int) := zpow_lt_zpow_right₀ (by norm_num) (by norm_num)
  obtain ⟨m, e, other, bits, nearest⟩ := nearestBits_nearest num den finite
  have nearer := (nearest mantissa exponent canonical).1
  rw [value] at nearer
  exact ⟨m, e, other, bits, rounded_of_nearer rounded nearer⟩

theorem low_of_rounded (positive : 0 < n) (canonical : Canonical mantissa exponent)
    (bits : nearestBits r = magnitudeBits mantissa exponent)
    (rounded : Rounded (magnitude mantissa exponent * 10 ^ places) n) :
    1 / 10 ^ 10 ≤ magnitude mantissa exponent := by
  rcases Nat.lt_or_eq_of_le positive with more | one
  · have close := abs_le.mp (close_of_rounded rounded)
    have large : (2 : ℚ) ≤ n := by exact_mod_cast more
    have above : (2 : ℚ) / 10 ^ places ≤ n / 10 ^ places :=
      div_le_div_of_nonneg_right large (by positivity)
    norm_num [places] at above close ⊢
    linarith
  · exact nearest_least num den (by rw [value, ← one]; norm_num [places]) canonical bits

/-- The rounded digits of a value are read as a value with the same text, and digits that are
    those of a whole number as this number. -/
theorem nearest_same_text (canonical : Canonical mantissa exponent)
    (low : 1 / 10 ^ 10 ≤ magnitude mantissa exponent)
    (high : magnitude mantissa exponent < 10 ^ 21)
    (rounded : Rounded (magnitude mantissa exponent * 10 ^ places) n) :
    ∃ m e, Canonical m e ∧ nearestBits r = magnitudeBits m e ∧
      magnitudeText m e = magnitudeText mantissa exponent ∧
      ((∃ k : Nat, magnitude mantissa exponent = k) → m = mantissa ∧ e = exponent) := by
  by_cases whole : ∃ k : Nat, magnitude mantissa exponent = k
  · have bits := nearest_whole num den value canonical rounded whole
    exact ⟨mantissa, exponent, canonical, bits, rfl, fun _ => ⟨rfl, rfl⟩⟩
  · -- The value that is read may be another one, but it has the same digits.
    have small := (whole_or_small mantissa exponent canonical.fits).resolve_left whole
    obtain ⟨m, e, other, bits, rounded'⟩ := nearest_rounded num den value canonical small rounded
    obtain ⟨k, rounds, positive, text⟩ := magnitudeText_plain low high
    obtain rfl := rounded_unique rounded rounds
    have low' := low_of_rounded num den value positive other bits rounded'
    have high' : magnitude m e < 10 ^ 21 := by
      have close := abs_le.mp (close_of_rounded rounded)
      have close' := abs_le.mp (close_of_rounded rounded')
      rw [fractionSize_eq] at small
      norm_num at small ⊢
      linarith
    obtain ⟨k, rounds', _, text'⟩ := magnitudeText_plain low' high'
    obtain rfl := rounded_unique rounded' rounds'
    exact ⟨m, e, other, bits, text'.trans text.symm, fun integral => absurd integral whole⟩

end Digits

end Rounding

section Evaluating

variable {t : Text} {value : Float}

theorem tokenization_numeral (start : Nat) (numeral : IsNumeral t) :
    Tokenization start t [⟨t, .number, start⟩] := by
  rw [tokenization_cons]
  refine ⟨rfl, numeral, [], (List.append_nil t).symm, by simp [StopsBefore], ?_⟩
  exact (tokenization_nil _ _).mpr rfl

theorem evaluate_numeral (rules : Rules) (numeral : IsNumeral t) (read : read? t = some value) :
    rules.evaluate t = .ok value := by
  have tokens : tokenize t = [⟨t, .number, 0⟩] :=
    tokens_of_tokenization (s := Scan.ofText t) (tokenization_numeral 0 numeral)
  have derives : Derives .sum (.number value) (Token.solid [⟨t, .number, 0⟩]) :=
    .sum (.term (.number rfl read))
  rw [Rules.evaluate, tokens, Rules.evaluateTokens_derives rules derives, Formula.value]

theorem evaluate_negated (rules : Rules) (numeral : IsNumeral t) (read : read? t = some value) :
    rules.evaluate ('-' :: t) = .ok (-value) := by
  have cut : Tokenization 0 ('-' :: t) [⟨['-'], .operator, 0⟩, ⟨t, .number, 1⟩] := by
    rw [tokenization_cons]
    refine ⟨rfl, ⟨'-', by simp, rfl⟩, t, rfl, by simp [StopsBefore, StopsAt], ?_⟩
    exact tokenization_numeral 1 numeral
  have tokens : tokenize ('-' :: t) = [⟨['-'], .operator, 0⟩, ⟨t, .number, 1⟩] :=
    tokens_of_tokenization (s := Scan.ofText ('-' :: t)) cut
  have derives : Derives .sum (.negation (.number value))
      (Token.solid [⟨['-'], .operator, 0⟩, ⟨t, .number, 1⟩]) :=
    .sum (.term (.negation rfl (.number rfl read)))
  rw [Rules.evaluate, tokens, Rules.evaluateTokens_derives rules derives]
  rfl

theorem evaluate_signed (numeral : IsNumeral t) (read : read? t = some (nearest false r))
    (canonical : Canonical mantissa exponent)
    (bits : nearestBits r = magnitudeBits mantissa exponent) (negative : Bool) :
    ∃ w, ofFloat w = .finite negative mantissa exponent ∧
      ∀ rules : Rules, rules.evaluate (signText negative ++ t) = .ok w := by
  have finite := ofFloat_nearest canonical bits false
  cases negative
  · exact ⟨_, finite, fun rules => evaluate_numeral rules numeral read⟩
  · refine ⟨_, ?_, fun rules => evaluate_negated rules numeral read⟩
    rw [ofFloat_neg, finite]
    rfl

theorem evaluate_zero :
    ∃ w, rational? w = some 0 ∧ ∀ rules : Rules, rules.evaluate ['0'] = .ok w := by
  have numeral : IsNumeral (['0'] ++ pointText []) :=
    isNumeral_pointText (by simp) (by simp) (by simp)
  have read : read? ['0'] = some (nearest false ⟨0, 1⟩) := rfl
  have number := rational_nearest canonical_zero (rfl : nearestBits ⟨0, 1⟩ = 0) false
  rw [magnitude_zero] at number
  exact ⟨_, number, fun rules => evaluate_numeral rules numeral read⟩

end Evaluating

/-- A shown value that has no exponent can be typed back: it is evaluated to a value with the same
    text, and a whole number other than zero to the very same value. -/
theorem display_evaluates (x : Float) (v : ℚ) (number : rational? x = some v)
    (shown : v = 0 ∨ 1 / 10 ^ 10 ≤ |v| ∧ |v| < 10 ^ 21) :
    ∃ w, (∀ rules : Rules, rules.evaluate (display x) = .ok w) ∧ display w = display x ∧
      (v ≠ 0 → (∃ n : Int, v = n) → w.toBits = x.toBits) := by
  rcases shown with zero | ⟨low, high⟩
  · have text := (display_zero_iff number).mpr zero
    obtain ⟨w, number', evaluates⟩ := evaluate_zero
    rw [text]
    exact ⟨w, evaluates, (display_zero_iff number').mpr rfl, fun other => absurd zero other⟩
  · obtain ⟨negative, mantissa, exponent, read, rfl⟩ := rational_iff.mp number
    rw [abs_signed, abs_of_nonneg (magnitude_nonneg _ _)] at low high
    have canonical := canonical_of_ofFloat read
    have positive := mantissa_pos_of_low low
    obtain ⟨n, rounded, some, text⟩ := magnitudeText_plain low high
    obtain ⟨numeral, r, num, den, value, reads⟩ := read_pointed some (digits_lt high rounded)
    obtain ⟨m, e, other, bits, same, whole⟩ :=
      nearest_same_text num den value canonical low high rounded
    obtain ⟨w, read', evaluates⟩ := evaluate_signed numeral reads other bits negative
    have positive' : 0 < m := by
      have zero := magnitudeText_zero_iff m e
      rw [same, magnitudeText_zero_iff] at zero
      omega
    rw [display_of_ne_zero positive read]
    refine ⟨w, text ▸ evaluates, ?_, fun _ integral => ?_⟩
    · rw [display_of_ne_zero positive' read', same]
    · obtain ⟨rfl, rfl⟩ := whole (whole_magnitude negative integral)
      rw [eq_of_ofFloat read' read]

theorem display_evaluates_negative :
    rational? (nearest true ⟨3, 1⟩) = some (-3) ∧
      ∃ w, ({} : Rules).evaluate (display (nearest true ⟨3, 1⟩)) = .ok w ∧
        display w = display (nearest true ⟨3, 1⟩) ∧ w.toBits = (nearest true ⟨3, 1⟩).toBits := by
  have canonical : Canonical 6755399441055744 (-51) :=
    ⟨by decide, by decide, by decide, Or.inl (by decide)⟩
  have number := rational_nearest canonical (by decide : nearestBits ⟨3, 1⟩ = _) true
  have value : signed true (magnitude 6755399441055744 (-51)) = -3 := by
    norm_num [signed, magnitude]
  rw [value] at number
  obtain ⟨w, evaluates, same, bits⟩ := display_evaluates _ _ number (Or.inr (by norm_num))
  exact ⟨number, w, evaluates {}, same, bits (by norm_num) ⟨-3, by norm_num⟩⟩

end LineCalc.Decimal
