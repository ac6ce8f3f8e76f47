import LineCalc.Proofs.Decimal.Digits
import LineCalc.Proofs.Decimal.Exact
import LineCalc.Proofs.Decimal.Shortest

/-!
What the text of a finite value denotes. In the middle of the range it is the value rounded to ten
places; elsewhere it has an exponent and is read as the value.
-/
namespace LineCalc.Decimal

open Binary

variable {mantissa : Nat} {exponent : Int} {r : Ratio}

def signText (negative : Bool) : Text := if negative then ['-'] else []

/-- Plain notation and the number that it denotes: a sign, digits, and after a point at most ten
    more digits, of which the last is no zero. -/
inductive Plain : Text → ℚ → Prop
  | written (negative : Bool) {whole part : Text} (nonempty : whole ≠ [])
      (digits : ∀ c ∈ whole ++ part, c.isDigit = true)
      (front : whole.head? = some '0' → whole = ['0']) (short : part.length ≤ 10)
      (last : part.getLast? ≠ some '0') :
      Plain (signText negative ++ (whole ++ pointText part))
        (signed negative (ofDigits (whole ++ part) / 10 ^ part.length))

/-- Notation with an exponent and the number that it denotes: a sign, a digit that is no zero, more
    digits after a point, and the power of ten of the first digit. -/
inductive Exponential : Text → ℚ → Prop
  | written (negative : Bool) {first : Char} {others : Text}
      (digits : ∀ c ∈ first :: others, c.isDigit = true) (front : first ≠ '0') (lead : Int) :
      Exponential (signText negative ++ (first :: pointText others ++ 'e' :: ofInt lead))
        (signed negative (ofDigits (first :: others) * 10 ^ (lead - others.length)))

theorem isPlain_iff (den : 0 < r.den) :
    isPlain r = true ↔ 1 / 10 ^ 10 ≤ r.value ∧ r.value < 10 ^ 21 := by
  have low : (Ratio.mk 1 (Nat.pow 10 10)).value = 1 / 10 ^ 10 := by norm_num [Ratio.value]
  have high : (Ratio.mk (Nat.pow 10 21) 1).value = 10 ^ 21 := by norm_num [Ratio.value]
  rw [isPlain, Bool.and_eq_true, Ratio.le_iff_value (by decide) den,
    Ratio.lt_iff_value den (by decide), low, high]

theorem mantissa_pos_of_low (low : 1 / 10 ^ 10 ≤ magnitude mantissa exponent) : 0 < mantissa := by
  rw [Nat.pos_iff_ne_zero]
  rintro rfl
  norm_num [magnitude] at low

theorem magnitudeText_plain (low : 1 / 10 ^ 10 ≤ magnitude mantissa exponent)
    (high : magnitude mantissa exponent < 10 ^ 21) :
    ∃ n, Rounded (magnitude mantissa exponent * 10 ^ places) n ∧ 0 < n ∧
      magnitudeText mantissa exponent = pointed n := by
  have den := ratio_den_pos mantissa exponent
  have some := (mantissa_pos_of_low low).ne'
  have shown : isPlain (ratio mantissa exponent) = true := by
    rw [isPlain_iff den, Binary.ratio_value]
    exact ⟨low, high⟩
  have rounded := Ratio.rounded_scale (ratio mantissa exponent) den (by decide : 0 < 10) places
  rw [Binary.ratio_value, zpow_natCast, Nat.cast_ofNat] at rounded
  refine ⟨_, rounded, ?_, ?_⟩
  · have near := abs_le.mp rounded.1
    have large : (1 : ℚ) ≤ magnitude mantissa exponent * 10 ^ places := by
      rw [div_le_iff₀ (by norm_num)] at low
      exact low
    rw [Nat.pos_iff_ne_zero]
    intro zero
    rw [zero] at near
    norm_num at near
    linarith
  · rw [magnitudeText, if_neg some, if_pos shown]
    rfl

theorem magnitudeText_scientific (positive : 0 < mantissa)
    (outside : magnitude mantissa exponent < 1 / 10 ^ 10 ∨ 10 ^ 21 ≤ magnitude mantissa exponent) :
    magnitudeText mantissa exponent = scientific (shortest mantissa exponent) := by
  have hidden : ¬ isPlain (ratio mantissa exponent) = true := by
    rw [isPlain_iff (ratio_den_pos _ _), Binary.ratio_value]
    rintro ⟨low, high⟩
    rcases outside with less | more
    · linarith
    · linarith
  rw [magnitudeText, if_neg positive.ne', if_neg hidden]

theorem head_or_single (n : Nat) : (Text.ofNat n).head? = some '0' → Text.ofNat n = ['0'] := by
  intro zero
  rcases Nat.eq_zero_or_pos n with rfl | positive
  · rfl
  · exact absurd zero (head_ofNat positive)

theorem plain_pointed (negative : Bool) (n : Nat) :
    Plain (signText negative ++ pointed n) (signed negative (n / 10 ^ places)) := by
  obtain ⟨part, digits, short, last, same, value⟩ := pointed_eq n
  have all : ∀ c ∈ Text.ofNat (n / 10 ^ places) ++ part, c.isDigit = true := by
    intro c member
    rcases List.mem_append.mp member with whole | behind
    · exact isDigit_ofNat c whole
    · exact digits c behind
  rw [same, ← value_of_trimmed short value]
  exact .written negative (ofNat_ne_nil _) all (head_or_single _) short last

theorem scientific_eq (s : Scientific) :
    ∃ first others, Text.ofNat s.digits = first :: others ∧
      (∀ c ∈ first :: others, c.isDigit = true) ∧
      scientific s = first :: pointText others ++ 'e' :: ofInt s.lead := by
  obtain ⟨first, others, split, digits⟩ := ofNat_cons s.digits
  refine ⟨first, others, split, digits, ?_⟩
  rw [scientific, split]
  rfl

theorem exponential_scientific (negative : Bool) {s : Scientific} (positive : 0 < s.digits) :
    Exponential (signText negative ++ scientific s) (signed negative s.ratio.value) := by
  obtain ⟨first, others, split, digits, text⟩ := scientific_eq s
  have front : first ≠ '0' := by
    rintro rfl
    exact head_ofNat positive (by rw [split, List.head?_cons])
  have count : digitCount s.digits = others.length + 1 := congrArg List.length split
  have lead : s.exponent = s.lead - others.length := by
    rw [Scientific.lead, count]
    push_cast
    ring
  have value : s.ratio.value = ofDigits (first :: others) * 10 ^ (s.lead - others.length) := by
    rw [Scientific.ratio_value, ← split, ofDigits_ofNat, ← lead]
  rw [text, value]
  exact .written negative digits front s.lead

theorem close_of_rounded {x : ℚ} {n : Nat} (rounded : Rounded (x * 10 ^ places) n) :
    |n / 10 ^ places - x| ≤ 5 / 10 ^ 11 := by
  have unit : (0 : ℚ) < 10 ^ places := by positivity
  have near := rounded.1
  rw [abs_sub_comm, distance_scaled _ _ unit, ← le_div_iff₀ unit] at near
  refine le_trans near ?_
  norm_num [places]

theorem whole_magnitude (negative : Bool)
    (whole : ∃ n : Int, signed negative (magnitude mantissa exponent) = n) :
    ∃ k : Nat, magnitude mantissa exponent = k := by
  obtain ⟨n, same⟩ := whole
  refine ⟨n.natAbs, ?_⟩
  rw [← abs_of_nonneg (magnitude_nonneg mantissa exponent), ← abs_signed negative, same,
    Nat.cast_natAbs, Int.cast_abs]

theorem exact_of_rounded {k n : Nat} (rounded : Rounded (k * 10 ^ places) n) :
    (n : ℚ) / 10 ^ places = k := by
  have self := rounded_self (k * 10 ^ places)
  push_cast at self
  rw [rounded_unique rounded self]
  push_cast
  field_simp

theorem magnitudeText_head (mantissa : Nat) (exponent : Int) :
    ∃ c rest, magnitudeText mantissa exponent = c :: rest ∧ c.isDigit = true := by
  unfold magnitudeText plain
  split_ifs
  · exact ⟨'0', [], rfl, rfl⟩
  · exact pointed_head _
  · obtain ⟨first, others, _, digits, text⟩ := scientific_eq (shortest mantissa exponent)
    exact ⟨first, _, text, digits first (by simp)⟩

theorem magnitudeText_zero_iff (mantissa : Nat) (exponent : Int) :
    magnitudeText mantissa exponent = ['0'] ↔ mantissa = 0 := by
  refine ⟨fun text => ?_, fun zero => by rw [magnitudeText, if_pos zero]⟩
  by_contra some
  have positive := Nat.pos_of_ne_zero some
  by_cases inside : 1 / 10 ^ 10 ≤ magnitude mantissa exponent ∧
      magnitude mantissa exponent < 10 ^ 21
  · obtain ⟨n, _, positive, same⟩ := magnitudeText_plain inside.1 inside.2
    have none := pointed_zero (same.symm.trans text)
    omega
  · rw [not_and_or, not_le, not_lt] at inside
    obtain ⟨first, others, _, _, same⟩ := scientific_eq (shortest mantissa exponent)
    rw [magnitudeText_scientific positive inside, same] at text
    have more := congrArg List.length text
    simp at more

theorem display_finite {x : Float} {negative : Bool}
    (read : ofFloat x = .finite negative mantissa exponent) :
    display x =
      signText (negative && decide (mantissa ≠ 0)) ++ magnitudeText mantissa exponent := by
  rw [display, read, signText]
  simp

theorem signed_neg_iff {negative : Bool} :
    signed negative (magnitude mantissa exponent) < 0 ↔ negative = true ∧ mantissa ≠ 0 := by
  have unit := two_zpow_pos exponent
  cases negative
  · simp [signed, magnitude_nonneg]
  · simp [signed, magnitude, unit, Nat.pos_iff_ne_zero]

theorem signed_eq_zero_iff {negative : Bool} :
    signed negative (magnitude mantissa exponent) = 0 ↔ mantissa = 0 := by
  have unit := two_zpow_pos exponent
  cases negative <;> simp [signed, magnitude, unit.ne']

theorem head_display {x : Float} {v : ℚ} (number : rational? x = some v) :
    (display x).head? = some '-' ↔ v < 0 := by
  obtain ⟨negative, mantissa, exponent, read, rfl⟩ := rational_iff.mp number
  obtain ⟨c, rest, text, digit⟩ := magnitudeText_head mantissa exponent
  have other : c ≠ '-' := by
    rintro rfl
    cases digit
  rw [display_finite read, signed_neg_iff, text, signText]
  split_ifs with minus
  · simpa using minus
  · simpa [other] using minus

theorem display_zero_iff {x : Float} {v : ℚ} (number : rational? x = some v) :
    display x = ['0'] ↔ v = 0 := by
  obtain ⟨negative, mantissa, exponent, read, rfl⟩ := rational_iff.mp number
  rw [display_finite read, signed_eq_zero_iff, signText]
  split_ifs with minus
  · have some : mantissa ≠ 0 := by simpa using (Bool.and_eq_true_iff.mp minus).2
    simp [some]
  · exact magnitudeText_zero_iff mantissa exponent

theorem display_of_ne_zero {x : Float} {negative : Bool} (positive : 0 < mantissa)
    (read : ofFloat x = .finite negative mantissa exponent) :
    display x = signText negative ++ magnitudeText mantissa exponent := by
  rw [display_finite read, decide_eq_true positive.ne', Bool.and_true]

theorem signed_pointed_ne {n : Nat} (positive : 0 < n) (negative : Bool) :
    signText negative ++ pointed n ≠ ['-', '0'] := by
  intro zero
  cases negative
  · obtain ⟨c, rest, text, digit⟩ := pointed_head n
    obtain rfl : c = '-' := (List.cons.inj (text.symm.trans zero)).1
    cases digit
  · have none := pointed_zero (List.cons.inj zero).2
    omega

theorem display_in_range {x : Float} {v : ℚ} (number : rational? x = some v)
    (low : 1 / 10 ^ 10 ≤ |v|) (high : |v| < 10 ^ 21) :
    display x ≠ ['-', '0'] ∧ ∃ d, Plain (display x) d ∧ |d - v| ≤ 5 / 10 ^ 11 ∧
      ((∃ n : Int, v = n) → d = v) := by
  obtain ⟨negative, mantissa, exponent, read, rfl⟩ := rational_iff.mp number
  rw [abs_signed, abs_of_nonneg (magnitude_nonneg _ _)] at low high
  have positive := mantissa_pos_of_low low
  obtain ⟨n, rounded, some, text⟩ := magnitudeText_plain low high
  rw [display_of_ne_zero positive read, text]
  refine ⟨signed_pointed_ne some negative, _, plain_pointed negative n, ?_, fun integral => ?_⟩
  · rw [signed_distance]
    exact close_of_rounded rounded
  · obtain ⟨k, whole⟩ := whole_magnitude negative integral
    rw [whole] at rounded ⊢
    rw [exact_of_rounded rounded]

theorem display_out_of_range {x : Float} {v : ℚ} (number : rational? x = some v) (some : v ≠ 0)
    (outside : |v| < 1 / 10 ^ 10 ∨ 10 ^ 21 ≤ |v|) :
    ∃ d, Exponential (display x) d ∧ Nearest d x := by
  obtain ⟨negative, mantissa, exponent, read, rfl⟩ := rational_iff.mp number
  rw [abs_signed, abs_of_nonneg (magnitude_nonneg _ _)] at outside
  have positive := Nat.pos_of_ne_zero (mt signed_eq_zero_iff.mpr some)
  have canonical := canonical_of_ofFloat read
  have within := within_shortest canonical positive
  have num := num_pos_of_within positive within
  have digits : 0 < (shortest mantissa exponent).digits := Nat.pos_of_mul_pos_right num
  rw [display_of_ne_zero positive read, magnitudeText_scientific positive outside]
  exact ⟨_, exponential_scientific negative digits,
    nearest_of_within read positive (Scientific.ratio_den_pos _) within⟩

/-- What a finite value is shown as. The sign and the zero are those of the value. In the middle
    of the range the text is plain, and its number lies within half a unit of the tenth place, on
    the value if this is whole. Elsewhere the text has an exponent and is read as the value. -/
theorem display_denotes (x : Float) (v : ℚ) (number : rational? x = some v) :
    ((display x).head? = some '-' ↔ v < 0) ∧ (display x = ['0'] ↔ v = 0) ∧
      (1 / 10 ^ 10 ≤ |v| → |v| < 10 ^ 21 → display x ≠ ['-', '0'] ∧
        ∃ d, Plain (display x) d ∧ |d - v| ≤ 5 / 10 ^ 11 ∧ ((∃ n : Int, v = n) → d = v)) ∧
      (v ≠ 0 → |v| < 1 / 10 ^ 10 ∨ 10 ^ 21 ≤ |v| →
        ∃ d, Exponential (display x) d ∧ Nearest d x) :=
  ⟨head_display number, display_zero_iff number, display_in_range number,
    display_out_of_range number⟩

theorem display_denotes_negative :
    rational? (nearest true ⟨3, 2⟩) = some (-3 / 2) ∧
      (display (nearest true ⟨3, 2⟩)).head? = some '-' ∧
      ∃ d, Plain (display (nearest true ⟨3, 2⟩)) d ∧ |d - -3 / 2| ≤ 5 / 10 ^ 11 := by
  have canonical : Canonical 6755399441055744 (-52) :=
    ⟨by decide, by decide, by decide, Or.inl (by decide)⟩
  have number := rational_nearest canonical (by decide : nearestBits ⟨3, 2⟩ = _) true
  have value : signed true (magnitude 6755399441055744 (-52)) = -3 / 2 := by
    norm_num [signed, magnitude]
  rw [value] at number
  obtain ⟨minus, _, shown, _⟩ := display_denotes _ _ number
  obtain ⟨_, d, plain, close, _⟩ := shown (by norm_num [abs_div]) (by norm_num [abs_div])
  exact ⟨number, minus.mpr (by norm_num), d, plain, close⟩

/-- A fraction may round up to a whole number, which has no point. -/
example : display (nearest false ⟨99999999999, 10 ^ 11⟩) = ['1'] := by decide +kernel

example : display (nearest true ⟨15, 10 ^ 12⟩) = "-1.5e-11".toList := by decide +kernel

end LineCalc.Decimal
