import LineCalc.Decimal.Display
import LineCalc.Proofs.Decimal.Ratio
import Mathlib.Data.List.DropRight

/-!
The digits of a number. Written digits read back as their number, zeros at the end of a decimal
part do not count, and only zero is written with a zero in front.
-/
namespace LineCalc.Decimal

variable {t : Text}

theorem ofDigits_eq (t : Text) : ofDigits t = Nat.ofDigitChars 10 t 0 := rfl

theorem ofDigits_ofNat (n : Nat) : ofDigits (Text.ofNat n) = n := Nat.ofDigitChars_ten_toDigits

theorem ofDigits_append (l r : Text) :
    ofDigits (l ++ r) = ofDigits l * 10 ^ r.length + ofDigits r := by
  rw [ofDigits_eq, Nat.ofDigitChars_append, Nat.ofDigitChars_eq_ofDigitChars_zero, Nat.mul_comm]
  rfl

theorem ofDigits_zeros (n : Nat) : ofDigits (List.replicate n '0') = 0 := by
  rw [ofDigits_eq, Nat.ofDigitChars_replicate_zero, Nat.mul_zero]

theorem digitValue_lt {c : Char} (digit : c.isDigit = true) : digitValue c < 10 := by
  simp only [Char.isDigit, Bool.and_eq_true, decide_eq_true_eq, UInt32.le_iff_toNat_le] at digit
  have high : c.toNat ≤ 57 := digit.2
  have zero : '0'.toNat = 48 := rfl
  rw [digitValue, zero]
  omega

theorem ofDigits_lt (digits : ∀ c ∈ t, c.isDigit = true) : ofDigits t < 10 ^ t.length := by
  induction t with
  | nil => decide
  | cons c rest ih =>
    have front := digitValue_lt (digits c (by simp))
    have behind := ih fun d member => digits d (List.mem_cons_of_mem c member)
    have whole : ofDigits (c :: rest) = digitValue c * 10 ^ rest.length + ofDigits rest := by
      have single : ofDigits [c] = digitValue c := by simp [ofDigits]
      rw [← single]
      exact ofDigits_append [c] rest
    rw [whole, List.length_cons, Nat.pow_succ]
    nlinarith

theorem isDigit_ofNat {n : Nat} : ∀ c ∈ Text.ofNat n, c.isDigit = true :=
  fun _ member => Nat.isDigit_of_mem_toDigits (by decide) (by decide) member

theorem ofNat_ne_nil (n : Nat) : Text.ofNat n ≠ [] := Nat.toDigits_ne_nil

theorem ofNat_cons (n : Nat) : ∃ first others, Text.ofNat n = first :: others ∧
    ∀ c ∈ first :: others, c.isDigit = true := by
  obtain ⟨first, others, split⟩ := List.exists_cons_of_ne_nil (ofNat_ne_nil n)
  exact ⟨first, others, split, split ▸ isDigit_ofNat⟩

theorem head_single {n : Nat} (small : n < 10) :
    Text.ofNat n = [Nat.digitChar n] ∧ (Nat.digitChar n = '0' → n = 0) := by
  refine ⟨Nat.toDigits_of_lt_base small, ?_⟩
  revert small
  revert n
  decide

theorem head_ofNat {n : Nat} (positive : 0 < n) : (Text.ofNat n).head? ≠ some '0' := by
  induction n using Nat.strongRecOn with
  | ind n ih =>
    by_cases single : n < 10
    · obtain ⟨digit, zero⟩ := head_single single
      rw [digit, List.head?_cons]
      intro same
      have none := zero (Option.some.inj same)
      omega
    · rw [Text.ofNat, Nat.toDigits_of_base_le (by decide) (by omega),
        List.head?_append_of_ne_nil _ Nat.toDigits_ne_nil]
      exact ih (n / 10) (by omega) (by omega)

theorem ofDigits_padded {n k : Nat} (small : n < 10 ^ k) :
    ofDigits ((Text.ofNat (10 ^ k + n)).drop 1) = n ∧
      ((Text.ofNat (10 ^ k + n)).drop 1).length = k := by
  obtain ⟨c, rest, split, digits⟩ := ofNat_cons (10 ^ k + n)
  have front : ofDigits [c] * 10 ^ rest.length + ofDigits rest = 10 ^ k + n := by
    rw [← ofDigits_append [c] rest, List.singleton_append, ← split, ofDigits_ofNat]
  have behind : ofDigits rest < 10 ^ rest.length :=
    ofDigits_lt fun d member => digits d (List.mem_cons_of_mem c member)
  have length : rest.length = k := by
    have count : digitCount (10 ^ k + n) = rest.length + 1 := congrArg List.length split
    have high := lt_pow_digitCount (10 ^ k + n)
    have low := pow_digitCount_le (by omega : 0 < 10 ^ k + n)
    rw [count] at high low
    have upper : 10 ^ rest.length < 10 ^ (k + 1) := by
      rw [Nat.pow_succ]
      exact lt_of_le_of_lt low (by omega)
    have lower : 10 ^ k < 10 ^ (rest.length + 1) := by omega
    rw [Nat.pow_lt_pow_iff_right (by decide)] at upper lower
    omega
  rw [split, List.drop_one, List.tail_cons]
  refine ⟨?_, length⟩
  rw [length] at front behind
  -- Both sides have a digit before the same power of ten, and less than the power behind it.
  have remainders := congrArg (· % 10 ^ k) front
  simp only [Nat.mul_add_mod_self_right, Nat.add_mod_left] at remainders
  rwa [Nat.mod_eq_of_lt behind, Nat.mod_eq_of_lt small] at remainders

theorem trimZeros_append (t : Text) : ∃ k, t = trimZeros t ++ List.replicate k '0' := by
  have zeros : ∀ c ∈ t.rtakeWhile (· = '0'), c = '0' := by
    intro c member
    simpa using List.mem_rtakeWhile_imp member
  refine ⟨(t.rtakeWhile (· = '0')).length, ?_⟩
  rw [← List.eq_replicate_of_mem zeros]
  exact (List.rdropWhile_append_rtakeWhile).symm

theorem trimZeros_last (t : Text) : (trimZeros t).getLast? ≠ some '0' := by
  intro zero
  rw [trimZeros, List.getLast?_reverse] at zero
  have kept := List.head?_dropWhile_not (· = '0') t.reverse
  rw [zero] at kept
  simp at kept

def pointText (part : Text) : Text := if part.isEmpty then [] else '.' :: part

theorem pointed_eq (n : Nat) :
    ∃ part : Text, (∀ c ∈ part, c.isDigit = true) ∧ part.length ≤ places ∧
      part.getLast? ≠ some '0' ∧ pointed n = Text.ofNat (n / 10 ^ places) ++ pointText part ∧
      ofDigits (Text.ofNat (n / 10 ^ places) ++ part) * 10 ^ (places - part.length) = n := by
  have small : n % 10 ^ places < 10 ^ places := Nat.mod_lt n (by decide)
  obtain ⟨value, length⟩ := ofDigits_padded small
  obtain ⟨k, split⟩ := trimZeros_append ((Text.ofNat (10 ^ places + n % 10 ^ places)).drop 1)
  have same : pointed n = Text.ofNat (n / 10 ^ places) ++
      pointText (trimZeros ((Text.ofNat (10 ^ places + n % 10 ^ places)).drop 1)) := rfl
  have last := trimZeros_last ((Text.ofNat (10 ^ places + n % 10 ^ places)).drop 1)
  have digits : ∀ c ∈ (Text.ofNat (10 ^ places + n % 10 ^ places)).drop 1, c.isDigit = true :=
    fun c member => isDigit_ofNat c (List.mem_of_mem_drop member)
  rw [split] at value length digits
  rw [List.length_append, List.length_replicate] at length
  rw [ofDigits_append, ofDigits_zeros, List.length_replicate, Nat.add_zero] at value
  refine ⟨_, fun c member => digits c (List.mem_append_left _ member), by omega, last, same, ?_⟩
  generalize trimZeros ((Text.ofNat (10 ^ places + n % 10 ^ places)).drop 1) = part at *
  obtain rfl : k = places - part.length := by omega
  calc ofDigits (Text.ofNat (n / 10 ^ places) ++ part) * 10 ^ (places - part.length)
      = n / 10 ^ places * 10 ^ (part.length + (places - part.length)) +
          ofDigits part * 10 ^ (places - part.length) := by
        rw [ofDigits_append, ofDigits_ofNat, Nat.pow_add]
        ring
    _ = n := by rw [length, value, Nat.div_add_mod']

theorem pointed_head (n : Nat) : ∃ c rest, pointed n = c :: rest ∧ c.isDigit = true := by
  obtain ⟨part, _, _, _, same, _⟩ := pointed_eq n
  obtain ⟨first, others, split, digits⟩ := ofNat_cons (n / 10 ^ places)
  rw [split] at same
  exact ⟨first, _, same, digits first (by simp)⟩

theorem value_of_trimmed {written length n : Nat} (short : length ≤ places)
    (value : written * 10 ^ (places - length) = n) :
    (written : ℚ) / 10 ^ length = n / 10 ^ places := by
  have scaled : written * 10 ^ places = n * 10 ^ length := by
    rw [← value, Nat.mul_assoc, ← Nat.pow_add, Nat.sub_add_cancel short]
  rw [div_eq_div_iff (by positivity) (by positivity)]
  exact_mod_cast scaled

theorem pointed_zero {n : Nat} (zero : pointed n = ['0']) : n = 0 := by
  obtain ⟨part, _, _, _, same, value⟩ := pointed_eq n
  rw [zero] at same
  have none : part = [] := by
    by_contra some
    have fewer := congrArg List.length same
    have whole := List.length_pos_of_ne_nil (ofNat_ne_nil (n / 10 ^ places))
    simp [pointText, some] at fewer
    omega
  rw [none, pointText, List.isEmpty_nil, if_pos rfl, List.append_nil] at same
  rw [none, List.append_nil, ← same] at value
  rw [← value]
  decide

end LineCalc.Decimal
