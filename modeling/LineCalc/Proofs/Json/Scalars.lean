import LineCalc.Proofs.Json.Grammar

/-!
Strings and numbers are read from their JSON texts, whatever stands behind them and does not go on
with them.
-/
namespace LineCalc.Json

open Decimal

variable {t u rest : Text} {c : Char}

section Strings

theorem unicode?_unit (digits : Text) (four : digits.length = 4)
    (number : ofHex? digits = some c.toNat) (rest : Text) :
    unicode? (digits ++ rest) = some (c, rest) := by
  have valid : c.toNat < 0xD800 ∨ 0xDFFF < c.toNat ∧ c.toNat < 0x110000 := c.valid
  have leading : isLeading c.toNat = false := by
    rw [isLeading, Bool.and_eq_false_iff, decide_eq_false_iff_not, decide_eq_false_iff_not]
    omega
  have trailing : isTrailing c.toNat = false := by
    rw [isTrailing, Bool.and_eq_false_iff, decide_eq_false_iff_not, decide_eq_false_iff_not]
    omega
  have unit : unit? (digits ++ rest) = some (c.toNat, rest) := by
    obtain ⟨a, b, d, e, rfl⟩ := List.length_eq_four.mp four
    simp only [List.cons_append, List.nil_append, unit?, number, Option.map_some]
  rw [unicode?, unit]
  simp only [leading, trailing, Char.ofNat_toNat]
  rfl

theorem escape?_short {letter : Char} (listed : (letter, c) ∈ shortEscapes) (rest : Text) :
    escape? (letter :: rest) = some (c, rest) := by
  simp only [shortEscapes, List.mem_cons, List.not_mem_nil, or_false, Prod.mk.injEq] at listed
  rcases listed with ⟨rfl, rfl⟩ | ⟨rfl, rfl⟩ | ⟨rfl, rfl⟩ | ⟨rfl, rfl⟩ | ⟨rfl, rfl⟩ | ⟨rfl, rfl⟩ |
    ⟨rfl, rfl⟩ | ⟨rfl, rfl⟩ <;> rfl

theorem stands_of_escaped (escaped : Escaped t c) : Text.Stands stringChar? t c := by
  cases escaped with
  | plain other printed =>
    refine ⟨fun rest => ?_, c, [], rfl, other.1⟩
    rw [List.singleton_append, stringChar?, if_neg other.2, if_neg printed]
  | short listed =>
    refine ⟨fun rest => ?_, '\\', _, rfl, by decide⟩
    rw [List.cons_append, stringChar?, if_pos rfl]
    exact escape?_short listed rest
  | @unit _ digits four number =>
    refine ⟨fun rest => ?_, '\\', _, rfl, by decide⟩
    rw [List.cons_append, List.cons_append, stringChar?, if_pos rfl, escape?]
    exact unicode?_unit digits four number rest

theorem scalar?_of_stringText (written : StringText t u) (rest : Text) :
    scalar? (u ++ rest) = some (.text t, rest) := by
  obtain ⟨escaped⟩ := written
  have closed := Text.untilQuote?_flatten (escaped.imp fun _ _ => stands_of_escaped) rest
  rw [List.cons_append, List.append_assoc, List.singleton_append, scalar?, closed]
  rfl

end Strings

section Numbers

variable {whole part signs digits power : Text} {p : Option Int}

/-- What stands here does not go on with a number. -/
def Stops (t : Text) : Prop := ∀ c ∈ t.head?, c.isDigit = false ∧ c ≠ '.' ∧ c ≠ 'e' ∧ c ≠ 'E'

theorem minus_signText (negative : Bool) (digits : ∀ c ∈ whole, c.isDigit = true)
    (nonempty : whole ≠ []) (rest : Text) :
    minus (signText negative ++ (whole ++ rest)) = (negative, whole ++ rest) := by
  cases negative with
  | true => rfl
  | false =>
    obtain ⟨c, more, rfl⟩ := List.exists_cons_of_ne_nil nonempty
    have digit := digits c List.mem_cons_self
    rw [signText, if_neg Bool.false_ne_true, List.nil_append, minus]
    intro rest same
    obtain rfl : c = '-' := (List.cons.inj same).1
    cases digit

theorem fraction?_pointText (digits : ∀ c ∈ part, c.isDigit = true)
    (stop : ∀ c ∈ rest.head?, c.isDigit = false ∧ c ≠ '.') :
    fraction? (pointText part ++ rest) = some (part, rest) := by
  have solid : ∀ c ∈ rest.head?, c.isDigit = false := fun c first => (stop c first).1
  cases part with
  | nil =>
    rw [pointText, List.isEmpty_nil, if_pos rfl, List.nil_append, fraction?]
    rintro behind rfl
    exact (stop '.' rfl).2 rfl
  | cons d part =>
    have front : (d :: part ++ rest).takeWhile Char.isDigit = d :: part :=
      takeWhile_run digits solid
    have behind : (d :: part ++ rest).dropWhile Char.isDigit = rest := dropWhile_run digits solid
    have shown : pointText (d :: part) ++ rest = '.' :: (d :: part ++ rest) := rfl
    rw [shown, fraction?]
    simp only [front, behind]
    rw [if_neg (List.cons_ne_nil d part)]

theorem sign_signed (signed : signs ∈ [[], ['+'], ['-']]) (nonempty : digits ≠ [])
    (all : ∀ c ∈ digits, c.isDigit = true) (rest : Text) :
    sign (signs ++ (digits ++ rest)) = (decide (signs = ['-']), digits ++ rest) := by
  simp only [List.mem_cons, List.not_mem_nil, or_false] at signed
  rcases signed with rfl | rfl | rfl
  · obtain ⟨c, more, rfl⟩ := List.exists_cons_of_ne_nil nonempty
    have digit := all c List.mem_cons_self
    rw [List.nil_append, List.cons_append, sign]
    · rfl
    · intro behind same
      obtain rfl : c = '-' := (List.cons.inj same).1
      cases digit
    · intro behind same
      obtain rfl : c = '+' := (List.cons.inj same).1
      cases digit
  · rfl
  · rfl

theorem power?_of_powerText (written : PowerText p power) (stops : Stops rest) :
    power? (power ++ rest) = some (p, rest) := by
  cases written with
  | none =>
    cases rest with
    | nil => rfl
    | cons c rest =>
      obtain ⟨_, _, small, large⟩ := stops c rfl
      rw [List.nil_append, power?, if_neg (not_or.mpr ⟨small, large⟩)]
  | @power mark signs digits letter signed nonempty all =>
    have solid : ∀ c ∈ rest.head?, c.isDigit = false := fun c first => (stops c first).1
    have front := takeWhile_run all solid
    have behind := dropWhile_run all solid
    rw [List.cons_append, List.append_assoc, power?, if_pos letter,
      sign_signed signed nonempty all]
    simp only [front, behind, if_neg nonempty, decide_eq_true_eq]

theorem powerText_head (written : PowerText p power) (stops : Stops rest) :
    ∀ c ∈ (power ++ rest).head?, c.isDigit = false ∧ c ≠ '.' := by
  intro c first
  cases written with
  | none => exact ⟨(stops c first).1, (stops c first).2.1⟩
  | power letter signed nonempty all =>
    obtain rfl := Option.some.inj first
    rcases letter with rfl | rfl <;> decide

theorem number?_written (negative : Bool) (nonempty : whole ≠ [])
    (digits : ∀ c ∈ whole, c.isDigit = true) (front : whole.head? = some '0' → whole = ['0'])
    (places : ∀ c ∈ part, c.isDigit = true) (powered : PowerText p power) (stops : Stops rest) :
    number? (signText negative ++ (whole ++ (pointText part ++ (power ++ rest)))) =
      some (numberValue negative whole part p, rest) := by
  have stop := powerText_head powered stops
  have solid : ∀ c ∈ (pointText part ++ (power ++ rest)).head?, c.isDigit = false := by
    intro c first
    cases part with
    | nil => exact (stop c first).1
    | cons d part =>
      obtain rfl : '.' = c := Option.some.inj first
      rfl
  have zeros : ¬ (whole = [] ∨ (whole.head? = some '0' ∧ whole ≠ ['0'])) :=
    not_or.mpr ⟨nonempty, fun zero => zero.2 (front zero.1)⟩
  rw [number?, minus_signText negative digits nonempty]
  simp only [takeWhile_run digits solid, dropWhile_run digits solid, if_neg zeros,
    fraction?_pointText places stop, power?_of_powerText powered stops, Option.map_some]

theorem ne_of_head {c d : Char} (head : c = '-' ∨ c.isDigit = true)
    (other : d ≠ '-' ∧ d.isDigit = false) : c ≠ d := by
  rintro rfl
  simp [other] at head

theorem scalar?_of_head (head : c = '-' ∨ c.isDigit = true) (rest : Text) :
    scalar? (c :: rest) = number? (c :: rest) := by
  rw [scalar?]
  all_goals
    intro behind same
    exact absurd (List.cons.inj same).1 (ne_of_head head (by decide))

theorem signed_head (negative : Bool) (nonempty : whole ≠ [])
    (digits : ∀ c ∈ whole, c.isDigit = true) (rest : Text) :
    ∃ c more, signText negative ++ (whole ++ rest) = c :: more ∧
      (c = '-' ∨ c.isDigit = true) := by
  cases negative with
  | true => exact ⟨'-', _, rfl, Or.inl rfl⟩
  | false =>
    obtain ⟨c, more, rfl⟩ := List.exists_cons_of_ne_nil nonempty
    exact ⟨c, _, rfl, Or.inr (digits c List.mem_cons_self)⟩

theorem scalar?_written (negative : Bool) (nonempty : whole ≠ [])
    (digits : ∀ c ∈ whole, c.isDigit = true) (front : whole.head? = some '0' → whole = ['0'])
    (places : ∀ c ∈ part, c.isDigit = true) (powered : PowerText p power) (stops : Stops rest) :
    scalar? (signText negative ++ (whole ++ (pointText part ++ (power ++ rest)))) =
      some (numberValue negative whole part p, rest) := by
  rw [← number?_written negative nonempty digits front places powered stops]
  obtain ⟨c, more, same, head⟩ :=
    signed_head negative nonempty digits (pointText part ++ (power ++ rest))
  rw [same]
  exact scalar?_of_head head more

theorem numberValue_of_broken (broken : part ≠ [] ∨ p ≠ none) (negative : Bool) :
    numberValue negative whole part p =
      .number (Numeral.value ⟨negative, ofDigits (whole ++ part), p.getD 0 - part.length⟩) := by
  cases part with
  | cons c part => rfl
  | nil =>
    cases p with
    | some e => rfl
    | none => simp at broken

theorem scalar?_of_numeralText {n : Numeral} (written : NumeralText n t) (stops : Stops rest) :
    scalar? (t ++ rest) = some (.number n.value, rest) := by
  cases written with
  | written negative nonempty digits front places powered broken =>
    rw [← numberValue_of_broken broken negative]
    simp only [List.append_assoc]
    exact scalar?_written negative nonempty digits front places powered stops

theorem numeralText_head {n : Numeral} (written : NumeralText n t) :
    ∃ c more, t = c :: more ∧ (c = '-' ∨ c.isDigit = true) := by
  cases written with
  | written negative nonempty digits front places powered broken =>
    exact signed_head negative nonempty digits _

theorem scalar?_ofNat (n : Nat) (stops : Stops rest) :
    scalar? (Text.ofNat n ++ rest) = some (.integer n, rest) := by
  have read : scalar? (signText false ++ (Text.ofNat n ++ (pointText [] ++ ([] ++ rest)))) =
      some (numberValue false (Text.ofNat n) [] none, rest) :=
    scalar?_written false (ofNat_ne_nil n) isDigit_ofNat (head_or_single n) (List.forall_mem_nil _)
      .none stops
  have value : numberValue false (Text.ofNat n) [] none = .integer n :=
    congrArg (fun m : Nat => Value.integer m) (ofDigits_ofNat n)
  rw [value] at read
  exact read

end Numbers

end LineCalc.Json
