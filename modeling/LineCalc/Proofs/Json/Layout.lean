import LineCalc.Command.Libraries
import LineCalc.Proofs.Decimal.Limits
import LineCalc.Proofs.Json.Grammar

/-!
The compact and the indented layout of a value are JSON texts of it. The digits of a number are as
near to it as they have to be, and a fraction or an exponent is always written.
-/
namespace LineCalc.Json

open Decimal

section Strings

theorem ofHex?_zeros (n : Nat) (digits : Text) :
    ofHex? (List.replicate n '0' ++ digits) = ofHex? digits := by
  induction n with
  | zero => rfl
  | succ n ih =>
    rw [← ih]
    rfl

theorem escaped_control {c : Char} (control : c < ' ') :
    Escaped ("\\u".toList ++ List.replicate (4 - (hexDigits c.toNat).length) '0' ++
      hexDigits c.toNat) c := by
  have small : c.toNat < 32 := control
  have short : (hexDigits c.toNat).length ≤ 4 := by
    generalize c.toNat = n at small
    interval_cases n <;> decide
  have four : (List.replicate (4 - (hexDigits c.toNat).length) '0' ++ hexDigits c.toNat).length =
      4 := by
    rw [List.length_append, List.length_replicate, Nat.sub_add_cancel short]
  have number := (ofHex?_zeros (4 - (hexDigits c.toNat).length) (hexDigits c.toNat)).trans
    (ofHex?_hexDigits c.toNat)
  rw [List.append_assoc]
  exact .unit four number

theorem escaped_escapeChar (c : Char) : Escaped (escapeChar c) c := by
  by_cases special : c = '"' ∨ c = '\\'
  · rw [escapeChar, if_pos special]
    refine .short ?_
    rcases special with rfl | rfl <;> decide
  · rw [escapeChar, if_neg special]
    split_ifs with backspace formFeed feed cr tab control
    · exact .short (by rw [backspace]; decide)
    · exact .short (by rw [formFeed]; decide)
    · exact .short (by rw [feed]; decide)
    · exact .short (by rw [cr]; decide)
    · exact .short (by rw [tab]; decide)
    · exact escaped_control control
    · exact .plain (not_or.mp special) control

theorem stringText_stringText (t : Text) : StringText t (stringText t) := by
  have parts : List.Forall₂ Escaped (t.map escapeChar) t :=
    List.forall₂_map_left_iff.mpr (List.forall₂_same.mpr fun c _ => escaped_escapeChar c)
  exact .quotes parts

end Strings

section Numbers

variable {s : Scientific}

theorem isDigit_zeros (n : Nat) : ∀ c ∈ List.replicate n '0', c.isDigit = true := by
  intro c member
  rw [List.eq_of_mem_replicate member]
  rfl

theorem numeralText_whole (positive : 0 < s.digits) (whole : 0 ≤ s.exponent) (negative : Bool) :
    ∃ n, NumeralText n (signText negative ++ positional s) ∧ n.negative = negative ∧
      n.size = s.ratio.value := by
  let digits := Text.ofNat s.digits ++ List.replicate s.exponent.toNat '0'
  have head : digits.head? = (Text.ofNat s.digits).head? :=
    List.head?_append_of_ne_nil _ (ofNat_ne_nil _)
  have nonempty : digits ≠ [] := List.append_ne_nil_of_left_ne_nil (ofNat_ne_nil _) _
  have all : ∀ c ∈ digits, c.isDigit = true :=
    List.forall_mem_append.mpr ⟨isDigit_ofNat, isDigit_zeros _⟩
  have front : digits.head? = some '0' → digits = ['0'] :=
    fun zero => absurd (head.symm.trans zero) (head_ofNat positive)
  have shown : positional s = digits ++ (pointText ['0'] ++ []) := if_pos whole
  rw [shown]
  refine ⟨_, .written negative nonempty all front (by simp) .none (Or.inl (by simp)), rfl, ?_⟩
  have value : ofDigits (digits ++ ['0']) = s.digits * 10 ^ s.exponent.toNat * 10 := by
    rw [ofDigits_append, ofDigits_append, ofDigits_ofNat, ofDigits_zeros, List.length_replicate]
    rfl
  have power : (10 : ℚ) ^ s.exponent = 10 ^ s.exponent.toNat := by
    rw [← zpow_natCast, Int.toNat_of_nonneg whole]
  have behind : ((none : Option Int).getD 0 - ['0'].length : Int) = -1 := rfl
  rw [Numeral.size, value, Scientific.ratio_value, power]
  simp only [behind, zpow_neg_one]
  push_cast
  ring

/-- Zeros in front of the digits, at least so many that one digit stands before the point. -/
def padded (digits : Text) (after : Nat) : Text :=
  List.replicate (after + 1 - digits.length) '0' ++ digits

theorem length_padded (digits : Text) (after : Nat) :
    (padded digits after).length = after + 1 - digits.length + digits.length := by
  rw [padded, List.length_append, List.length_replicate]

theorem isDigit_padded {digits : Text} (all : ∀ c ∈ digits, c.isDigit = true) (after : Nat) :
    ∀ c ∈ padded digits after, c.isDigit = true :=
  List.forall_mem_append.mpr ⟨isDigit_zeros _, all⟩

theorem ofDigits_zeros_append (n : Nat) (digits : Text) :
    ofDigits (List.replicate n '0' ++ digits) = ofDigits digits := by
  rw [ofDigits_append, ofDigits_zeros, Nat.zero_mul, Nat.zero_add]

theorem front_padded {digits : Text} (head : digits.head? ≠ some '0') (after : Nat) :
    let whole := (padded digits after).take ((padded digits after).length - after)
    whole ≠ [] ∧ (whole.head? = some '0' → whole = ['0']) := by
  intro whole
  have length := length_padded digits after
  have count : whole.length = (padded digits after).length - after := by
    rw [List.length_take]
    omega
  refine ⟨List.ne_nil_of_length_pos (by omega), fun zero => ?_⟩
  by_cases short : digits.length ≤ after
  · have single : whole.length = 1 := by omega
    obtain ⟨c, same⟩ := List.length_eq_one_iff.mp single
    rw [same] at zero ⊢
    rw [Option.some.inj zero]
  · have unchanged : padded digits after = digits := by
      rw [padded, Nat.sub_eq_zero_of_le (by omega), List.replicate_zero, List.nil_append]
    have first : whole.head? = digits.head? := by
      rw [List.head?_take, if_neg (by omega), unchanged]
    exact absurd (first.symm.trans zero) head

theorem numeralText_fraction (positive : 0 < s.digits) (fraction : s.exponent < 0)
    (negative : Bool) :
    ∃ n, NumeralText n (signText negative ++ positional s) ∧ n.negative = negative ∧
      n.size = s.ratio.value := by
  let digits := padded (Text.ofNat s.digits) (-s.exponent).toNat
  let whole := digits.take (digits.length - (-s.exponent).toNat)
  let part := digits.drop (digits.length - (-s.exponent).toNat)
  have all : ∀ c ∈ digits, c.isDigit = true := isDigit_padded isDigit_ofNat _
  obtain ⟨nonempty, front⟩ := front_padded (head_ofNat positive) (-s.exponent).toNat
  have count : part.length = (-s.exponent).toNat := by
    have length : digits.length = _ := length_padded _ _
    rw [List.length_drop]
    omega
  have some : part ≠ [] := List.ne_nil_of_length_pos (by omega)
  have pointed : pointText part = '.' :: part := if_neg (by simpa using some)
  have shown : positional s = whole ++ (pointText part ++ []) := by
    rw [positional, if_neg (Int.not_le.mpr fraction), pointed, List.append_nil]
    rfl
  rw [shown]
  refine ⟨_, .written negative nonempty (fun c member => all c (List.mem_of_mem_take member)) front
    (fun c member => all c (List.mem_of_mem_drop member)) .none (Or.inl some), rfl, ?_⟩
  have value : ofDigits (whole ++ part) = s.digits := by
    rw [List.take_append_drop]
    exact (ofDigits_zeros_append _ _).trans (ofDigits_ofNat s.digits)
  have power : (none : Option Int).getD 0 - part.length = s.exponent := by
    rw [count, Option.getD_none]
    omega
  rw [Numeral.size, value, power, Scientific.ratio_value]

theorem powerText_exponent (e : Int) :
    PowerText (some e) ('e' :: ([if e < 0 then '-' else '+'] ++ Text.ofNat e.natAbs)) := by
  have signed : [if e < 0 then '-' else '+'] ∈ [[], ['+'], ['-']] := by split <;> simp
  have letter : 'e' = 'e' ∨ 'e' = 'E' := Or.inl rfl
  have power := PowerText.power letter signed (ofNat_ne_nil e.natAbs) isDigit_ofNat
  have size : (if [if e < 0 then '-' else '+'] = ['-'] then -(ofDigits (Text.ofNat e.natAbs) : Int)
      else ofDigits (Text.ofNat e.natAbs)) = e := by
    rw [ofDigits_ofNat]
    have single : [if e < 0 then '-' else '+'] = ['-'] ↔ e < 0 := by
      by_cases below : e < 0 <;> simp [below]
    rw [if_congr single rfl rfl]
    split <;> omega
  rwa [size] at power

theorem numeralText_exponential (positive : 0 < s.digits) (negative : Bool) :
    ∃ n, NumeralText n (signText negative ++ exponential s) ∧ n.negative = negative ∧
      n.size = s.ratio.value := by
  obtain ⟨first, others, split, digits⟩ := ofNat_cons s.digits
  obtain ⟨leading, places⟩ := List.forall_mem_cons.mp digits
  have front : first ≠ '0' := by
    rintro rfl
    exact head_ofNat positive (by rw [split, List.head?_cons])
  have shown : exponential s = [first] ++ (pointText others ++
      'e' :: ([if s.lead < 0 then '-' else '+'] ++ Text.ofNat s.lead.natAbs)) := by
    rw [exponential, split, pointText]
    simp
  rw [shown]
  refine ⟨_, .written negative (List.cons_ne_nil _ _) (List.forall_mem_singleton.mpr leading)
    (fun zero => absurd (Option.some.inj zero) front) places (powerText_exponent s.lead)
    (Or.inr (Option.some_ne_none _)), rfl, ?_⟩
  have count : digitCount s.digits = others.length + 1 := congrArg List.length split
  have lead : s.lead - others.length = s.exponent := by
    rw [Scientific.lead, count]
    push_cast
    ring
  rw [Numeral.size, List.singleton_append, ← split, ofDigits_ofNat, Option.getD_some, lead,
    Scientific.ratio_value]

theorem numeralText_scientific (positive : 0 < s.digits) (negative : Bool) :
    ∃ n, NumeralText n (signText negative ++
        if -5 ≤ s.lead ∧ s.lead ≤ 15 then positional s else exponential s) ∧
      n.negative = negative ∧ n.size = s.ratio.value := by
  split_ifs
  · rcases Int.lt_or_le s.exponent 0 with fraction | whole
    · exact numeralText_fraction positive fraction negative
    · exact numeralText_whole positive whole negative
  · exact numeralText_exponential positive negative

end Numbers

section Floats

open Binary

theorem numeralText_zero (negative : Bool) :
    NumeralText ⟨negative, 0, -1⟩ (signText negative ++ "0.0".toList) := by
  have digits : ∀ c ∈ ['0'], c.isDigit = true := List.forall_mem_singleton.mpr rfl
  have nonempty : ['0'] ≠ [] := List.cons_ne_nil _ _
  exact .written negative nonempty digits (fun _ => rfl) digits .none (Or.inl nonempty)

theorem textOf_numberText (x : Float) : TextOf (.number x) (numberText x) := by
  cases read : ofFloat x with
  | nan | infinite =>
    have shown : numberText x = "null".toList := by simp only [numberText, read]
    rw [shown]
    exact .missing (by simp only [isFinite, read])
  | finite negative mantissa exponent =>
    have finite : isFinite x = true := by simp only [isFinite, read]
    have canonical := canonical_of_ofFloat read
    rcases Nat.eq_zero_or_pos mantissa with rfl | positive
    · have least : exponent = leastExponent := canonical.full.resolve_left (by decide)
      have shown : numberText x = signText negative ++ "0.0".toList := by
        rw [numberText, read]
        rfl
      rw [shown]
      rw [least] at read
      exact .number finite (numeralText_zero negative)
        (eq_of_ofFloat (ofFloat_nearest (r := ⟨0, 1⟩) canonical_zero rfl negative) read)
    · have within := within_shortest canonical positive
      have some : 0 < (shortest mantissa exponent).digits :=
        Nat.pos_of_mul_pos_right (num_pos_of_within positive within)
      obtain ⟨n, written, rfl, size⟩ := numeralText_scientific some negative
      rw [← size] at within
      have nearest := eq_of_ofFloat (ofFloat_value canonical positive within) read
      rw [numberText, read]
      simp only [if_neg positive.ne']
      exact .number finite written nearest

end Floats

section Layouts

theorem white_nil : White [] := List.forall_mem_nil _

theorem white_newLine (depth : Nat) : White (newLine depth) := by
  refine List.forall_mem_cons.mpr ⟨rfl, fun c member => ?_⟩
  rw [List.eq_of_mem_replicate member]
  rfl

theorem around_self (t : Text) : Around t t :=
  ⟨[], [], white_nil, white_nil, (List.append_nil t).symm⟩

theorem around_between {s u : Text} (before : White s) (after : White u) (t : Text) :
    Around t (s ++ t ++ u) := ⟨s, u, before, after, List.append_assoc s t u⟩

mutual

theorem textOf_compact (j : Json) : TextOf j j.compact := by
  match j with
  | .null => rw [compact]; exact .null
  | .natural n => rw [compact]; exact .natural n
  | .number x => rw [compact]; exact textOf_numberText x
  | .text t => rw [compact]; exact .text (stringText_stringText t)
  | .array items => rw [compact]; exact .array (itemsText_compact items)
  | .object members => rw [compact]; exact .object (membersText_compact members)
termination_by sizeOf j

theorem itemsText_compact (items : List Json) : ItemsText items (compactItems items) := by
  match items with
  | [] =>
    rw [compactItems]
    exact .none white_nil
  | [item] =>
    rw [compactItems]
    exact .last (textOf_compact item) (around_self _)
  | item :: next :: more =>
    rw [compactItems]
    exact .comma (textOf_compact item) (around_self _) (itemsText_compact (next :: more))
termination_by sizeOf items

theorem membersText_compact (members : List (Text × Json)) :
    MembersText members (compactMembers members) := by
  match members with
  | [] =>
    rw [compactMembers]
    exact .none white_nil
  | [(name, value)] =>
    rw [compactMembers]
    exact .last (stringText_stringText name) (around_self _) (textOf_compact value) (around_self _)
  | (name, value) :: next :: more =>
    rw [compactMembers, List.append_assoc]
    exact .comma (stringText_stringText name) (around_self _) (textOf_compact value)
      (around_self _) (membersText_compact (next :: more))
termination_by sizeOf members

end

mutual

theorem textOf_pretty (depth : Nat) (j : Json) : TextOf j (j.pretty depth) := by
  match j with
  | .null => rw [pretty]; exact .null
  | .natural n => rw [pretty]; exact .natural n
  | .number x => rw [pretty]; exact textOf_numberText x
  | .text t => rw [pretty]; exact .text (stringText_stringText t)
  | .array [] =>
    rw [pretty]
    exact .array (.none white_nil)
  | .object [] =>
    rw [pretty]
    exact .object (.none white_nil)
  | .array (item :: more) =>
    rw [pretty]
    exact .array (itemsText_pretty (depth + 1) (white_newLine depth) (item :: more))
  | .object (member :: more) =>
    rw [pretty]
    exact .object (membersText_pretty (depth + 1) (white_newLine depth) (member :: more))
termination_by sizeOf j

theorem itemsText_pretty (depth : Nat) {behind : Text} (white : White behind) (items : List Json) :
    ItemsText items (prettyItems depth items ++ behind) := by
  match items with
  | [] =>
    rw [prettyItems]
    exact .none white
  | [item] =>
    rw [prettyItems]
    exact .last (textOf_pretty depth item) (around_between (white_newLine depth) white _)
  | item :: next :: more =>
    rw [prettyItems, List.append_assoc]
    have around := around_between (white_newLine depth) white_nil (item.pretty depth)
    rw [List.append_nil] at around
    exact .comma (textOf_pretty depth item) around (itemsText_pretty depth white (next :: more))
termination_by sizeOf items

theorem membersText_pretty (depth : Nat) {behind : Text} (white : White behind)
    (members : List (Text × Json)) :
    MembersText members (prettyMembers depth members ++ behind) := by
  match members with
  | [] =>
    rw [prettyMembers]
    exact .none white
  | [(name, value)] =>
    have aroundName := around_between (white_newLine depth) white_nil (stringText name)
    have space : White [' '] := List.forall_mem_singleton.mpr rfl
    have last := MembersText.last (stringText_stringText name) aroundName
      (textOf_pretty depth value) (around_between space white (value.pretty depth))
    rw [prettyMembers]
    simpa using last
  | (name, value) :: next :: more =>
    have aroundName := around_between (white_newLine depth) white_nil (stringText name)
    have space : White [' '] := List.forall_mem_singleton.mpr rfl
    have comma := MembersText.comma (stringText_stringText name) aroundName
      (textOf_pretty depth value) (around_between space white_nil (value.pretty depth))
      (membersText_pretty depth white (next :: more))
    rw [prettyMembers]
    simpa using comma
termination_by sizeOf members

end

theorem isWriter_layout : IsWriter := ⟨textOf_compact, textOf_pretty 0⟩

end Layouts

end LineCalc.Json
