import LineCalc.Text.Quoted
import LineCalc.Proofs.Token.Lexeme
import Mathlib.Data.List.Forall2
import Mathlib.Data.List.Induction
import Mathlib.Tactic.IntervalCases

/-!
Quoted texts can be read back. What is written for a character shows where it ends, so a quoted
text ends at its closing quote, whatever stands behind it, and it is a single line.
-/
namespace LineCalc

section Hex

def hexValue? (c : Char) : Option Nat :=
  if c.isDigit then some (c.toNat - '0'.toNat)
  else if 'a' ≤ c ∧ c ≤ 'f' then some (c.toNat - 'a'.toNat + 10)
  else if 'A' ≤ c ∧ c ≤ 'F' then some (c.toNat - 'A'.toNat + 10)
  else none

def ofHex? (t : Text) : Option Nat := t.foldlM (fun n c => (hexValue? c).map (16 * n + ·)) 0

theorem hexValue?_digitChar {d : Nat} (digit : d < 16) : hexValue? d.digitChar = some d := by
  interval_cases d <;> rfl

theorem ofHex?_concat (t : Text) (c : Char) :
    ofHex? (t ++ [c]) = (ofHex? t).bind fun n => (hexValue? c).map (16 * n + ·) := by
  rw [ofHex?, List.foldlM_append]
  simp only [List.foldlM_cons, List.foldlM_nil, bind_pure]
  rfl

theorem ofHex?_hexDigits (n : Nat) : ofHex? (hexDigits n) = some n := by
  induction n using Nat.strongRecOn with
  | ind n ih =>
    by_cases small : n < 16
    · rw [hexDigits, Nat.toDigits_of_lt_base small]
      exact (ofHex?_concat [] _).trans (by simp [ofHex?, hexValue?_digitChar small])
    · have shorter := ih (n / 16) (by omega)
      rw [hexDigits] at shorter
      rw [hexDigits, Nat.toDigits_of_base_le (by decide) (Nat.le_of_not_lt small), ofHex?_concat,
        shorter, hexValue?_digitChar (Nat.mod_lt n (by decide))]
      exact congrArg some (Nat.div_add_mod n 16)

theorem hexValue?_of_mem {t : Text} {n : Nat} (read : ofHex? t = some n) :
    ∀ c ∈ t, hexValue? c ≠ none := by
  induction t using List.reverseRecOn generalizing n with
  | nil => exact List.forall_mem_nil _
  | append_singleton t c ih =>
    rw [ofHex?_concat] at read
    obtain ⟨m, front, last⟩ := Option.bind_eq_some_iff.mp read
    refine List.forall_mem_append.mpr ⟨ih front, List.forall_mem_singleton.mpr ?_⟩
    intro none
    rw [none] at last
    cases last

theorem not_mem_hexDigits {c : Char} (other : hexValue? c = none) (n : Nat) : c ∉ hexDigits n :=
  fun member => hexValue?_of_mem (ofHex?_hexDigits n) c member other

end Hex

namespace Text

section Until

variable {read? : Text → Option (Char × Text)}

/-- The characters that are read up to the closing quote, and what stands behind it. -/
def untilQuote? (read? : Text → Option (Char × Text)) : Text → Option (Text × Text)
  | [] => none
  | first :: others =>
    if first = '"' then some ([], others)
    else
      match read? (first :: others) with
      | none => none
      | some (c, rest) =>
        if _shorter : rest.length < (first :: others).length then
          (untilQuote? read? rest).map fun r => (c :: r.1, r.2)
        else none
termination_by t => t.length
decreasing_by exact _shorter

/-- What is written for a character is read back, and no quote stands in front of it. -/
structure Stands (read? : Text → Option (Char × Text)) (written : Text) (c : Char) : Prop where
  read : ∀ rest, read? (written ++ rest) = some (c, rest)
  first : ∃ d more, written = d :: more ∧ d ≠ '"'

theorem untilQuote?_flatten {parts : List Text} {t : Text}
    (stand : List.Forall₂ (Stands read?) parts t) (rest : Text) :
    untilQuote? read? (parts.flatten ++ '"' :: rest) = some (t, rest) := by
  induction stand with
  | nil => rw [List.flatten_nil, List.nil_append, untilQuote?, if_pos rfl]
  | @cons part c parts t stands _ ih =>
    obtain ⟨d, more, rfl, other⟩ := stands.first
    have step := stands.read (parts.flatten ++ '"' :: rest)
    have shorter : (parts.flatten ++ '"' :: rest).length <
        (d :: (more ++ (parts.flatten ++ '"' :: rest))).length := by
      simp only [List.length_cons, List.length_append]
      omega
    rw [List.cons_append] at step
    rw [List.flatten_cons, List.append_assoc, List.cons_append, untilQuote?, if_neg other, step]
    simp only [dif_pos shorter, ih, Option.map_some]

end Until

def unescapeLetter (c : Char) : Char :=
  if c = 'n' then '\n'
  else if c = 'r' then '\r'
  else if c = 't' then '\t'
  else if c = '0' then '\x00'
  else c

def unquoteChar? : Text → Option (Char × Text)
  | [] => none
  | c :: rest =>
    if c ≠ '\\' then some (c, rest)
    else
      match rest with
      | [] => none
      | 'u' :: '\x7b' :: digits =>
        (ofHex? (digits.takeWhile (· ≠ '\x7d'))).map fun n =>
          (Char.ofNat n, (digits.dropWhile (· ≠ '\x7d')).tail)
      | letter :: rest => some (unescapeLetter letter, rest)

theorem unquoteChar?_plain {c : Char} (plain : c ≠ '\\') (rest : Text) :
    unquoteChar? (c :: rest) = some (c, rest) := if_pos plain

theorem unquoteChar?_hex (c : Char) (rest : Text) :
    unquoteChar? (['\\', 'u', '\x7b'] ++ hexDigits c.toNat ++ ['\x7d'] ++ rest) =
      some (c, rest) := by
  have brace : '\x7d' ∉ hexDigits c.toNat := not_mem_hexDigits rfl _
  have digits : ∀ d ∈ hexDigits c.toNat, decide (d ≠ '\x7d') = true := by
    intro d member
    simpa using ne_of_mem_of_not_mem member brace
  have stop : ∀ d ∈ ('\x7d' :: rest).head?, decide (d ≠ '\x7d') = false := by simp
  have read := takeWhile_run digits stop
  have behind := dropWhile_run digits stop
  simp only [List.append_assoc, List.cons_append, List.nil_append, unquoteChar?]
  rw [if_neg (by simp)]
  simp only [read, behind, ofHex?_hexDigits, Option.map_some, List.tail_cons, Char.ofNat_toNat]

theorem unquoteChar?_quoteChar (c : Char) (rest : Text) :
    unquoteChar? (quoteChar c ++ rest) = some (c, rest) := by
  by_cases special : c = '"' ∨ c = '\\'
  · rcases special with rfl | rfl <;> rfl
  · have plain := unquoteChar?_plain (mt Or.inr special) rest
    rw [quoteChar, if_neg special]
    split_ifs with feed cr tab null
    · rw [feed]; rfl
    · rw [cr]; rfl
    · rw [tab]; rfl
    · rw [null]; rfl
    · exact plain
    · exact unquoteChar?_hex c rest
    · exact plain

theorem stands_quoteChar (c : Char) : Stands unquoteChar? (quoteChar c) c where
  read := unquoteChar?_quoteChar c
  first := by
    by_cases special : c = '"' ∨ c = '\\'
    · exact ⟨'\\', [c], if_pos special, by decide⟩
    · have plain : ∃ d more, [c] = d :: more ∧ d ≠ '"' := ⟨c, [], rfl, mt Or.inl special⟩
      rw [quoteChar, if_neg special]
      split_ifs
      · exact ⟨_, _, rfl, by decide⟩
      · exact ⟨_, _, rfl, by decide⟩
      · exact ⟨_, _, rfl, by decide⟩
      · exact ⟨_, _, rfl, by decide⟩
      · exact plain
      · exact ⟨_, _, rfl, by decide⟩
      · exact plain

theorem quoted_append_inj {s t x y : Text} (same : s.quoted ++ x = t.quoted ++ y) :
    s = t ∧ x = y := by
  have read (s x : Text) : untilQuote? unquoteChar? (s.quoted ++ x).tail = some (s, x) := by
    have parts : List.Forall₂ (Stands unquoteChar?) (s.map quoteChar) s :=
      List.forall₂_map_left_iff.mpr (List.forall₂_same.mpr fun c _ => stands_quoteChar c)
    have closed := untilQuote?_flatten parts x
    rw [List.append_cons] at closed
    exact closed
  have both := read s x
  rw [same, read t y] at both
  cases both
  exact ⟨rfl, rfl⟩

theorem feed_not_mem_quoteChar (c : Char) : '\n' ∉ quoteChar c := by
  rw [quoteChar]
  split_ifs with special feed cr tab null visible hidden
  · rcases special with rfl | rfl <;> decide
  · decide
  · decide
  · decide
  · decide
  · exact fun member => feed (List.mem_singleton.mp member).symm
  · have digits : '\n' ∉ hexDigits c.toNat := not_mem_hexDigits rfl _
    simp [digits]
  · exact fun member => feed (List.mem_singleton.mp member).symm

theorem feed_not_mem_quoted (t : Text) : '\n' ∉ t.quoted := by
  have inside : '\n' ∉ t.flatMap quoteChar := by
    rw [List.mem_flatMap]
    rintro ⟨c, _, feed⟩
    exact feed_not_mem_quoteChar c feed
  simp [quoted, inside]

end Text
end LineCalc
