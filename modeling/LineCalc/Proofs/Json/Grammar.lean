import LineCalc.Session
import LineCalc.Proofs.Decimal.Display
import LineCalc.Proofs.Json.Reader

/-!
The JSON texts of a value. White space may stand around every part, a string may escape more
characters than it has to, and a finite number has a fraction or a power of ten and is the nearest
one to what is written. All that is assumed of a writer is that it writes one of these texts.
-/
namespace LineCalc.Json

open Decimal

section Strings

def shortEscapes : List (Char × Char) :=
  [('"', '"'), ('\\', '\\'), ('/', '/'), ('b', '\x08'), ('f', '\x0c'), ('n', '\n'), ('r', '\r'),
    ('t', '\t')]

inductive Escaped : Text → Char → Prop
  | plain {c : Char} (other : c ≠ '"' ∧ c ≠ '\\') (printed : ¬ c < ' ') : Escaped [c] c
  | short {letter c : Char} (listed : (letter, c) ∈ shortEscapes) : Escaped ['\\', letter] c
  | unit {c : Char} {digits : Text} (four : digits.length = 4)
      (number : ofHex? digits = some c.toNat) : Escaped ('\\' :: 'u' :: digits) c

inductive StringText (t : Text) : Text → Prop
  | quotes {parts : List Text} (escaped : List.Forall₂ Escaped parts t) :
      StringText t ('"' :: (parts.flatten ++ ['"']))

end Strings

section Numbers

inductive PowerText : Option Int → Text → Prop
  | none : PowerText none []
  | power {mark : Char} {signs digits : Text} (letter : mark = 'e' ∨ mark = 'E')
      (signed : signs ∈ [[], ['+'], ['-']]) (nonempty : digits ≠ [])
      (all : ∀ c ∈ digits, c.isDigit = true) :
      PowerText (some (if signs = ['-'] then -(ofDigits digits : Int) else ofDigits digits))
        (mark :: (signs ++ digits))

/-- Digits around a point and a power of ten, one of them at least. -/
inductive NumeralText : Numeral → Text → Prop
  | written (negative : Bool) {whole part power : Text} {p : Option Int} (nonempty : whole ≠ [])
      (digits : ∀ c ∈ whole, c.isDigit = true) (front : whole.head? = some '0' → whole = ['0'])
      (places : ∀ c ∈ part, c.isDigit = true) (powered : PowerText p power)
      (broken : part ≠ [] ∨ p ≠ none) :
      NumeralText ⟨negative, ofDigits (whole ++ part), p.getD 0 - part.length⟩
        (signText negative ++ (whole ++ (pointText part ++ power)))

end Numbers

section Values

def White (t : Text) : Prop := ∀ c ∈ t, isSpace c = true

theorem isSpace_cases {c : Char} (space : isSpace c = true) :
    c = ' ' ∨ c = '\t' ∨ c = '\n' ∨ c = '\r' := by
  simpa only [isSpace, Bool.or_eq_true, decide_eq_true_eq, or_assoc] using space

def Around (t u : Text) : Prop := ∃ before after, White before ∧ White after ∧
  u = before ++ (t ++ after)

mutual

inductive TextOf : Json → Text → Prop
  | null : TextOf .null "null".toList
  | natural (n : Nat) : TextOf (.natural n) (Text.ofNat n)
  | number {x : Float} {n : Numeral} {t : Text} (finite : isFinite x = true)
      (written : NumeralText n t) (nearest : n.value = x) : TextOf (.number x) t
  | missing {x : Float} (infinite : isFinite x = false) : TextOf (.number x) "null".toList
  | text {t u : Text} (written : StringText t u) : TextOf (.text t) u
  | array {items : List Json} {t : Text} (inside : ItemsText items t) :
      TextOf (.array items) ('[' :: (t ++ [']']))
  | object {members : List (Text × Json)} {t : Text} (inside : MembersText members t) :
      TextOf (.object members) ('\x7b' :: (t ++ ['\x7d']))

inductive ItemsText : List Json → Text → Prop
  | none {t : Text} (white : White t) : ItemsText [] t
  | last {item : Json} {t u : Text} (written : TextOf item t) (around : Around t u) :
      ItemsText [item] u
  | comma {item next : Json} {more : List Json} {t u behind : Text} (written : TextOf item t)
      (around : Around t u) (later : ItemsText (next :: more) behind) :
      ItemsText (item :: next :: more) (u ++ ',' :: behind)

inductive MembersText : List (Text × Json) → Text → Prop
  | none {t : Text} (white : White t) : MembersText [] t
  | last {name : Text} {value : Json} {s s' t t' : Text} (named : StringText name s)
      (aroundName : Around s s') (written : TextOf value t) (around : Around t t') :
      MembersText [(name, value)] (s' ++ ':' :: t')
  | comma {name : Text} {value : Json} {next : Text × Json} {more : List (Text × Json)}
      {s s' t t' behind : Text} (named : StringText name s) (aroundName : Around s s')
      (written : TextOf value t) (around : Around t t')
      (later : MembersText (next :: more) behind) :
      MembersText ((name, value) :: next :: more) (s' ++ ':' :: (t' ++ ',' :: behind))

end

/-- The texts of a writer are JSON texts of the values. -/
structure IsWriter [Writer] : Prop where
  compact : ∀ j, TextOf j (Writer.compact j)
  indented : ∀ j, TextOf j (Writer.indented j)

end Values

end LineCalc.Json
