import LineCalc.Text

/-! White space: the characters with the Unicode property White_Space. -/
namespace LineCalc

def isBlank (c : Char) : Bool :=
  let n := c.toNat
  (9 ≤ n && n ≤ 13) || n == 0x20 || n == 0x85 || n == 0xA0 || n == 0x1680 ||
    (0x2000 ≤ n && n ≤ 0x200A) || n == 0x2028 || n == 0x2029 || n == 0x202F ||
    n == 0x205F || n == 0x3000

namespace Text

def IsBlank (t : Text) : Prop := t.all isBlank = true

instance (t : Text) : Decidable t.IsBlank := inferInstanceAs (Decidable (_ = _))

def trimLeft (t : Text) : Text := t.dropWhile isBlank

def trimRight (t : Text) : Text := (t.reverse.dropWhile isBlank).reverse

def trim (t : Text) : Text := trimRight (trimLeft t)

theorem trimLeft_append_of_blank {s : Text} (blank : s.IsBlank) (t : Text) :
    trimLeft (s ++ t) = trimLeft t := by
  induction s with
  | nil => rfl
  | cons c s ih =>
    simp only [IsBlank, List.all_cons, Bool.and_eq_true] at blank
    simpa [trimLeft, blank.1] using ih blank.2

end Text
end LineCalc
