/-! Text as a list of characters. Places in a text are counted in bytes of its UTF-8 form. -/
namespace LineCalc

abbrev Text := List Char

namespace Text

def size (t : Text) : Nat := t.foldr (fun c n => c.utf8Size + n) 0

def cut : Text → Nat → Text × Text
  | [], _ => ([], [])
  | c :: rest, n =>
    if c.utf8Size ≤ n then
      (c :: (cut rest (n - c.utf8Size)).1, (cut rest (n - c.utf8Size)).2)
    else ([], c :: rest)

def IsBoundary (t : Text) (n : Nat) : Prop := (t.cut n).1.size = n

instance (t : Text) (n : Nat) : Decidable (t.IsBoundary n) :=
  inferInstanceAs (Decidable (_ = _))

def ofNat (n : Nat) : Text := Nat.toDigits 10 n

def spaces (n : Nat) : Text := List.replicate n ' '

def padRight (width : Nat) (t : Text) : Text := t ++ spaces (width - t.length)

def padLeft (width : Nat) (t : Text) : Text := spaces (width - t.length) ++ t

def joinLines : List Text → Text
  | [] => []
  | [line] => line
  | line :: more => line ++ '\n' :: joinLines more

def ofBytes? (bytes : List UInt8) : Option Text :=
  (String.fromUTF8? ⟨bytes.toArray⟩).map String.toList

theorem size_nil : size [] = 0 := rfl

theorem size_cons (c : Char) (t : Text) : size (c :: t) = c.utf8Size + size t := rfl

theorem size_append (s t : Text) : size (s ++ t) = size s + size t := by
  induction s with
  | nil => simp [size_nil]
  | cons c s ih => simp only [List.cons_append, size_cons, ih, Nat.add_assoc]

theorem size_spaces (n : Nat) : size (spaces n) = n := by
  induction n with
  | zero => rfl
  | succ n ih =>
    have blank : (' ' : Char).utf8Size = 1 := rfl
    simp only [spaces, List.replicate_succ, size_cons] at ih ⊢
    omega

theorem size_pos {t : Text} (nonempty : t ≠ []) : 0 < size t := by
  obtain ⟨c, rest, rfl⟩ := List.exists_cons_of_ne_nil nonempty
  have positive := c.utf8Size_pos
  rw [size_cons]
  omega

theorem cut_append (t : Text) (n : Nat) : (t.cut n).1 ++ (t.cut n).2 = t := by
  induction t generalizing n with
  | nil => rfl
  | cons c rest ih => by_cases h : c.utf8Size ≤ n <;> simp [cut, h, ih]

theorem cut_size_le (t : Text) (n : Nat) : (t.cut n).1.size ≤ n := by
  induction t generalizing n with
  | nil => simp [cut, size]
  | cons c rest ih =>
    by_cases h : c.utf8Size ≤ n
    · have := ih (n - c.utf8Size)
      simp only [cut, h, if_true, size_cons]
      omega
    · simp [cut, h, size]

theorem cut_at_size (l r : Text) : (l ++ r).cut l.size = (l, r) := by
  induction l with
  | nil =>
    cases r with
    | nil => rfl
    | cons c r => simp [cut, size, Nat.not_le.2 c.utf8Size_pos]
  | cons c l ih => simp [cut, size_cons, ih]

end Text
end LineCalc
