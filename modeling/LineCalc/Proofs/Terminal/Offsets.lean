import LineCalc.Proofs.Terminal.Operations

/-!
Editing by byte offsets. A text can be cut, and a character can be put in or taken out, only
where a character begins or the text ends. As long as the cursor stands at such a place, no
operation of the editor asks for another one.
-/
namespace LineCalc

namespace Text

variable {t : Text} {m n : Nat}

/-- The parts before and behind a byte; none where the byte lies within a character or outside
    the text. -/
def splitAt? (t : Text) (n : Nat) : Option (Text × Text) :=
  if t.IsBoundary n then some (t.cut n) else none

def insertAt? (t : Text) (n : Nat) (c : Char) : Option Text :=
  (t.splitAt? n).map fun parts => parts.1 ++ c :: parts.2

def removeAt? (t : Text) (n : Nat) : Option Text :=
  match t.splitAt? n with
  | some (before, _ :: after) => some (before ++ after)
  | _ => none

def boundaryBelow (t : Text) : Nat → Nat
  | 0 => 0
  | n + 1 => if t.IsBoundary (n + 1) then n + 1 else t.boundaryBelow n

theorem isBoundary_size (before after : Text) : (before ++ after).IsBoundary before.size := by
  rw [IsBoundary, cut_at_size]

theorem isBoundary_cut (t : Text) (n : Nat) : t.IsBoundary (t.cut n).1.size := by
  have boundary := isBoundary_size (t.cut n).1 (t.cut n).2
  rwa [cut_append] at boundary

theorem splitAt?_size (before after : Text) :
    (before ++ after).splitAt? before.size = some (before, after) := by
  rw [splitAt?, if_pos (isBoundary_size before after), cut_at_size]

theorem removeAt?_size (before after : Text) (c : Char) :
    (before ++ c :: after).removeAt? before.size = some (before ++ after) := by
  rw [removeAt?, splitAt?_size]

theorem cut_size_mono (le : m ≤ n) : (t.cut m).1.size ≤ (t.cut n).1.size := by
  induction t generalizing m n with
  | nil => exact Nat.le_refl _
  | cons c rest ih =>
    by_cases fits : c.utf8Size ≤ m
    · have shorter : m - c.utf8Size ≤ n - c.utf8Size := Nat.sub_le_sub_right le _
      simp only [cut, if_pos fits, if_pos (Nat.le_trans fits le), size_cons]
      exact Nat.add_le_add_left (ih shorter) _
    · simp only [cut, if_neg fits, size_nil]
      exact Nat.zero_le _

theorem le_cut_size (boundary : t.IsBoundary m) (le : m ≤ n) : m ≤ (t.cut n).1.size := by
  have reaches := cut_size_mono (t := t) le
  rwa [boundary] at reaches

theorem boundary_le_size (boundary : t.IsBoundary n) : n ≤ t.size := by
  have whole := congrArg size (t.cut_append n)
  rw [size_append, boundary] at whole
  omega

theorem cut_min_size (t : Text) (n : Nat) :
    (t.cut (min n t.size)).1.size = (t.cut n).1.size := by
  have inside := boundary_le_size (isBoundary_cut t n)
  apply Nat.le_antisymm
  · exact cut_size_mono (Nat.min_le_left n t.size)
  · exact le_cut_size (isBoundary_cut t n) (Nat.le_min.mpr ⟨t.cut_size_le n, inside⟩)

theorem boundaryBelow_eq (t : Text) (n : Nat) : t.boundaryBelow n = (t.cut n).1.size := by
  induction n with
  | zero => exact (Nat.le_zero.mp (t.cut_size_le 0)).symm
  | succ n ih =>
    rw [boundaryBelow]
    split
    · next boundary => exact boundary.symm
    · next within =>
      -- No boundary is met, so the search goes on as from the byte before.
      have below : (t.cut (n + 1)).1.size ≠ n + 1 := within
      have le := t.cut_size_le (n + 1)
      rw [ih]
      apply Nat.le_antisymm
      · exact cut_size_mono (Nat.le_succ n)
      · exact le_cut_size (isBoundary_cut t (n + 1)) (by omega)

end Text

namespace Terminal.Editor

variable {e : Editor}

def placeBefore? (e : Editor) : Option (Option Nat) :=
  (e.text.splitAt? e.cursor).map fun parts =>
    if parts.1.isEmpty then none else some (Text.size parts.1.dropLast)

def placeBehind? (e : Editor) : Option (Option Nat) :=
  (e.text.splitAt? e.cursor).map fun parts =>
    parts.2.head?.map fun c => e.cursor + c.utf8Size

def refreshed (e : Editor) (t : Text) (cursor : Nat) : Editor :=
  { e with text := t, cursor := cursor, answer := e.session.preview t }

/-- An operation on the text and the offset of the cursor; none if it asks for a place that is no
    boundary, or for a character where there is none. -/
def operateAt? (e : Editor) : Operation → Option Editor
  | .setText t => some (e.refreshed t t.size)
  | .setCursor n => some { e with cursor := e.text.boundaryBelow (min n e.text.size) }
  | .insert c =>
    (e.text.insertAt? e.cursor c).map fun t => e.refreshed t (e.cursor + c.utf8Size)
  | .deleteBefore =>
    match e.placeBefore? with
    | none => none
    | some none => some e
    | some (some place) => (e.text.removeAt? place).map fun t => e.refreshed t place
  | .deleteAfter =>
    if e.cursor < e.text.size then
      (e.text.removeAt? e.cursor).map fun t => e.refreshed t e.cursor
    else some e
  | .left => e.placeBefore?.map fun place? => { e with cursor := place?.getD e.cursor }
  | .right => e.placeBehind?.map fun place? => { e with cursor := place?.getD e.cursor }
  | .home => some { e with cursor := 0 }
  | .toEnd => some { e with cursor := e.text.size }
  | .clear => some (e.refreshed [] 0)
  | .clearAll => some { e.refreshed [] 0 with session := e.session.clear }
  | .submit =>
    some { e with
      answer := (e.session.submission e.text).1
      session := (e.session.submission e.text).2 }
  | .bringBack =>
    match e.session.history.last? with
    | none => some e
    | some entry => some (e.refreshed entry.expression entry.expression.size)
  | .quit => some { e with quits := true }

section Boundary

theorem before_append_after (e : Editor) : e.before ++ e.after = e.text :=
  Text.cut_append e.text e.cursor

theorem splitAt?_cursor (boundary : e.text.IsBoundary e.cursor) :
    e.text.splitAt? e.cursor = some (e.before, e.after) := if_pos boundary

theorem placeBefore?_eq (boundary : e.text.IsBoundary e.cursor) :
    e.placeBefore? =
      some (if e.before.isEmpty then none else some (Text.size e.before.dropLast)) := by
  rw [placeBefore?, splitAt?_cursor boundary, Option.map_some]

theorem placeBehind?_eq (boundary : e.text.IsBoundary e.cursor) :
    e.placeBehind? = some (e.after.head?.map fun c => e.cursor + c.utf8Size) := by
  rw [placeBehind?, splitAt?_cursor boundary, Option.map_some]

theorem size_before_concat (boundary : e.text.IsBoundary e.cursor) (c : Char) :
    Text.size (e.before ++ [c]) = e.cursor + c.utf8Size := by
  have place : Text.size e.before = e.cursor := boundary
  rw [Text.size_append, Text.size_cons, Text.size_nil, place, Nat.add_zero]

theorem cursor_lt_size_iff (boundary : e.text.IsBoundary e.cursor) :
    e.cursor < e.text.size ↔ e.after ≠ [] := by
  have place : Text.size e.before = e.cursor := boundary
  have whole : e.text.size = e.cursor + Text.size e.after := by
    rw [← before_append_after, Text.size_append, place]
  rw [whole, Nat.lt_add_right_iff_pos]
  constructor
  · intro positive nothing
    rw [nothing] at positive
    exact Nat.lt_irrefl 0 positive
  · exact Text.size_pos

theorem operateAt?_insert (boundary : e.text.IsBoundary e.cursor) (c : Char) :
    e.operateAt? (.insert c) = some (e.insert c) := by
  rw [operateAt?, Text.insertAt?, splitAt?_cursor boundary, ← size_before_concat boundary]
  simp [refreshed, insert, edited]

theorem operateAt?_deleteBefore (boundary : e.text.IsBoundary e.cursor) :
    e.operateAt? .deleteBefore = some e.deleteBefore := by
  rw [operateAt?, placeBefore?_eq boundary, deleteBefore]
  cases empty : e.before.isEmpty with
  | true => rfl
  | false =>
    have nonempty : e.before ≠ [] := by simpa using empty
    have whole : e.text = e.before.dropLast ++ e.before.getLast nonempty :: e.after := by
      rw [List.append_cons, List.dropLast_append_getLast nonempty, before_append_after]
    have removed : e.text.removeAt? (Text.size e.before.dropLast) =
        some (e.before.dropLast ++ e.after) := by
      rw [whole]
      exact Text.removeAt?_size _ _ _
    simp [removed, refreshed, edited]

theorem operateAt?_deleteAfter (boundary : e.text.IsBoundary e.cursor) :
    e.operateAt? .deleteAfter = some e.deleteAfter := by
  have place : Text.size e.before = e.cursor := boundary
  rw [operateAt?, deleteAfter, Text.removeAt?, splitAt?_cursor boundary]
  simp only [cursor_lt_size_iff boundary]
  cases behind : e.after with
  | nil => rfl
  | cons c rest => simp [refreshed, edited, place]

theorem operateAt?_left (boundary : e.text.IsBoundary e.cursor) :
    e.operateAt? .left = some e.left := by
  have place : Text.size e.before = e.cursor := boundary
  rw [operateAt?, placeBefore?_eq boundary, left, moved]
  cases before : e.before with
  | nil =>
    rw [before] at place
    simp [← place]
  | cons c rest => simp

theorem operateAt?_right (boundary : e.text.IsBoundary e.cursor) :
    e.operateAt? .right = some e.right := by
  have place : Text.size e.before = e.cursor := boundary
  rw [operateAt?, placeBehind?_eq boundary, right, moved]
  cases behind : e.after with
  | nil => simp [place]
  | cons c rest => simp [size_before_concat boundary]

theorem operateAt?_eq (boundary : e.text.IsBoundary e.cursor) (o : Operation) :
    e.operateAt? o = some (e.operate o) := by
  cases o with
  | setText t => simp [operateAt?, operate, setText, refreshed, edited]
  | setCursor n =>
    rw [operateAt?, Text.boundaryBelow_eq, Text.cut_min_size]
    rfl
  | insert c => exact operateAt?_insert boundary c
  | deleteBefore => exact operateAt?_deleteBefore boundary
  | deleteAfter => exact operateAt?_deleteAfter boundary
  | left => exact operateAt?_left boundary
  | right => exact operateAt?_right boundary
  | bringBack =>
    rw [operateAt?, operate, bringBack]
    cases e.session.history.last? with
    | none => rfl
    | some entry => simp [setText, refreshed, edited]
  | home | toEnd | clear | clearAll | submit | quit => rfl

end Boundary

end Terminal.Editor
end LineCalc
