import LineCalc.Token.Table
import LineCalc.Proofs.Answer
import LineCalc.Proofs.Text.Lines
import LineCalc.Proofs.Text.Quoted

/-!
The table of tokens. Its lines are the heading and one row for each token. All rows start their
columns at the same places, and each row can be read back, so the table determines the tokens.
-/
namespace LineCalc

def Token.cells (t : Token) : Text × Text × Text :=
  (t.text.quoted, t.kind.label, Text.ofNat t.start)

/-- A line with these cells. The second and the third one start in these columns, at least two
    blanks behind the cell before. -/
def Aligned (kindColumn startColumn : Nat) (line : Text) (cells : Text × Text × Text) : Prop :=
  ∃ m n, 2 ≤ m ∧ 2 ≤ n ∧
    line = cells.1 ++ Text.spaces m ++ cells.2.1 ++ Text.spaces n ++ cells.2.2 ∧
    cells.1.length + m = kindColumn ∧ kindColumn + cells.2.1.length + n = startColumn

theorem tableLines_eq (ts : List Token) :
    let all := tableHeading :: ts.map Token.cells
    tableLines ts = all.map fun cells =>
      tokenRow (columnWidth (all.map (·.1))) (columnWidth (all.map (·.2.1))) cells.1 cells.2.1
        cells.2.2 := rfl

theorem tableLines_ne_nil (ts : List Token) : tableLines ts ≠ [] := List.cons_ne_nil _ _

section Columns

theorem length_le_columnWidth {cell : Text} {cells : List Text} (member : cell ∈ cells) :
    cell.length ≤ columnWidth cells := by
  have listed : cell.length ∈ cells.map List.length := List.mem_map_of_mem member
  obtain ⟨width, widest⟩ := Option.isSome_iff_exists.mp (List.isSome_max?_of_mem listed)
  rw [columnWidth, List.foldl_max, widest, Option.getD_some]
  exact Nat.le_trans ((List.max?_le_iff widest).mp (Nat.le_refl _) _ listed) (Nat.le_max_right _ _)

theorem aligned_tokenRow {textWidth kindWidth : Nat} {cells : Text × Text × Text}
    (first : cells.1.length ≤ textWidth) (second : cells.2.1.length ≤ kindWidth) :
    Aligned (textWidth + 2) (textWidth + 2 + kindWidth + 2)
      (tokenRow textWidth kindWidth cells.1 cells.2.1 cells.2.2) cells := by
  refine ⟨textWidth - cells.1.length + 2, kindWidth - cells.2.1.length + 2, by omega, by omega,
    ?_, by omega, by omega⟩
  have gap (n : Nat) : Text.spaces (n + 2) = Text.spaces n ++ "  ".toList :=
    (List.replicate_append_replicate).symm
  simp only [tokenRow, Text.padRight, gap, List.append_assoc]

theorem aligned_tableLines (ts : List Token) :
    ∃ kindColumn startColumn, List.Forall₂ (Aligned kindColumn startColumn) (tableLines ts)
      (tableHeading :: ts.map Token.cells) := by
  rw [tableLines_eq]
  generalize tableHeading :: ts.map Token.cells = all
  refine ⟨columnWidth (all.map (·.1)) + 2,
    columnWidth (all.map (·.1)) + 2 + columnWidth (all.map (·.2.1)) + 2, ?_⟩
  rw [List.forall₂_map_left_iff, List.forall₂_same]
  intro cells member
  exact aligned_tokenRow (length_le_columnWidth (List.mem_map_of_mem member))
    (length_le_columnWidth (List.mem_map_of_mem member))

end Columns

section Words

def nextWord (t : Text) : Text × Text :=
  let begun := t.dropWhile (· = ' ')
  (begun.takeWhile (· ≠ ' '), begun.dropWhile (· ≠ ' '))

theorem nextWord_spaces {word rest : Text} (some : word ≠ []) (solid : ' ' ∉ word)
    (stop : ∀ c ∈ rest.head?, c = ' ') (n : Nat) :
    nextWord (Text.spaces n ++ (word ++ rest)) = (word, rest) := by
  have blanks : ∀ c ∈ Text.spaces n, decide (c = ' ') = true := by
    intro c member
    simpa using List.eq_of_mem_replicate member
  have solids : ∀ c ∈ word, decide (c ≠ ' ') = true := by
    intro c member
    simpa using ne_of_mem_of_not_mem member solid
  have starts : ∀ c ∈ (word ++ rest).head?, decide (c = ' ') = false := by
    intro c first
    rw [List.head?_append_of_ne_nil word some] at first
    simpa using solids c (List.mem_of_head? first)
  have ends : ∀ c ∈ rest.head?, decide (c ≠ ' ') = false := by
    intro c first
    simpa using stop c first
  rw [nextWord, dropWhile_run blanks starts]
  exact Prod.ext (takeWhile_run solids ends) (dropWhile_run solids ends)

theorem Kind.label_solid (k : Kind) : k.label ≠ [] ∧ ' ' ∉ k.label ∧ '\n' ∉ k.label := by
  cases k <;> decide

theorem Kind.label_injective : Function.Injective Kind.label := by
  intro k l same
  cases k <;> cases l <;> revert same <;> decide

theorem Text.blank_not_mem_ofNat (n : Nat) : ' ' ∉ Text.ofNat n := by
  intro member
  cases Decimal.isDigit_ofNat ' ' member

theorem Text.ofNat_injective : Function.Injective Text.ofNat :=
  Function.LeftInverse.injective Decimal.ofDigits_ofNat

end Words

section Rows

variable {k l m n : Nat} {line : Text} {lines : List Text} {t u : Token} {ts us : List Token}

/-- A row shows the text by its quotes, and the kind and the start as words behind it. -/
theorem token_of_aligned (first : Aligned k l line t.cells) (second : Aligned m n line u.cells) :
    t = u := by
  obtain ⟨_, gap, _, wide, written, _⟩ := first
  obtain ⟨_, gap', _, wide', rewritten, _⟩ := second
  have words (t : Token) {gap : Nat} (wide : 2 ≤ gap) (n : Nat) :
      nextWord (Text.spaces n ++ (t.kind.label ++ (Text.spaces gap ++ Text.ofNat t.start))) =
        (t.kind.label, Text.spaces gap ++ Text.ofNat t.start) ∧
      nextWord (Text.spaces gap ++ Text.ofNat t.start) = (Text.ofNat t.start, []) := by
    have blank : ∀ c ∈ (Text.spaces gap ++ Text.ofNat t.start).head?, c = ' ' := by
      obtain ⟨more, rfl⟩ := Nat.exists_eq_add_of_le' wide
      simp [Text.spaces, List.replicate_succ]
    have digits : nextWord (Text.spaces gap ++ (Text.ofNat t.start ++ [])) = (_, []) :=
      nextWord_spaces (Decimal.ofNat_ne_nil t.start) (Text.blank_not_mem_ofNat _) (by simp) gap
    rw [List.append_nil] at digits
    exact ⟨nextWord_spaces t.kind.label_solid.1 t.kind.label_solid.2.1 blank n, digits⟩
  rw [written] at rewritten
  simp only [Token.cells, List.append_assoc] at rewritten
  obtain ⟨text, behind⟩ := Text.quoted_append_inj rewritten
  have label := congrArg nextWord behind
  rw [(words t wide _).1, (words u wide' _).1, Prod.mk.injEq] at label
  have start := congrArg nextWord label.2
  rw [(words t wide 0).2, (words u wide' 0).2, Prod.mk.injEq] at start
  rw [Token.mk.injEq]
  exact ⟨text, Kind.label_injective label.1, Text.ofNat_injective start.1⟩

theorem tokens_of_aligned (first : List.Forall₂ (Aligned k l) lines (ts.map Token.cells))
    (second : List.Forall₂ (Aligned m n) lines (us.map Token.cells)) : ts = us := by
  rw [List.forall₂_map_right_iff] at first second
  induction first generalizing us with
  | nil =>
    cases second
    rfl
  | cons row rows ih =>
    cases second with
    | cons other others => rw [token_of_aligned row other, ih others]

end Rows

section Lines

theorem Token.feed_not_mem_cells (t : Token) :
    '\n' ∉ t.cells.1 ∧ '\n' ∉ t.cells.2.1 ∧ '\n' ∉ t.cells.2.2 :=
  ⟨Text.feed_not_mem_quoted t.text, t.kind.label_solid.2.2, feed_not_mem_ofNat t.start⟩

theorem feed_not_mem_tokenRow {cells : Text × Text × Text}
    (single : '\n' ∉ cells.1 ∧ '\n' ∉ cells.2.1 ∧ '\n' ∉ cells.2.2) (textWidth kindWidth : Nat) :
    '\n' ∉ tokenRow textWidth kindWidth cells.1 cells.2.1 cells.2.2 := by
  obtain ⟨text, kind, start⟩ := single
  simp [tokenRow, Text.padRight, text, kind, start, feed_not_mem_spaces]

theorem splitOn_tokenTable (ts : List Token) : (tokenTable ts).splitOn '\n' = tableLines ts := by
  refine Text.splitOn_joinLines_single (tableLines_ne_nil ts) fun line member => ?_
  obtain ⟨cells, listed, rfl⟩ := List.mem_map.mp member
  refine feed_not_mem_tokenRow ?_ _ _
  rcases List.mem_cons.mp listed with rfl | row
  · decide
  · obtain ⟨t, _, rfl⟩ := List.mem_map.mp row
    exact t.feed_not_mem_cells

theorem tokenTable_injective : Function.Injective tokenTable := by
  intro ts us same
  have lines := congrArg (List.splitOn '\n') same
  rw [splitOn_tokenTable, splitOn_tokenTable] at lines
  obtain ⟨_, _, first⟩ := aligned_tableLines ts
  obtain ⟨_, _, second⟩ := aligned_tableLines us
  rw [← lines] at second
  obtain ⟨heading, rows, _, ownRows, split⟩ := List.forall₂_cons_right_iff.mp first
  rw [split, List.forall₂_cons] at second
  exact tokens_of_aligned ownRows second.2

end Lines

end LineCalc
