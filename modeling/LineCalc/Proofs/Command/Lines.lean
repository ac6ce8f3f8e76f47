import LineCalc.Command.Dialogue

/-!
Lines of bytes. What a line feed ends is a line, without the last carriage return in front of
it; what stands behind the last line feed is a line if it is anything.
-/
namespace LineCalc.Command

def ended (piece : List UInt8) : List UInt8 :=
  if piece.getLast? = some 13 then piece.dropLast else piece

/-- The lines of bytes that were split at the line feeds. No line feed has ended the last piece. -/
def linesOfPieces : List (List UInt8) → List (List UInt8)
  | [] => []
  | [last] => if last = [] then [] else [last]
  | piece :: second :: more => ended piece :: linesOfPieces (second :: more)

section Pieces

variable {b : UInt8} {rest : List UInt8}

theorem linesOfPieces_cons {pieces : List (List UInt8)} (more : pieces ≠ [])
    (piece : List UInt8) :
    linesOfPieces (piece :: pieces) = ended piece :: linesOfPieces pieces := by
  obtain ⟨second, rest, rfl⟩ := List.exists_cons_of_ne_nil more
  rfl

theorem ended_cons {piece : List UInt8} (other : piece = [] → b ≠ 13) :
    ended (b :: piece) = b :: ended piece := by
  cases piece with
  | nil => simp [ended, other rfl]
  | cons first more =>
    simp only [ended, List.getLast?_cons_cons, List.dropLast_cons_cons]
    split <;> rfl

theorem splitOn_feed (rest : List UInt8) : (10 :: rest).splitOn 10 = [] :: rest.splitOn 10 :=
  List.splitOn_cons_eq_if_modifyHead 10 rest

theorem splitOn_other (other : b ≠ 10) :
    (b :: rest).splitOn 10 = (rest.splitOn 10).modifyHead (b :: ·) := by
  rw [List.splitOn_cons_eq_if_modifyHead, if_neg (by simpa using other)]

theorem feed_of_splitOn {second : List UInt8} {more : List (List UInt8)}
    (split : rest.splitOn 10 = [] :: second :: more) : ∃ behind, rest = 10 :: behind := by
  cases rest with
  | nil => simp at split
  | cons x xs =>
    by_cases feed : x = 10
    · exact ⟨xs, by rw [feed]⟩
    · rw [splitOn_other feed] at split
      cases pieces : xs.splitOn 10 <;> simp [pieces] at split

theorem linesOfPieces_splitOn_cons (other : b ≠ 10)
    (notReturn : ∀ behind, b = 13 → rest ≠ 10 :: behind) :
    linesOfPieces ((b :: rest).splitOn 10) =
      match linesOfPieces (rest.splitOn 10) with
      | [] => [[b]]
      | first :: more => (b :: first) :: more := by
  rw [splitOn_other other]
  match split : rest.splitOn 10 with
  | [] => exact absurd split (List.splitOn_ne_nil 10 rest)
  | [last] => cases last <;> rfl
  | piece :: second :: more =>
    have apart : ended (b :: piece) = b :: ended piece := by
      apply ended_cons
      rintro rfl rfl
      obtain ⟨behind, feed⟩ := feed_of_splitOn split
      exact notReturn behind rfl feed
    simp only [List.modifyHead_cons, linesOfPieces, apart]

end Pieces

theorem byteLines_eq (input : List UInt8) :
    byteLines input = linesOfPieces (input.splitOn 10) := by
  induction input using byteLines.induct with
  | case1 => rfl
  | case2 rest ih =>
    have split : (13 :: 10 :: rest).splitOn (10 : UInt8) = [13] :: rest.splitOn 10 := by
      rw [splitOn_other (by decide), splitOn_feed]
      rfl
    rw [split, linesOfPieces_cons (List.splitOn_ne_nil 10 rest), ← ih, byteLines]
    rfl
  | case3 rest notReturn ih =>
    rw [splitOn_feed, linesOfPieces_cons (List.splitOn_ne_nil 10 rest), ← ih,
      byteLines.eq_3 _ _ notReturn, if_pos rfl]
    rfl
  | case4 b rest notReturn other nothing ih =>
    rw [linesOfPieces_splitOn_cons other notReturn, ← ih, nothing,
      byteLines.eq_3 _ _ notReturn, if_neg other, nothing]
  | case5 b rest notReturn other first more lines ih =>
    rw [linesOfPieces_splitOn_cons other notReturn, ← ih, lines,
      byteLines.eq_3 _ _ notReturn, if_neg other, lines]

end LineCalc.Command
