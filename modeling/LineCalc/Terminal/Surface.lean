import LineCalc.Terminal.Panel

/-! What stands on a terminal once several pictures of one size have been drawn on it. Only the
    cells that change are written, so the hidden half of a wide glyph keeps what stood there. -/
namespace LineCalc.Terminal

def Cell.width (c : Cell) : Nat := Text.width c.symbol

structure Surface where
  last : Picture
  shown : Picture

namespace Surface

def empty (width height : Nat) : Surface :=
  let p := fitPicture width height []
  ⟨p, p⟩

/-- Writes a row: each cell comes with the last picture's cell and with what stands there. Cells
    hidden by a wide glyph are left alone; the cells of a wide glyph that is gone are written even
    if they do not change. -/
def writeRow (hidden gone : Nat) : List (Cell × Cell) → Row → Row
  | (last, shown) :: more, next :: row =>
    (if hidden = 0 ∧ (next ≠ last ∨ 0 < gone) then next else shown) ::
      writeRow (next.width - 1) (max gone (max last.width next.width) - 1) more row
  | _, _ => []

def draw (s : Surface) (next : Picture) : Surface where
  last := next
  shown := List.zipWith (writeRow 0 0) (List.zipWith List.zip s.last s.shown) next

def drawAll (width height : Nat) (pictures : List Picture) : Picture :=
  (pictures.foldl draw (empty width height)).shown

end Surface
end LineCalc.Terminal
