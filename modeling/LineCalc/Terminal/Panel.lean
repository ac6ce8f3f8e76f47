import LineCalc.Terminal.Cell

/-! Pictures are rows of cells. Panels are put beside and above each other, and a frame goes
    around a picture. -/
namespace LineCalc.Terminal

abbrev Picture := List Row

def fitPicture (width height : Nat) (p : Picture) : Picture :=
  ((p.map (fit width .blank)) ++ List.replicate (height - p.length) (blanks width)).take height

def beside (l r : Picture) : Picture := List.zipWith (· ++ ·) l r

def coloured (h : Hue) (t : Text) : Row := t.map fun c => ⟨[c], .ink h⟩

def topRow (h : Hue) (title : Text) (width : Nat) : Row :=
  match width with
  | 0 => []
  | 1 => coloured h ['┌']
  | n + 2 =>
    coloured h ('┌' :: (title ++ List.replicate (n - title.length) '─').take n ++ ['┐'])

def bottomRow (h : Hue) (width : Nat) : Row :=
  match width with
  | 0 => []
  | 1 => coloured h ['└']
  | n + 2 => coloured h ('└' :: List.replicate n '─' ++ ['┘'])

def middleRow (h : Hue) (width : Nat) (row : Row) : Row :=
  match width with
  | 0 => []
  | 1 => coloured h ['│']
  | n + 2 => coloured h ['│'] ++ fit n .blank row ++ coloured h ['│']

def frame (h : Hue) (title : Text) (width height : Nat) (inside : Picture) : Picture :=
  match height with
  | 0 => []
  | 1 => [topRow h title width]
  | n + 2 =>
    topRow h title width ::
      (fitPicture (width - 2) n inside).map (middleRow h width) ++ [bottomRow h width]

theorem length_fitPicture (width height : Nat) (p : Picture) :
    (fitPicture width height p).length = height := by
  simp only [fitPicture, List.length_take, List.length_append, List.length_map,
    List.length_replicate]
  omega

theorem length_frame (h : Hue) (title : Text) (width height : Nat) (inside : Picture) :
    (frame h title width height inside).length = height := by
  match height with
  | 0 => rfl
  | 1 => rfl
  | n + 2 => simp [frame, length_fitPicture]

end LineCalc.Terminal
