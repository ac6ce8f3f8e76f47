import LineCalc.Proofs.Terminal.Events
import LineCalc.Terminal.Screen
import LineCalc.Terminal.Surface

/-!
What stands on the terminal. Wide glyphs leave traces there, but among pictures whose glyphs take a
cell at most each replaces the one before, so a run leaves the screen of its last drawing.
-/
namespace LineCalc.Terminal

variable {width height : Nat} {p : Picture} {old next : Row}

/-- A picture of this size without wide glyphs. -/
structure Narrow (width height : Nat) (p : Picture) : Prop where
  height : p.length = height
  rows : ∀ row ∈ p, row.length = width ∧ ∀ c ∈ row, c.width ≤ 1

theorem writeRow_narrow (same : old.length = next.length) (before : ∀ c ∈ old, c.width ≤ 1)
    (after : ∀ c ∈ next, c.width ≤ 1) : Surface.writeRow 0 0 (old.zip old) next = next := by
  induction next generalizing old with
  | nil => cases old <;> rfl
  | cons c next ih =>
    obtain ⟨d, old, rfl⟩ := List.exists_cons_of_length_eq_add_one same
    obtain ⟨narrow, before⟩ := List.forall_mem_cons.mp before
    obtain ⟨narrow', after⟩ := List.forall_mem_cons.mp after
    -- Nothing is hidden by this cell, and nothing has to be written again behind it.
    have hidden : c.width - 1 = 0 := by omega
    have gone : max 0 (max d.width c.width) - 1 = 0 := by omega
    rw [List.zip_cons_cons, Surface.writeRow, hidden, gone, ih (Nat.succ.inj same) before after]
    by_cases kept : c = d <;> simp [kept]

theorem draw_narrow (first : Narrow width height p) {q : Picture} (second : Narrow width height q) :
    Surface.draw ⟨p, p⟩ q = ⟨q, q⟩ := by
  have lengths : p.length = q.length := first.height.trans second.height.symm
  have rows : List.zipWith (Surface.writeRow 0 0) (List.zipWith List.zip p p) q = q := by
    refine List.ext_getElem (by simp [lengths]) fun i _ small => ?_
    obtain ⟨length, before⟩ := first.rows p[i] (List.getElem_mem (by omega))
    obtain ⟨length', after⟩ := second.rows q[i] (List.getElem_mem small)
    rw [List.getElem_zipWith, List.getElem_zipWith]
    exact writeRow_narrow (length.trans length'.symm) before after
  rw [Surface.draw, rows]

theorem narrow_empty (width height : Nat) : Narrow width height (fitPicture width height []) := by
  refine ⟨length_fitPicture width height [], fun row member => ?_⟩
  rw [fitPicture, List.map_nil, List.nil_append] at member
  obtain rfl := List.eq_of_mem_replicate (List.mem_of_mem_take member)
  refine ⟨List.length_replicate, fun c member => ?_⟩
  obtain rfl := List.eq_of_mem_replicate member
  decide

theorem foldl_draw_narrow (first : Narrow width height p) (pictures : List Picture)
    (narrow : ∀ q ∈ pictures, Narrow width height q) :
    (pictures.foldl Surface.draw ⟨p, p⟩).shown = pictures.getLast?.getD p := by
  induction pictures generalizing p with
  | nil => rfl
  | cons q more ih =>
    obtain ⟨own, others⟩ := List.forall_mem_cons.mp narrow
    rw [List.foldl_cons, draw_narrow first own, ih own others, List.getLast?_cons,
      Option.getD_some]

section Frames

theorem length_coloured (h : Hue) (t : Text) : (coloured h t).length = t.length := List.length_map _

theorem length_topRow (h : Hue) (title : Text) (width : Nat) :
    (topRow h title width).length = width := by
  match width with
  | 0 => rfl
  | 1 => rfl
  | n + 2 =>
    simp only [topRow, length_coloured, List.length_append, List.length_cons, List.length_take,
      List.length_replicate, List.length_nil]
    omega

theorem length_middleRow (h : Hue) (width : Nat) (row : Row) :
    (middleRow h width row).length = width := by
  match width with
  | 0 => rfl
  | 1 => rfl
  | n + 2 =>
    simp only [middleRow, List.length_append, length_coloured, length_fit, List.length_singleton]
    omega

theorem length_bottomRow (h : Hue) (width : Nat) : (bottomRow h width).length = width := by
  match width with
  | 0 => rfl
  | 1 => rfl
  | n + 2 => simp [bottomRow, length_coloured]

theorem length_of_mem_frame {h : Hue} {title : Text} {inside : Picture} {row : Row}
    (member : row ∈ frame h title width height inside) : row.length = width := by
  match height with
  | 0 => cases member
  | 1 =>
    obtain rfl := List.mem_singleton.mp member
    exact length_topRow h title width
  | n + 2 =>
    rw [frame, List.cons_append, List.mem_cons, List.mem_append, List.mem_singleton,
      List.mem_map] at member
    rcases member with rfl | ⟨row, _, rfl⟩ | rfl
    · exact length_topRow h title width
    · exact length_middleRow h width row
    · exact length_bottomRow h width

theorem narrow_screen {e : Editor}
    (narrow : ∀ row ∈ screen e width height, ∀ c ∈ row, c.width ≤ 1) :
    Narrow width height (screen e width height) where
  height := length_frame _ _ _ _ _
  rows row member := ⟨length_of_mem_frame member, narrow row member⟩

end Frames

/-- After a run the terminal shows the editor as it was before the last attempt to read. -/
theorem shown_of_reads {e : Editor} {events : List Event} {n m : Nat} {failure? : Option Text}
    (reads : Reads e events n m failure?)
    (narrow : ∀ i < m, ∀ row ∈ screen (e.handled (events.take i)) width height,
      ∀ c ∈ row, c.width ≤ 1) :
    Surface.drawAll width height ((run e events).drawn.map (screen · width height)) =
      if m = 0 then fitPicture width height []
      else screen (e.handled (events.take (m - 1))) width height := by
  have drawn : (run e events).drawn.map (screen · width height) =
      (List.range m).map fun i => screen (e.handled (events.take i)) width height := by
    rw [run_of_reads reads, drawn_exchangesOf, List.map_map]
    rfl
  have pictures : ∀ q ∈ (run e events).drawn.map (screen · width height),
      Narrow width height q := by
    rw [drawn, List.forall_mem_map]
    exact fun i member => narrow_screen (narrow i (List.mem_range.mp member))
  rw [Surface.drawAll, Surface.empty, foldl_draw_narrow (narrow_empty width height) _ pictures,
    drawn, List.getLast?_map, List.getLast?_range]
  split <;> rfl

end LineCalc.Terminal
