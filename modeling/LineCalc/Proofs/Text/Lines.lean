import LineCalc.Text
import Mathlib.Algebra.Order.BigOperators.Group.List
import Mathlib.Algebra.Order.Ring.Nat

/-!
Lines of a text: what stands between its line feeds. Texts that are joined by line feeds keep their
own lines, so they are the lines of the whole if none of them has a line feed.
-/
namespace LineCalc.Text

variable {texts : List Text}

theorem length_splitOn (t : Text) : (t.splitOn '\n').length = t.count '\n' + 1 := by
  induction t with
  | nil => rfl
  | cons c rest ih =>
    rw [List.splitOn_cons_eq_if_modifyHead, List.count_cons]
    split
    · rw [List.length_cons, ih]
    · rw [List.length_modifyHead, ih, Nat.add_zero]

theorem splitOn_joinLines (some : texts ≠ []) :
    (joinLines texts).splitOn '\n' = texts.flatMap fun t => t.splitOn '\n' := by
  induction texts using joinLines.induct with
  | case1 => exact absurd rfl some
  | case2 line => rw [joinLines, List.flatMap_singleton]
  | case3 line more nonempty ih =>
    rw [joinLines.eq_3 _ _ nonempty, List.splitOn_append_cons_self, ih nonempty,
      List.flatMap_cons]

theorem length_splitOn_joinLines (some : texts ≠ []) :
    ((joinLines texts).splitOn '\n').length =
      texts.length + (texts.map (List.count '\n')).sum := by
  rw [splitOn_joinLines some, List.length_flatMap]
  clear some
  induction texts with
  | nil => rfl
  | cons t texts ih =>
    rw [List.map_cons, List.sum_cons, ih, length_splitOn, List.length_cons, List.map_cons,
      List.sum_cons]
    omega

theorem splitOn_joinLines_single (some : texts ≠ []) (single : ∀ t ∈ texts, '\n' ∉ t) :
    (joinLines texts).splitOn '\n' = texts := by
  rw [splitOn_joinLines some]
  clear some
  induction texts with
  | nil => rfl
  | cons t texts ih =>
    obtain ⟨first, others⟩ := List.forall_mem_cons.mp single
    rw [List.flatMap_cons, List.splitOn_eq_singleton first, ih others, List.singleton_append]

theorem length_splitOn_joinLines_eq_iff (some : texts ≠ []) :
    ((joinLines texts).splitOn '\n').length = texts.length ↔ ∀ t ∈ texts, '\n' ∉ t := by
  constructor
  · intro same t member
    rw [length_splitOn_joinLines some, Nat.add_eq_left, List.sum_eq_zero_iff] at same
    exact List.count_eq_zero.mp (same _ (List.mem_map_of_mem member))
  · intro single
    rw [splitOn_joinLines_single some single]

end LineCalc.Text
