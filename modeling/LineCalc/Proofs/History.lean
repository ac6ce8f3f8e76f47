import LineCalc.History
import Mathlib.Data.List.DropRight

/-!
Histories over time. Whatever is recorded and cleared, a history holds the last of the
entries that were recorded since it was cleared, as many as it has room for.
-/
namespace LineCalc.History

variable {h : History} {es : List Entry}

inductive Change
  | record (expression : Text) (result : Float)
  | clear

namespace Change

def isClear : Change → Bool
  | .record _ _ => false
  | .clear => true

/-- The entry that is added: a blank expression adds none. -/
def added? : Change → Option Entry
  | .record expression result =>
    if expression.IsBlank then none else some ⟨expression, result⟩
  | .clear => none

end Change

def change (h : History) : Change → History
  | .record expression result => h.record expression result
  | .clear => h.clear

def changeAll (h : History) (changes : List Change) : History := changes.foldl change h

/-- What was recorded since the last clearing, whether or not there was room for it. -/
def sinceClear (changes : List Change) : List Entry :=
  (changes.rtakeWhile fun c => !c.isClear).filterMap Change.added?

section Changes

theorem changeAll_append (h : History) (before after : List Change) :
    h.changeAll (before ++ after) = (h.changeAll before).changeAll after :=
  List.foldl_append

theorem record_blank {expression : Text} (blank : expression.IsBlank) (result : Float) :
    h.record expression result = h := by
  simp [record, blank]

theorem record_entry {expression : Text} (shown : ¬ expression.IsBlank) (result : Float) :
    (h.record expression result).entries =
      (if h.entries.length < h.capacity then h.entries else h.entries.drop 1) ++
        [⟨expression, result⟩] := by
  simp [record, shown]

theorem change_capacity (h : History) (c : Change) : (h.change c).capacity = h.capacity := by
  cases c with
  | clear => rfl
  | record expression result =>
    rw [change, record]
    split
    · rfl
    · rfl

theorem changeAll_capacity (h : History) (changes : List Change) :
    (h.changeAll changes).capacity = h.capacity := by
  induction changes generalizing h with
  | nil => rfl
  | cons c changes ih => exact (ih (h.change c)).trans (change_capacity h c)

theorem sinceClear_snoc_clear (changes : List Change) :
    sinceClear (changes ++ [.clear]) = [] := by
  simp [sinceClear, Change.isClear]

theorem sinceClear_snoc_record (changes : List Change) (expression : Text) (result : Float) :
    sinceClear (changes ++ [.record expression result]) =
      sinceClear changes ++ (Change.added? (.record expression result)).toList := by
  simp [sinceClear, Change.isClear, List.filterMap_eq_flatMap_toList]

end Changes

section Room

theorem rtake_of_length_le {n : Nat} (few : es.length ≤ n) : es.rtake n = es := by
  rw [List.rtake, Nat.sub_eq_zero_of_le few, List.drop_zero]

theorem rtake_make_room (es : List Entry) (n : Nat) :
    (if (es.rtake (n + 1)).length < n + 1 then es.rtake (n + 1) else (es.rtake (n + 1)).drop 1) =
      es.rtake n := by
  unfold List.rtake
  rw [List.length_drop]
  split
  · next room =>
    have all : es.length - (n + 1) = es.length - n := by omega
    rw [all]
  · next full =>
    have oldest : es.length - (n + 1) + 1 = es.length - n := by omega
    rw [List.drop_drop, oldest]

theorem record_rtake {expression : Text} (shown : ¬ expression.IsBlank) (result : Float)
    (room : 0 < h.capacity) (holds : h.entries = es.rtake h.capacity) :
    (h.record expression result).entries =
      (es ++ [Entry.mk expression result]).rtake h.capacity := by
  obtain ⟨n, capacity⟩ := Nat.exists_eq_add_of_lt room
  rw [Nat.zero_add] at capacity
  rw [record_entry shown, holds, capacity, rtake_make_room, List.rtake_concat_succ]

theorem length_record_le (room : 0 < h.capacity) (fits : h.entries.length ≤ h.capacity)
    (expression : Text) (result : Float) :
    (h.record expression result).entries.length ≤ h.capacity := by
  by_cases blank : expression.IsBlank
  · rw [record_blank blank]
    exact fits
  · rw [record_entry blank, List.length_append, List.length_singleton]
    split
    · omega
    · rw [List.length_drop]
      omega

theorem entries_changeAll (room : 0 < h.capacity) (empty : h.entries = [])
    (changes : List Change) :
    (h.changeAll changes).entries = (sinceClear changes).rtake h.capacity := by
  -- From the right, since the last change comes on top of what the others leave.
  induction changes using List.reverseRecOn with
  | nil => simp [changeAll, empty, sinceClear, List.rtake]
  | append_singleton changes c ih =>
    rw [changeAll_append]
    have same := changeAll_capacity h changes
    generalize h.changeAll changes = before at ih same ⊢
    rw [← same] at ih room ⊢
    cases c with
    | clear =>
      rw [sinceClear_snoc_clear, List.rtake_nil]
      rfl
    | record expression result =>
      rw [sinceClear_snoc_record]
      by_cases blank : expression.IsBlank
      · have unchanged : before.changeAll [.record expression result] = before :=
          record_blank blank result
        rw [unchanged, ih]
        simp [Change.added?, blank]
      · have added : Change.added? (.record expression result) = some ⟨expression, result⟩ :=
          if_neg blank
        rw [added]
        exact record_rtake blank result room ih

theorem empty_capacity_pos (capacity : Nat) : 0 < (empty capacity).capacity :=
  Nat.lt_of_lt_of_le Nat.zero_lt_one (Nat.le_max_right capacity 1)

theorem entries_of_empty (capacity : Nat) (changes : List Change) :
    ((empty capacity).changeAll changes).entries =
      (sinceClear changes).rtake (max capacity 1) :=
  entries_changeAll (empty_capacity_pos capacity) rfl changes

end Room

theorem sinceClear_filterMap {α : Type} (change? : α → Option Change) (events : List α) :
    sinceClear (events.filterMap change?) =
      (events.rtakeWhile fun a => !(change? a).any Change.isClear).filterMap fun a =>
        (change? a).bind Change.added? := by
  induction events using List.reverseRecOn with
  | nil => rfl
  | append_singleton events a ih =>
    rw [List.filterMap_append, List.rtakeWhile_concat]
    cases found : change? a with
    | none => simp [found, ih]
    | some c =>
      have last : [a].filterMap change? = [c] := by simp [found]
      rw [last]
      cases c with
      | clear =>
        rw [sinceClear_snoc_clear]
        simp [Change.isClear]
      | record expression result =>
        rw [sinceClear_snoc_record, ih]
        simp [found, Change.isClear, List.filterMap_eq_flatMap_toList]

section Queries

theorem length_rtake (es : List Entry) (n : Nat) : (es.rtake n).length = min n es.length := by
  rw [List.rtake, List.length_drop]
  omega

theorem accepts_iff {expression : Text} :
    accepts expression = true ↔ ∃ c ∈ expression, isBlank c = false := by
  simp [accepts, Text.IsBlank]

theorem entries_record (room : 0 < h.capacity) (fits : h.entries.length ≤ h.capacity)
    (expression : Text) (result : Float) :
    (h.record expression result).entries =
      if accepts expression then (h.entries ++ [Entry.mk expression result]).rtake h.capacity
      else h.entries := by
  by_cases blank : expression.IsBlank
  · have refused : accepts expression = false := by simp [accepts, blank]
    rw [record_blank blank, refused]
    rfl
  · have accepted : accepts expression = true := by simp [accepts, blank]
    rw [if_pos accepted]
    exact record_rtake blank result room (rtake_of_length_le fits).symm

/-- All queries are about this list, which is ordered from the oldest entry to the newest. -/
structure Describes (h : History) (es : List Entry) : Prop where
  size : h.size = es.length
  first : h.first? = es[0]?
  last : h.last? = es[es.length - 1]?
  get : ∀ i, h.get? i = es[i]?
  newestFirst : h.newestFirst = es.reverse
  newest : ∀ n, h.newest n = (es.rtake n).reverse ∧ (h.newest n).length = min n es.length

theorem describes_entries (h : History) : h.Describes h.entries where
  size := rfl
  first := List.head?_eq_getElem?
  last := List.getLast?_eq_getElem?
  get := fun _ => rfl
  newestFirst := rfl
  newest := by
    intro n
    have newest : h.newest n = (h.entries.rtake n).reverse := by
      rw [newest, newestFirst, List.rtake_eq_reverse_take_reverse, List.reverse_reverse]
    refine ⟨newest, ?_⟩
    rw [newest, List.length_reverse, length_rtake]

/-- However often it was recorded and cleared, a history holds the last accepted entries since
    then, never more than it has room for, and all queries tell of these. What is accepted is
    what shows a character. -/
theorem queries_of_changes (capacity : Nat) (changes : List Change) :
    let h := (empty capacity).changeAll changes
    let es := (sinceClear changes).rtake (max capacity 1)
    h.entries = es ∧ h.capacity = max capacity 1 ∧ h.size ≤ h.capacity ∧ h.Describes es ∧
      ∀ expression result,
        (accepts expression = true ↔ ∃ c ∈ expression, isBlank c = false) ∧
        (h.record expression result).entries =
          if accepts expression then (es ++ [Entry.mk expression result]).rtake h.capacity
          else es := by
  intro h es
  have holds : h.entries = es := entries_of_empty capacity changes
  have room : h.capacity = max capacity 1 := changeAll_capacity (empty capacity) changes
  have fits : h.entries.length ≤ h.capacity := by
    rw [holds, room, length_rtake]
    exact Nat.min_le_left _ _
  have positive : 0 < h.capacity := by
    rw [room]
    exact empty_capacity_pos capacity
  refine ⟨holds, room, fits, ?_, ?_⟩
  · rw [← holds]
    exact describes_entries h
  · intro expression result
    refine ⟨accepts_iff, ?_⟩
    rw [← holds]
    exact entries_record positive fits expression result

end Queries

end LineCalc.History
