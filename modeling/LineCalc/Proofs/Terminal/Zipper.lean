import LineCalc.Proofs.Terminal.Offsets

/-!
The expression line as a zipper: the characters before the cursor, those behind it, the
history and whether the editor is left. Whatever is asked of an editor, it shows the zipper of
which the same is asked, so its cursor stands between two characters at all times.
-/
namespace LineCalc.Terminal

structure Zipper where
  before : Text
  after : Text
  history : History
  quits : Bool

namespace Zipper

def start (capacity : Nat) : Zipper := ⟨[], [], History.empty capacity, false⟩

def text (z : Zipper) : Text := z.before ++ z.after

def operate (rules : Rules) (z : Zipper) : Operation → Zipper
  | .setText t => { z with before := t, after := [] }
  | .setCursor n => { z with before := (z.text.cut n).1, after := (z.text.cut n).2 }
  | .insert c => { z with before := z.before ++ [c] }
  | .deleteBefore => { z with before := z.before.dropLast }
  | .deleteAfter => { z with after := z.after.tail }
  | .left => { z with before := z.before.dropLast, after := z.before.getLast?.toList ++ z.after }
  | .right => { z with before := z.before ++ z.after.head?.toList, after := z.after.tail }
  | .home => { z with before := [], after := z.text }
  | .toEnd => { z with before := z.text, after := [] }
  | .clear => { z with before := [], after := [] }
  | .clearAll => { z with before := [], after := [], history := z.history.clear }
  | .submit => { z with history := (Session.submit ⟨rules, z.history⟩ z.text).history }
  | .bringBack =>
    match z.history.last? with
    | some entry => { z with before := entry.expression, after := [] }
    | none => z
  | .quit => { z with quits := true }

def call (rules : Rules) (z : Zipper) (c : Call) : Zipper :=
  c.operation?.elim z (z.operate rules)

def calls (rules : Rules) (z : Zipper) (cs : List Call) : Zipper := cs.foldl (call rules) z

end Zipper

/-- The editor shows the zipper: its cursor is at the byte where the first part ends. -/
structure Shows (rules : Rules) (e : Editor) (z : Zipper) : Prop where
  text : e.text = z.text
  cursor : e.cursor = z.before.size
  session : e.session = ⟨rules, z.history⟩
  quits : e.quits = z.quits

section Operations

variable {rules : Rules} {e : Editor} {z : Zipper}

theorem cut_of_shows (shows : Shows rules e z) : e.text.cut e.cursor = (z.before, z.after) := by
  rw [shows.text, shows.cursor, Zipper.text, Text.cut_at_size]

theorem before_of_shows (shows : Shows rules e z) : e.before = z.before :=
  congrArg Prod.fst (cut_of_shows shows)

theorem after_of_shows (shows : Shows rules e z) : e.after = z.after :=
  congrArg Prod.snd (cut_of_shows shows)

theorem shows_start (settings : Settings) :
    Shows settings.rules (Editor.start settings.session) (Zipper.start settings.capacity) :=
  ⟨rfl, rfl, rfl, rfl⟩

theorem shows_edited (shows : Shows rules e z) (before after : Text) :
    Shows rules (e.edited before after) { z with before, after } :=
  ⟨rfl, rfl, shows.session, shows.quits⟩

theorem shows_moved (shows : Shows rules e z) {before after : Text}
    (whole : before ++ after = z.text) :
    Shows rules (e.moved before) { z with before, after } :=
  ⟨shows.text.trans whole.symm, rfl, shows.session, shows.quits⟩

theorem shows_setText (shows : Shows rules e z) (t : Text) :
    Shows rules (e.setText t) { z with before := t, after := [] } :=
  shows_edited shows t []

theorem shows_deleteBefore (shows : Shows rules e z) :
    Shows rules e.deleteBefore { z with before := z.before.dropLast } := by
  rw [Editor.deleteBefore, before_of_shows shows, after_of_shows shows]
  split
  · next empty =>
    have same : z.before.dropLast = z.before := by simp [List.isEmpty_iff.mp empty]
    rwa [same]
  · exact shows_edited shows _ _

theorem shows_deleteAfter (shows : Shows rules e z) :
    Shows rules e.deleteAfter { z with after := z.after.tail } := by
  rw [Editor.deleteAfter, before_of_shows shows, after_of_shows shows, List.drop_one]
  split
  · next empty =>
    have same : z.after.tail = z.after := by simp [List.isEmpty_iff.mp empty]
    rwa [same]
  · exact shows_edited shows _ _

theorem shows_left (shows : Shows rules e z) :
    Shows rules e.left
      { z with before := z.before.dropLast, after := z.before.getLast?.toList ++ z.after } := by
  rw [Editor.left, before_of_shows shows]
  refine shows_moved shows ?_
  rw [← List.append_assoc, Zipper.text]
  cases last : z.before.getLast? with
  | none => simp [List.getLast?_eq_none_iff.mp last]
  | some c => rw [Option.toList_some, List.dropLast_append_getLast? c last]

theorem shows_right (shows : Shows rules e z) :
    Shows rules e.right
      { z with before := z.before ++ z.after.head?.toList, after := z.after.tail } := by
  rw [Editor.right, before_of_shows shows, after_of_shows shows, List.take_one]
  refine shows_moved shows ?_
  rw [List.append_assoc, Zipper.text]
  cases z.after <;> rfl

theorem shows_submit (shows : Shows rules e z) :
    Shows rules e.submit
      { z with history := (Session.submit ⟨rules, z.history⟩ z.text).history } := by
  refine ⟨shows.text, shows.cursor, ?_, shows.quits⟩
  have same := Session.call_rules ⟨rules, z.history⟩ (.submit z.text)
  change (e.session.submission e.text).2 = _
  rw [shows.session, shows.text]
  exact congrArg (Session.mk · _) same

theorem shows_operate (shows : Shows rules e z) (o : Operation) :
    Shows rules (e.operate o) (z.operate rules o) := by
  cases o with
  | setText t => exact shows_setText shows t
  | setCursor n =>
    rw [Editor.operate, Editor.setCursor, shows.text]
    exact shows_moved shows (Text.cut_append _ _)
  | insert c =>
    rw [Editor.operate, Editor.insert, before_of_shows shows, after_of_shows shows]
    exact shows_edited shows _ _
  | deleteBefore => exact shows_deleteBefore shows
  | deleteAfter => exact shows_deleteAfter shows
  | left => exact shows_left shows
  | right => exact shows_right shows
  | home => exact shows_moved shows rfl
  | toEnd =>
    rw [Editor.operate, Editor.toEnd, shows.text]
    exact shows_moved shows (List.append_nil _)
  | clear => exact shows_edited shows [] []
  | clearAll =>
    refine ⟨rfl, rfl, ?_, shows.quits⟩
    change e.session.clear = _
    rw [shows.session]
    rfl
  | submit => exact shows_submit shows
  | bringBack =>
    have held : e.session.history = z.history := by rw [shows.session]
    rw [Editor.operate, Editor.bringBack, held, Zipper.operate]
    cases z.history.last? with
    | none => exact shows
    | some entry => exact shows_setText shows entry.expression
  | quit => exact ⟨shows.text, shows.cursor, shows.session, rfl⟩

theorem shows_call (shows : Shows rules e z) (c : Call) :
    Shows rules (e.call c) (z.call rules c) := by
  rw [Editor.call_eq, Zipper.call]
  cases c.operation? with
  | none => exact shows
  | some o => exact shows_operate shows o

theorem shows_calls (shows : Shows rules e z) (cs : List Call) :
    Shows rules (e.calls cs) (z.calls rules cs) := by
  induction cs generalizing e z with
  | nil => exact shows
  | cons c cs ih => exact ih (shows_call shows c)

theorem isBoundary_of_shows (shows : Shows rules e z) : e.text.IsBoundary e.cursor := by
  rw [shows.text, shows.cursor]
  exact Text.isBoundary_size z.before z.after

end Operations

/-- Whatever has been asked of a new editor, it shows the zipper of which the same has been asked.
    Its cursor is between two characters of the text; each operation finds the places that it asks
    for; the cursor can be set to the last place that is not past a byte; and keys that stand
    for no operation change nothing. -/
theorem calls_refine_zipper (settings : Settings) (cs : List Call) :
    let e := (Editor.start settings.session).calls cs
    let z := (Zipper.start settings.capacity).calls settings.rules cs
    Shows settings.rules e z ∧
      e.text.IsBoundary e.cursor ∧ e.cursor ≤ e.text.size ∧
      (∀ o, e.operateAt? o = some (e.operate o)) ∧
      (∀ n, let place := (e.operate (.setCursor n)).cursor
        e.text.IsBoundary place ∧ place ≤ n ∧ ∀ p, e.text.IsBoundary p → p ≤ n → p ≤ place) ∧
      ∀ c : Call, c.operation? = none → e.call c = e := by
  have shows := shows_calls (shows_start settings) cs
  have boundary := isBoundary_of_shows shows
  refine ⟨shows, boundary, Text.boundary_le_size boundary, Editor.operateAt?_eq boundary, ?_, ?_⟩
  · intro n
    refine ⟨Text.isBoundary_cut _ n, Text.cut_size_le _ n, ?_⟩
    intro p between le
    exact Text.le_cut_size between le
  · intro c unbound
    rw [Editor.call_eq, unbound]
    rfl

theorem calls_refine_zipper_accented :
    let e := (Editor.start (Settings.session {})).calls
      [.key { code := .char 'é' }, .key { code := .char '1' }, .operation (.setCursor 1),
        .operation (.insert '-')]
    e.text = "-é1".toList ∧ e.cursor = 1 ∧ e.text.IsBoundary 1 ∧
      e.operateAt? .deleteAfter = some e.deleteAfter ∧
      (e.operate (.setCursor 2)).cursor ≤ 2 ∧ 1 ≤ (e.operate (.setCursor 2)).cursor ∧
      e.call (.key { code := .char 'z', modifiers := [.control] }) = e := by
  obtain ⟨shows, boundary, _, places, cursors, unbound⟩ := calls_refine_zipper {}
    [.key { code := .char 'é' }, .key { code := .char '1' }, .operation (.setCursor 1),
      .operation (.insert '-')]
  have cursor := shows.cursor
  have last := (cursors 2).2
  refine ⟨shows.text, cursor, ?_, places .deleteAfter, last.1, last.2 1 ?_ (by decide),
    unbound _ rfl⟩
  · rwa [cursor] at boundary
  · rwa [cursor] at boundary

end LineCalc.Terminal
