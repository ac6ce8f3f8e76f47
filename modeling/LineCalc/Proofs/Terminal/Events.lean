import LineCalc.Proofs.Terminal.Operations
import LineCalc.Terminal.Events
import LineCalc.Terminal.Screen

/-!
Runs over events. A run draws the editor, reads, and presses what it has read if that is a key,
over and over until a key has left the editor or reading fails. So it reads no event behind the
first one that leaves the editor, and the last drawing is one event behind the editor at the end.
-/
namespace LineCalc.Terminal

def failed? : Option Event → Option Text
  | none => some endOfEvents
  | some (.failure reason) => some reason
  | some (.key _) | some (.focus _) | some .resize | some .mouse | some (.paste _) => none

def Event.key? : Event → Option Key
  | .key k => some k
  | .focus _ | .resize | .mouse | .paste _ | .failure _ => none

def Editor.handled (e : Editor) (events : List Event) : Editor :=
  e.presses (events.filterMap Event.key?)

/-- How many events a run reads, how many attempts it makes at that, and how it fails. It goes on
    while the editor has not been left and the attempts do not fail. -/
inductive Reads (e : Editor) (events : List Event) : Nat → Nat → Option Text → Prop
  | left {n : Nat} (stays : ∀ i < n, (e.handled (events.take i)).quits = false)
      (meets : ∀ i < n, failed? events[i]? = none)
      (leaves : (e.handled (events.take n)).quits = true) : Reads e events n n none
  | broken {n : Nat} {reason : Text}
      (stays : ∀ i < n + 1, (e.handled (events.take i)).quits = false)
      (meets : ∀ i < n, failed? events[i]? = none)
      (breaks : failed? events[n]? = some reason) : Reads e events n (n + 1) (some reason)

/-- Before each attempt to read, the editor is drawn as the events before have left it. -/
def exchangesOf (e : Editor) (events : List Event) (attempts : Nat) : List Exchange :=
  (List.range attempts).flatMap fun i => [.drawn (e.handled (events.take i)), .read events[i]?]

section Steps

variable {e : Editor} {event : Event} {rest events : List Event} {n m : Nat}
  {failure? : Option Text}

theorem handled_cons (e : Editor) (event : Event) (rest : List Event) :
    e.handled (event :: rest) = (e.handle event).handled rest := by
  cases event <;> rfl

theorem exchangesOf_cons (e : Editor) (event : Event) (rest : List Event) (m : Nat) :
    exchangesOf e (event :: rest) (m + 1) =
      .drawn e :: .read event :: exchangesOf (e.handle event) rest m := by
  have first : e.handled [] = e := rfl
  simp only [exchangesOf, List.range_succ_eq_map, List.flatMap_cons, List.flatMap_map,
    List.take_zero, first, List.getElem?_cons_zero, List.getElem?_cons_succ,
    List.take_succ_cons, handled_cons, List.cons_append, List.nil_append]

theorem run_left (leaves : e.quits = true) (events : List Event) :
    run e events = ⟨e, [], none⟩ := by
  cases events <;> simp [run, leaves]

theorem run_broken {reason : Text} (stays : e.quits = false)
    (breaks : failed? events[0]? = some reason) :
    run e events = ⟨e, [.drawn e, .read events[0]?], some reason⟩ := by
  cases events with
  | nil =>
    obtain rfl : endOfEvents = reason := Option.some.inj breaks
    simp [run, stays]
  | cons event rest =>
    cases event with
    | failure cause =>
      obtain rfl : cause = reason := Option.some.inj breaks
      simp [run, stays]
    | key | focus | resize | mouse | paste => cases breaks

theorem run_cons (stays : e.quits = false) (meets : failed? (some event) = none) :
    run e (event :: rest) =
      let r := run (e.handle event) rest
      { r with exchanges := .drawn e :: .read event :: r.exchanges } := by
  cases event with
  | failure reason => cases meets
  | key | focus | resize | mouse | paste => simp [run, stays]

theorem stays_cons_iff :
    (∀ i < m + 1, (e.handled ((event :: rest).take i)).quits = false) ↔
      e.quits = false ∧ ∀ i < m, ((e.handle event).handled (rest.take i)).quits = false := by
  simp only [Nat.forall_lt_succ_left, List.take_succ_cons, handled_cons]
  rfl

theorem meets_cons_iff :
    (∀ i < n + 1, failed? (event :: rest)[i]? = none) ↔
      failed? (some event) = none ∧ ∀ i < n, failed? rest[i]? = none := by
  simp only [Nat.forall_lt_succ_left, List.getElem?_cons_zero, List.getElem?_cons_succ]

theorem reads_cons (stays : e.quits = false) (meets : failed? (some event) = none)
    (reads : Reads (e.handle event) rest n m failure?) :
    Reads e (event :: rest) (n + 1) (m + 1) failure? := by
  cases reads with
  | left later more leaves =>
    refine .left (stays_cons_iff.mpr ⟨stays, later⟩) (meets_cons_iff.mpr ⟨meets, more⟩) ?_
    rwa [List.take_succ_cons, handled_cons]
  | broken later more breaks =>
    exact .broken (stays_cons_iff.mpr ⟨stays, later⟩) (meets_cons_iff.mpr ⟨meets, more⟩) breaks

theorem reads_zero (stays : e.quits = false) {reason : Text}
    (breaks : failed? events[0]? = some reason) : Reads e events 0 1 (some reason) := by
  refine .broken ?_ (by simp) breaks
  intro i first
  obtain rfl : i = 0 := by omega
  exact stays

theorem exists_reads (e : Editor) (events : List Event) :
    ∃ n m failure?, Reads e events n m failure? := by
  induction events generalizing e with
  | nil =>
    cases quits : e.quits with
    | true => exact ⟨0, 0, none, .left (by simp) (by simp) quits⟩
    | false => exact ⟨0, 1, some endOfEvents, reads_zero quits rfl⟩
  | cons event rest ih =>
    cases quits : e.quits with
    | true => exact ⟨0, 0, none, .left (by simp) (by simp) quits⟩
    | false =>
      cases meets : failed? (some event) with
      | some reason => exact ⟨0, 1, some reason, reads_zero quits meets⟩
      | none =>
        obtain ⟨n, m, failure?, reads⟩ := ih (e.handle event)
        exact ⟨n + 1, m + 1, failure?, reads_cons quits meets reads⟩

theorem reads_succ (reads : Reads e events (n + 1) m failure?) :
    ∃ event rest k, events = event :: rest ∧ m = k + 1 ∧ e.quits = false ∧
      failed? (some event) = none ∧ Reads (e.handle event) rest n k failure? := by
  cases events with
  | nil =>
    cases reads with
    | left stays meets leaves => cases meets 0 (by omega)
    | broken stays meets breaks => cases meets 0 (by omega)
  | cons event rest =>
    cases reads with
    | left stays meets leaves =>
      obtain ⟨first, stays⟩ := stays_cons_iff.mp stays
      obtain ⟨met, meets⟩ := meets_cons_iff.mp meets
      rw [List.take_succ_cons, handled_cons] at leaves
      exact ⟨event, rest, n, rfl, rfl, first, met, .left stays meets leaves⟩
    | broken stays meets breaks =>
      obtain ⟨first, stays⟩ := stays_cons_iff.mp stays
      obtain ⟨met, meets⟩ := meets_cons_iff.mp meets
      exact ⟨event, rest, n + 1, rfl, rfl, first, met, .broken stays meets breaks⟩

/-- How much a run reads tells all that it does. -/
theorem run_of_reads (reads : Reads e events n m failure?) :
    run e events = ⟨e.handled (events.take n), exchangesOf e events m, failure?⟩ := by
  induction n generalizing e events m with
  | zero =>
    cases reads with
    | left stays meets leaves => exact run_left leaves events
    | broken stays meets breaks => exact run_broken (stays 0 (by omega)) breaks
  | succ n ih =>
    obtain ⟨event, rest, k, rfl, rfl, stays, meets, reads⟩ := reads_succ reads
    rw [run_cons stays meets, ih reads, List.take_succ_cons, handled_cons, exchangesOf_cons]

end Steps

section Streams

variable {e : Editor} {events others : List Event} {n m : Nat} {failure? : Option Text}

theorem take_congr (agree : ∀ i < m, others[i]? = events[i]?) {k : Nat} (within : k ≤ m) :
    others.take k = events.take k := by
  apply List.ext_getElem?
  intro i
  rw [List.getElem?_take, List.getElem?_take]
  split
  · exact agree i (by omega)
  · rfl

theorem stays_congr (agree : ∀ i < m, others[i]? = events[i]?) {k : Nat} (within : k ≤ m + 1)
    (stays : ∀ i < k, (e.handled (events.take i)).quits = false) :
    ∀ i < k, (e.handled (others.take i)).quits = false := by
  intro i small
  rw [take_congr agree (by omega)]
  exact stays i small

theorem meets_congr (agree : ∀ i < m, others[i]? = events[i]?) {k : Nat} (within : k ≤ m)
    (meets : ∀ i < k, failed? events[i]? = none) : ∀ i < k, failed? others[i]? = none := by
  intro i small
  rw [agree i (by omega)]
  exact meets i small

theorem reads_congr (agree : ∀ i < m, others[i]? = events[i]?)
    (reads : Reads e events n m failure?) : Reads e others n m failure? := by
  cases reads with
  | left stays meets leaves =>
    refine .left (stays_congr agree (Nat.le_succ n) stays)
      (meets_congr agree (Nat.le_refl n) meets) ?_
    rwa [take_congr agree (Nat.le_refl n)]
  | broken stays meets breaks =>
    refine .broken (stays_congr agree (Nat.le_succ _) stays)
      (meets_congr agree (Nat.le_succ n) meets) ?_
    rwa [agree n (Nat.lt_succ_self n)]

theorem exchangesOf_congr (agree : ∀ i < m, others[i]? = events[i]?) :
    exchangesOf e others m = exchangesOf e events m := by
  rw [exchangesOf, exchangesOf]
  apply List.flatMap_congr
  intro i member
  have small := List.mem_range.mp member
  rw [take_congr agree (by omega), agree i small]

theorem le_of_reads (reads : Reads e events n m failure?) : n ≤ m := by
  cases reads with
  | left => exact Nat.le_refl n
  | broken => exact Nat.le_succ n

theorem drawn_exchangesOf (e : Editor) (events : List Event) (m : Nat) (failure? : Option Text)
    (last : Editor) :
    Run.drawn ⟨last, exchangesOf e events m, failure?⟩ =
      (List.range m).map fun i => e.handled (events.take i) := by
  simp only [Run.drawn, exchangesOf, List.filterMap_flatMap, List.map_eq_flatMap]
  rfl

end Streams

/-- Whatever the editor and the events, a run reads up to the first event that leaves the editor,
    none if it has been left before, or up to the first failure to read. Its editor is the one
    after the keys among these events. Once before each attempt to read, and never else, the
    editor is drawn as it is then; so the last drawing, however editors are drawn, is that before
    the last attempt. What stands behind the last attempt does not matter. -/
theorem run_reads_until_left {α : Type} (draw : Editor → α) (e : Editor) (events : List Event) :
    let r := run e events
    let state (i : Nat) := e.handled (events.take i)
    ∃ n m, Reads e events n m r.failure? ∧ r.editor = state n ∧
      r.exchanges = (List.range m).flatMap (fun i => [.drawn (state i), .read events[i]?]) ∧
      (r.drawn.map draw).getLast? = (if m = 0 then none else some (draw (state (m - 1)))) ∧
      ∀ others : List Event, (∀ i < m, others[i]? = events[i]?) → run e others = r := by
  intro r state
  obtain ⟨n, m, failure?, reads⟩ := exists_reads e events
  have whole : r = ⟨state n, exchangesOf e events m, failure?⟩ := run_of_reads reads
  refine ⟨n, m, ?_, ?_, ?_, ?_, ?_⟩
  · rwa [whole]
  · rw [whole]
  · rw [whole]
    rfl
  · rw [whole, drawn_exchangesOf, List.getLast?_map, List.getLast?_map, List.getLast?_range]
    split <;> rfl
  · intro others agree
    rw [whole, run_of_reads (reads_congr agree reads), exchangesOf_congr agree,
      take_congr agree (le_of_reads reads)]

theorem run_reads_until_left_before :
    let e := Editor.start (Settings.session {})
    let events : List Event := [.resize, .key { code := .char 'q', modifiers := [.control] }]
    run e (events ++ [.key { code := .char '1' }, .failure "lost".toList]) = run e events := by
  intro e events
  obtain ⟨n, m, _, _, exchanges, _, same⟩ := run_reads_until_left (screen · 80 24) e events
  have attempts : m = 2 := by
    have lengths := congrArg List.length exchanges
    rw [List.length_flatMap] at lengths
    have four : (run e events).exchanges.length = 4 := rfl
    simp only [four, List.length_cons, List.length_nil, List.map_const', List.sum_replicate_nat,
      List.length_range] at lengths
    omega
  apply same
  intro i small
  rw [attempts] at small
  exact List.getElem?_append_left small

end LineCalc.Terminal
