import LineCalc.Proofs.Session.Threads
import LineCalc.Settings

/-!
The lock order. What is done under the lock, in the order in which it is done, explains the
shared history and all that is seen of it; each thread's part of it is its own program.
-/
namespace LineCalc.Shared

section Programs

variable (settings : Settings) (programs : List (List Request)) (schedule : List Nat)

theorem start_pending (i : Nat) :
    (start settings.session programs).pending i =
      (programs[i]?.getD []).filterMap (Request.locked? settings.rules) := by
  rw [State.pending, start, List.getElem?_map]
  cases programs[i]? <;> rfl

theorem start_work :
    (start settings.session programs).work =
      programs.flatten.filterMap (Request.locked? settings.rules) := by
  rw [State.work, start, List.flatMap_map, List.filterMap_flatten]
  rfl

theorem request_of_log {l : Locked}
    (member : l ∈ ((start settings.session programs).log schedule).map Prod.snd) :
    ∃ r ∈ programs.flatten, r.locked? settings.rules = some l := by
  have work := mem_work_of_mem_log member
  rw [start_work] at work
  exact List.mem_filterMap.mp work

theorem start_log_shown :
    ∀ e, .append e ∈ ((start settings.session programs).log schedule).map Prod.snd →
      ¬ e.expression.IsBlank := by
  intro e member
  obtain ⟨r, _, does⟩ := request_of_log settings programs schedule member
  exact not_isBlank_of_append does

theorem start_log_isClear (noClear : ∀ r ∈ programs.flatten, r ≠ .clear) :
    ∀ l ∈ ((start settings.session programs).log schedule).map Prod.snd, l.isClear = false := by
  intro l member
  obtain ⟨r, inside, does⟩ := request_of_log settings programs schedule member
  exact isClear_of_locked? does (noClear r inside)

theorem start_log_appended
    (finished : ((start settings.session programs).run schedule).IsFinished) :
    ((((start settings.session programs).log schedule).map Prod.snd).filterMap
      Locked.appended?).Perm (programs.flatten.filterMap (Request.added? settings.rules)) := by
  have all := run_work (start settings.session programs) schedule
  rw [work_of_finished finished, List.append_nil, start_work] at all
  have appended := (all.filterMap Locked.appended?).symm
  rw [List.filterMap_filterMap] at appended
  simpa only [locked?_appended?] using appended

/-- Nothing can block: for all programs there is a schedule that finishes every thread. -/
theorem inTurn_finishes (s : Session) (programs : List (List Request)) :
    ((start s programs).run (inTurn programs)).IsFinished := by
  apply run_finishes
  intro i
  rw [State.left, start, List.getElem?_map]
  cases found : programs[i]? with
  | none => exact Nat.zero_le _
  | some requests =>
    obtain ⟨inside, same⟩ := List.getElem?_eq_some_iff.mp found
    have turn : List.replicate (2 * requests.length) i ∈
        programs.mapIdx fun i requests => List.replicate (2 * requests.length) i :=
      List.mem_mapIdx.mpr ⟨i, inside, by rw [same]⟩
    have enough := (List.sublist_flatten_of_mem turn).count_le i
    rw [List.count_replicate_self] at enough
    exact enough

end Programs

/-- How the log of what is done under the lock explains a state that has been reached. -/
structure Explains (settings : Settings) (programs : List (List Request))
    (log : List (Nat × Locked)) (s : State) : Prop where
  serial : s.serial =
    (log.map Prod.snd).foldl Serial.act ⟨History.empty settings.capacity, []⟩
  entries : s.history.entries =
    (appendedSinceClear (log.map Prod.snd)).rtake (max settings.capacity 1)
  room : s.history.entries.length ≤ max settings.capacity 1 ∧
    ∀ snapshot ∈ s.seen, snapshot.length ≤ max settings.capacity 1
  part : ∀ i, ofThread i log <+:
    (programs[i]?.getD []).filterMap (Request.locked? settings.rules)
  whole : s.IsFinished → ∀ i, ofThread i log =
    (programs[i]?.getD []).filterMap (Request.locked? settings.rules)
  unordered : s.IsFinished → (∀ r ∈ programs.flatten, r ≠ .clear) →
    (programs.flatten.filterMap (Request.added? settings.rules)).length ≤
      max settings.capacity 1 →
    s.history.entries.Perm (programs.flatten.filterMap (Request.added? settings.rules))

/-- However the threads take turns, the shared history is that of the appends and clearings one
    after the other as they come to the lock, and each thread comes there as its program says. -/
theorem run_in_lock_order (settings : Settings) (programs : List (List Request))
    (schedule : List Nat) :
    Explains settings programs ((start settings.session programs).log schedule)
      ((start settings.session programs).run schedule) := by
  have serial := run_serial (start settings.session programs) schedule
  have pending := run_pending (start settings.session programs) schedule
  have shown := start_log_shown settings programs schedule
  have noClear := start_log_isClear settings programs schedule
  have appended := start_log_appended settings programs schedule
  generalize (start settings.session programs).log schedule = log at *
  generalize (start settings.session programs).run schedule = s at *
  have entries : s.history.entries =
      (appendedSinceClear (log.map Prod.snd)).rtake (max settings.capacity 1) := by
    rw [← entries_of_serial shown]
    exact congrArg (fun h => h.history.entries) serial
  have empty : Serial.Fits ⟨History.empty settings.capacity, []⟩ (max settings.capacity 1) :=
    ⟨History.empty_capacity_pos _, rfl, Nat.zero_le _, by simp⟩
  refine ⟨serial, entries, ?_, ?_, ?_, ?_⟩
  · have reached : s.serial.Fits (max settings.capacity 1) := by
      rw [serial]
      exact foldl_act_fits empty _
    exact ⟨reached.entries, reached.seen⟩
  · intro i
    rw [← start_pending, pending]
    exact List.prefix_append _ _
  · intro finished i
    rw [← start_pending, pending, pending_of_finished finished, List.append_nil]
  · intro finished clearless few
    have same := appended finished
    rw [← same.length_eq] at few
    rw [entries, appendedSinceClear_of_noClear (noClear clearless),
      History.rtake_of_length_le few]
    exact same

theorem run_in_lock_order_interleaved :
    let s := start (Settings.session ⟨2, {}⟩)
      [[.submit "1".toList, .submit "2+".toList], [.submit "2".toList, .look]]
    (s.run [0, 1, 1, 0, 0, 1, 0, 1]).IsFinished ∧
      ofThread 0 (s.log [0, 1, 1, 0, 0, 1, 0, 1]) = [.append ⟨"1".toList, 1⟩] ∧
      (s.run [0, 1, 1, 0, 0, 1, 0, 1]).history.entries.Perm
        [⟨"1".toList, 1⟩, ⟨"2".toList, 2⟩] := by
  have one : Rules.evaluate {} "1".toList = .ok 1 := by
    have cut : tokenize "1".toList = [⟨['1'], .number, 0⟩] := (tokenize_eq_steps _).trans rfl
    rw [Rules.evaluate, cut]
    rfl
  have two : Rules.evaluate {} "2".toList = .ok 2 := by
    have cut : tokenize "2".toList = [⟨['2'], .number, 0⟩] := (tokenize_eq_steps _).trans rfl
    rw [Rules.evaluate, cut]
    rfl
  have unfinished : Rules.evaluate {} "2+".toList = .error (.missingOperand '+' 1) := by
    have cut : tokenize "2+".toList = [⟨['2'], .number, 0⟩, ⟨['+'], .operator, 1⟩] :=
      (tokenize_eq_steps _).trans rfl
    rw [Rules.evaluate, cut]
    rfl
  have explained := run_in_lock_order ⟨2, {}⟩
    [[.submit "1".toList, .submit "2+".toList], [.submit "2".toList, .look]]
    [0, 1, 1, 0, 0, 1, 0, 1]
  have finished : ((start (Settings.session ⟨2, {}⟩)
      [[.submit "1".toList, .submit "2+".toList], [.submit "2".toList, .look]]).run
      [0, 1, 1, 0, 0, 1, 0, 1]).IsFinished := by
    apply run_finishes
    rintro (_ | _ | i)
    · decide
    · decide
    · exact Nat.zero_le _
  have added : List.filterMap (Request.added? {}) [.submit "1".toList, .submit "2+".toList,
      .submit "2".toList, .look] = [⟨"1".toList, 1⟩, ⟨"2".toList, 2⟩] := by
    simp only [List.filterMap_cons, Request.added?, Rules.success?, one, two, unfinished]
    rfl
  have first : List.filterMap (Request.locked? {}) [.submit "1".toList, .submit "2+".toList] =
      [.append ⟨"1".toList, 1⟩] := by
    simp only [List.filterMap_cons, Request.locked?, Rules.success?, one, unfinished]
    rfl
  refine ⟨finished, (explained.whole finished 0).trans first, ?_⟩
  have few : _ ≤ 2 := (congrArg List.length added).le
  exact (explained.unordered finished (by simp) few).trans (.of_eq added)

end LineCalc.Shared
