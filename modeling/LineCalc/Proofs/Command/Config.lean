import LineCalc.Command.Libraries

/-!
Where the settings of a session come from. A settings file that cannot be used is an error, whatever
the flags are. Otherwise each setting is the flag's, or else the file's, or else the default.
-/
namespace LineCalc.Command

open Settings

variable {read : Text → Except ReadError Text} {path? : Option Text} {w : Wording} {o : Options}

/-- What a settings text says: nothing if it is blank, and otherwise what is read from it. -/
inductive TextGives [Reader] (t : Text) : Wording → Prop
  | blank (blank : t.IsBlank) : TextGives t {}
  | words {w : Wording} (shown : ¬ t.IsBlank) (words : Reader.read t = .ok w) : TextGives t w

inductive FileFails [Reader] (read : Text → Except ReadError Text) :
    Option Text → SettingsError → Prop
  | unreadable {path : Text} {cause : ReadError} (fails : read path = .error cause) :
      FileFails read (some path) (.unreadable path cause)
  | malformed {path content reason : Text} (found : read path = .ok content)
      (shown : ¬ content.IsBlank) (refused : Reader.read content = .error reason) :
      FileFails read (some path) (@SettingsError.malformed reason)
  | noCapacity {path content : Text} {w : Wording} (found : read path = .ok content)
      (gives : TextGives content w) (zero : w.capacity? = some 0) :
      FileFails read (some path) .noCapacity

inductive FileGives [Reader] (read : Text → Except ReadError Text) : Option Text → Wording → Prop
  | none : FileGives read none {}
  | file {path content : Text} {w : Wording} (found : read path = .ok content)
      (gives : TextGives content w) (positive : w.capacity? ≠ some 0) :
      FileGives read (some path) w

theorem capacity_eq_zero_iff (w : Wording) : w.settings.capacity = 0 ↔ w.capacity? = some 0 := by
  rw [Wording.settings]
  cases w.capacity? <;> simp [History.defaultCapacity]

theorem ofYaml_of_gives [Reader] {t : Text} (gives : TextGives t w) :
    ofYaml t = if w.capacity? = some 0 then .error .noCapacity else .ok w.settings := by
  cases gives with
  | blank blank =>
    rw [ofYaml, if_pos blank]
    rfl
  | words shown words =>
    rw [ofYaml, if_neg shown, words]
    simp only [Settings.check, capacity_eq_zero_iff]

theorem fileSettings_of_fails [Reader] {e : SettingsError} (fails : FileFails read path? e) :
    Options.fileSettings read path? = .error (.settings e) := by
  cases fails with
  | unreadable fails => simp [Options.fileSettings, fails]
  | malformed found shown refused => simp [Options.fileSettings, found, ofYaml, shown, refused]
  | noCapacity found gives zero =>
    simp [Options.fileSettings, found, ofYaml_of_gives gives, zero]

theorem fileSettings_of_gives [Reader] (gives : FileGives read path? w) :
    Options.fileSettings read path? = .ok w.settings := by
  cases gives with
  | none => rfl
  | file found gives positive =>
    simp [Options.fileSettings, found, ofYaml_of_gives gives, positive]

theorem fails_or_gives [Reader] (read : Text → Except ReadError Text) (path? : Option Text) :
    (∃ e, FileFails read path? e) ∨ ∃ w, FileGives read path? w := by
  cases path? with
  | none => exact Or.inr ⟨_, .none⟩
  | some path =>
    cases found : read path with
    | error cause => exact Or.inl ⟨_, .unreadable found⟩
    | ok content =>
      by_cases blank : content.IsBlank
      · exact Or.inr ⟨_, .file found (.blank blank) (Option.some_ne_none _).symm⟩
      · cases words : Reader.read content with
        | error reason => exact Or.inl ⟨_, .malformed found blank words⟩
        | ok w =>
          by_cases zero : w.capacity? = some 0
          · exact Or.inl ⟨_, .noCapacity found (.words blank words) zero⟩
          · exact Or.inr ⟨w, .file found (.words blank words) zero⟩

structure FollowsLayers (o : Options) (w : Wording) (s : Settings) : Prop where
  positive : 1 ≤ s.capacity
  capacity : s.capacity = (o.historySize? <|> w.capacity?).getD 100
  unknowns : s.rules.unknowns = .lenient ↔ o.lenient = true ∨ w.unknowns? = some .lenient
  zeroDivision :
    s.rules.zeroDivision = .reject ↔ o.rejectZero = true ∨ w.zeroDivision? = some .reject

theorem positive_of_gives [Reader] (gives : FileGives read path? w) : 1 ≤ w.settings.capacity := by
  have remembers : w.capacity? ≠ some 0 := by
    cases gives with
    | none => simp
    | file found gives positive => exact positive
  exact Nat.one_le_iff_ne_zero.mpr (mt (capacity_eq_zero_iff w).mp remembers)

theorem followsLayers_overridden (positive : 1 ≤ w.settings.capacity)
    (remembers : o.historySize? ≠ some 0) : FollowsLayers o w (o.overridden w.settings) where
  positive := by
    cases given : o.historySize? with
    | none => simpa [Options.overridden, given] using positive
    | some n =>
      have nonzero : n ≠ 0 := fun zero => remembers (zero ▸ given)
      simpa [Options.overridden, given] using Nat.one_le_iff_ne_zero.mpr nonzero
  capacity := by
    rw [Options.overridden]
    cases o.historySize? <;> rfl
  unknowns := by
    cases given : o.lenient <;> cases said : w.unknowns? <;>
      simp [Options.overridden, given, Wording.settings, said]
  zeroDivision := by
    cases given : o.rejectZero <;> cases said : w.zeroDivision? <;>
      simp [Options.overridden, given, Wording.settings, said]

/-- A settings file that cannot be used is reported, whatever the flags are. With any other file, or
    none, a history size of zero is refused, and otherwise each setting follows its layers. -/
theorem config_of_layers [Reader] (read : Text → Except ReadError Text) (o : Options) :
    (∀ e, FileFails read o.settingsFile? e → o.config read = .error (.settings e)) ∧
    (∀ w, FileGives read o.settingsFile? w →
      (o.historySize? = some 0 → o.config read = .error Options.noHistory) ∧
      (o.historySize? ≠ some 0 → ∃ c, o.config read = .ok c ∧ FollowsLayers o w c.settings)) ∧
    ((∃ e, FileFails read o.settingsFile? e) ∨ ∃ w, FileGives read o.settingsFile? w) := by
  refine ⟨?_, ?_, fails_or_gives read o.settingsFile?⟩
  · intro e fails
    rw [Options.config, fileSettings_of_fails fails]
  · intro w gives
    rw [Options.config, fileSettings_of_gives gives]
    constructor
    · intro zero
      exact if_pos zero
    · intro remembers
      exact ⟨_, if_neg remembers, followsLayers_overridden (positive_of_gives gives) remembers⟩

theorem config_of_layers_partial :
    let read : Text → Except ReadError Text := fun _ => .ok "division_policy: reject".toList
    let o : Options := { settingsFile? := some "settings".toList, historySize? := some 4 }
    ∃ c, o.config read = .ok c ∧
      c.settings.capacity = 4 ∧ c.settings.rules = ⟨.strict, .reject⟩ := by
  intro read o
  have said : Reader.read "division_policy: reject".toList =
      .ok { zeroDivision? := some .reject } := rfl
  have gives : FileGives read o.settingsFile? { zeroDivision? := some .reject } :=
    .file rfl (.words (by decide) said) (by simp)
  obtain ⟨c, configured, follows⟩ := ((config_of_layers read o).2.1 _ gives).2 (by decide)
  have unknowns : c.settings.rules.unknowns = .strict := by
    cases found : c.settings.rules.unknowns with
    | strict => rfl
    | lenient => simpa [o] using follows.unknowns.mp found
  refine ⟨c, configured, follows.capacity, ?_⟩
  rw [← unknowns, ← follows.zeroDivision.mpr (Or.inr rfl)]

end LineCalc.Command
