import LineCalc.Command.Libraries

/-!
An expression as an argument of its own. The name of every flag begins with a letter, so a word
without letters begins with none, however many hyphens it starts with. Of what splits the arguments
four rules are used: a subcommand reads the words behind its name, at their end nothing is left to
read, a word that begins with no flag may be the expression, and so may any word behind two hyphens.
-/
namespace LineCalc.Command

variable {scope : Scope} {g : Given} {t : Text}

/-- The characters of arithmetic: digits, points, operators, parentheses and white space. -/
def isArithmetic (c : Char) : Bool := c.isDigit || "+-*/().".toList.contains c || isBlank c

def Scope.bareAction? (e : Text) : Scope → Option Action
  | .eval => some (.eval { expression := e })
  | .tokens => some (.tokens e .text)
  | .check => some (.check e)
  | .root | .repl | .screen => none

section Rules

/-- A flag is known by its name behind two hyphens, or by its letter behind one. -/
def BeginsWithFlag (scope : Scope) (t : Text) : Prop :=
  ∃ f : Flag, f.isKnown scope = true ∧
    ("--".toList ++ f.long <+: t ∨ ∃ c ∈ f.short?, ['-', c] <+: t)

def Given.Waits (g : Given) (scope : Scope) : Prop :=
  scope.takesExpression = true ∧ g.expression? = none

/-- How arguments are split, as far as they are no flags. An empty name in the environment is no
    settings file, so nothing is said about it. -/
structure ArgumentRules [Splitter] (read : Scope → Given → List Text → Except Stop Given) :
    Prop where
  subcommand : ∀ (environment? : Option Text) (scope : Scope) (words : List Text),
    environment? ≠ some [] → scope ∈ Scope.subcommands →
      Splitter.parse environment? (scope.name :: words) =
        (read scope {} words).bind fun g => Given.invocation {} g scope environment?
  finished : ∀ scope g, read scope g [] = .ok g
  hyphens : ∀ (scope : Scope) (g : Given) (t : Text) (words : List Text), g.Waits scope →
    t ≠ "--".toList → ¬ BeginsWithFlag scope t →
      read scope g (t :: words) = read scope { g with expression? := some t } words
  escaped : ∀ (scope : Scope) (g : Given) (t : Text), g.Waits scope →
    read scope g ["--".toList, t] = .ok { g with expression? := some t }

end Rules

section Letters

theorem isAlpha_range {c : Char} (letter : c.isAlpha = true) :
    (65 ≤ c.toNat ∧ c.toNat ≤ 90) ∨ (97 ≤ c.toNat ∧ c.toNat ≤ 122) := by
  rcases Bool.or_eq_true_iff.mp letter with upper | lower
  · exact Or.inl (of_decide_eq_true upper)
  · obtain ⟨low, high⟩ := Bool.and_eq_true_iff.mp lower
    exact Or.inr ⟨of_decide_eq_true low, of_decide_eq_true high⟩

theorem not_isAlpha_of_isArithmetic {c : Char} (arithmetic : isArithmetic c = true) :
    c.isAlpha = false := by
  cases letter : c.isAlpha with
  | false => rfl
  | true =>
    have range := isAlpha_range letter
    simp only [isArithmetic, Bool.or_eq_true] at arithmetic
    rcases arithmetic with (digit | sign) | blank
    · have high : c.toNat ≤ 57 := of_decide_eq_true (Bool.and_eq_true_iff.mp digit).2
      omega
    · simp at sign
      rcases sign with rfl | rfl | rfl | rfl | rfl | rfl | rfl <;> cases letter
    · simp only [isBlank, Bool.or_eq_true, Bool.and_eq_true, decide_eq_true_eq, beq_iff_eq] at blank
      omega

namespace Flag

theorem long_starts (f : Flag) : ∃ c ∈ f.long.head?, c.isAlpha = true := by
  cases f <;> exact ⟨_, rfl, rfl⟩

theorem isAlpha_of_short (f : Flag) : ∀ c ∈ f.short?, c.isAlpha = true := by
  cases f <;> simp [short?]

end Flag

theorem not_beginsWithFlag (silent : ∀ c ∈ t, c.isAlpha = false) : ¬ BeginsWithFlag scope t := by
  -- The first letter of the flag's name, or the flag's own letter, would be in the word.
  rintro ⟨f, _, long | ⟨c, short, begins⟩⟩
  · obtain ⟨c, first, letter⟩ := f.long_starts
    have member : c ∈ t := long.subset (List.mem_append_right _ (List.mem_of_mem_head? first))
    rw [silent c member] at letter
    cases letter
  · have member : c ∈ t := begins.subset (List.mem_cons_of_mem _ List.mem_cons_self)
    have letter := f.isAlpha_of_short c short
    rw [silent c member] at letter
    cases letter

end Letters

theorem waits_of_bareAction {action : Action} (found : scope.bareAction? t = some action) :
    scope ∈ Scope.subcommands ∧ Given.Waits {} scope := by
  cases scope with
  | eval | tokens | check => exact ⟨by decide, rfl, rfl⟩
  | root | repl | screen => cases found

theorem parse_expression [Splitter] {read : Scope → Given → List Text → Except Stop Given}
    (rules : ArgumentRules read) {environment? : Option Text} (named : environment? ≠ some [])
    {action : Action} (found : scope.bareAction? t = some action) {words : List Text}
    (taken : read scope {} words = .ok { expression? := some t }) :
    Splitter.parse environment? (scope.name :: words) =
      .ok ⟨action, { settingsFile? := environment? }⟩ := by
  have acts : Given.action? { expression? := some t } scope = some action := by
    cases scope with
    | eval | tokens | check => exact found
    | root | repl | screen => cases found
  have options : Given.options {} { expression? := some t } environment? =
      { settingsFile? := environment? } := by
    cases environment? <;> rfl
  rw [rules.subcommand environment? scope words named (waits_of_bareAction found).1, taken]
  simp only [Except.bind, Given.invocation, acts, options]

/-- An expression is read as such when it stands behind the subcommand alone, unless it is just the
    two hyphens, and when it stands behind two hyphens, whatever it is. All flags have their
    defaults; only the environment may name a settings file. -/
theorem expression_as_argument [Splitter] {read : Scope → Given → List Text → Except Stop Given}
    (rules : ArgumentRules read) (environment? : Option Text) (named : environment? ≠ some [])
    (scope : Scope) (t : Text) (action : Action) (found : scope.bareAction? t = some action) :
    (t.all isArithmetic = true → t ≠ "--".toList →
      Splitter.parse environment? [scope.name, t] =
        .ok ⟨action, { settingsFile? := environment? }⟩) ∧
    Splitter.parse environment? [scope.name, "--".toList, t] =
      .ok ⟨action, { settingsFile? := environment? }⟩ := by
  have waits := (waits_of_bareAction found).2
  refine ⟨?_, parse_expression rules named found (rules.escaped scope {} t waits)⟩
  intro arithmetic other
  have silent : ∀ c ∈ t, c.isAlpha = false := fun c member =>
    not_isAlpha_of_isArithmetic (List.all_eq_true.mp arithmetic c member)
  refine parse_expression rules named found ?_
  rw [rules.hyphens scope {} t [] waits other (not_beginsWithFlag silent), rules.finished]

section Splitting

theorem ofText_plain (other : t ≠ "--".toList) (noFlag : ¬ BeginsWithFlag scope t) :
    Word.ofText scope true t = .plain := by
  unfold Word.ofText
  split
  · exact absurd rfl other
  · next rest _ =>
    have unnamed : Flag.ofLong? scope (rest.takeWhile (· ≠ '=')) = none := by
      refine List.find?_eq_none.mpr fun f _ found => noFlag ⟨f, ?_⟩
      simp only [Bool.and_eq_true, decide_eq_true_eq] at found
      have begins : f.long <+: rest := found.2 ▸ List.takeWhile_prefix _
      exact ⟨found.1, Or.inl ((List.prefix_append_right_inj _).mpr begins)⟩
    rw [unnamed]
    rfl
  · next c rest _ _ =>
    have unnamed : Flag.ofShort? scope c = none := by
      refine List.find?_eq_none.mpr fun f _ found => noFlag ⟨f, ?_⟩
      simp only [Bool.and_eq_true, decide_eq_true_eq] at found
      exact ⟨found.1, Or.inr ⟨c, found.2, rest, rfl⟩⟩
    simp [unnamed]
  · rfl

theorem place_of_waits (waits : g.Waits scope) (t : Text) :
    g.place scope t = .ok { g with expression? := some t } := if_pos waits

theorem word_of_waits (waits : g.Waits scope) (plain : Word.ofText scope true t = .plain) :
    Reading.word { given := g } scope t = .ok { given := { g with expression? := some t } } := by
  have wants : g.wantsExpression scope = true := by
    rw [Given.wantsExpression, waits.1, waits.2]
    rfl
  simp [Reading.word, wants, plain, place_of_waits waits, Except.map]

theorem readRoot_name (member : scope ∈ Scope.subcommands) (words : List Text) :
    readRoot { given := {} } (scope.name :: words) =
      (readScope scope { given := {} } words).map fun g => ({}, scope, g) := by
  have named : Scope.ofName? scope.name = some scope := by
    revert member
    revert scope
    decide
  have other : scope.name ≠ "help".toList := by
    cases scope <;> decide
  rw [readRoot, if_neg (fun help => other help.2)]
  simp only [↓reduceIte, named]
  cases readScope scope { given := {} } words <;> rfl

theorem argumentRules_parse :
    ArgumentRules fun scope g words => readScope scope { given := g } words where
  subcommand environment? scope words named member := by
    change parse environment? (scope.name :: words) = _
    rw [parse, readRoot_name member]
    cases readScope scope { given := {} } words with
    | error stop => rfl
    | ok g =>
      have holds : environmentHolds {} g environment? = true := by
        rw [environmentHolds, decide_eq_true named, Bool.true_or]
      exact if_pos holds
  finished scope g := rfl
  hyphens scope g t words waits other noFlag := by
    rw [readScope, if_neg other, word_of_waits waits (ofText_plain other noFlag)]
  escaped scope g t waits := by
    rw [readScope, if_pos rfl]
    simp [placeAll, place_of_waits waits, Reading.isUnsettled]

end Splitting

theorem expression_as_argument_hyphens :
    Splitter.parse none ["eval".toList, "---(2)".toList] =
        .ok ⟨.eval { expression := "---(2)".toList }, {}⟩ ∧
      Splitter.parse none ["tokens".toList, "--".toList, "--lenient".toList] =
        .ok ⟨.tokens "--lenient".toList .text, {}⟩ := by
  have named : (none : Option Text) ≠ some [] := (Option.some_ne_none []).symm
  have bare := expression_as_argument argumentRules_parse none named .eval "---(2)".toList _ rfl
  have escaped := expression_as_argument argumentRules_parse none named .tokens
    "--lenient".toList _ rfl
  exact ⟨bare.1 rfl (by decide), escaped.2⟩

end LineCalc.Command
