import LineCalc.Command.Libraries
import LineCalc.Proofs.Command.Lines
import LineCalc.Proofs.Session

/-!
Dialogues over lines. A dialogue handles its lines one after the other until it is left, the
lines end, or one of them is no text. What it says are its replies, and its session is one of
which only the expressions and the clearings among these lines were asked.
-/
namespace LineCalc

namespace Text

theorem trimRight_eq_nil_iff {t : Text} : t.trimRight = [] ↔ t.IsBlank := by
  rw [trimRight, List.reverse_eq_nil_iff, List.dropWhile_eq_nil_iff, IsBlank, List.all_eq_true]
  simp only [List.mem_reverse]

theorem trim_eq_nil_iff {t : Text} : t.trim = [] ↔ t.IsBlank := by
  rw [trim, trimRight_eq_nil_iff]
  constructor
  · intro blank
    have nothing : t.trimLeft = [] := by
      by_contra some
      have head : isBlank (t.trimLeft.head some) = false := List.head_dropWhile_not isBlank some
      rw [List.all_eq_true.mp blank _ (List.head_mem some)] at head
      cases head
    exact List.all_eq_true.mpr (List.dropWhile_eq_nil_iff.mp nothing)
  · intro blank
    have nothing : t.trimLeft = [] := List.dropWhile_eq_nil_iff.mpr (List.all_eq_true.mp blank)
    rw [nothing]
    rfl

end Text

namespace Command

variable {colored : Bool} {s : Session} {t : Text} {ts : List Text} {lines : List (Option Text)}

/-- The name of a command stands behind a colon and ends at white space. -/
def commandName? (t : Text) : Option Text :=
  match t.trim with
  | ':' :: rest => some (rest.takeWhile fun c => ¬ isBlank c)
  | _ => none

def IsQuit (t : Text) : Prop :=
  commandName? t ∈ [some "quit".toList, some "q".toList, some "exit".toList]

/-- What a line asks of the session: a command asks for nothing or to clear it, any other line that
    is not blank to be submitted as it is. -/
def call? (t : Text) : Option Session.Call :=
  match commandName? t with
  | some name => if name = "clear".toList then some .clear else none
  | none => if t.IsBlank then none else some (.submit t)

def replies [Painter] (colored : Bool) (s : Session) : List Text → List Reply
  | [] => []
  | t :: ts => reply colored s t :: replies colored (reply colored s t).session ts

def sessionAfter [Painter] (colored : Bool) (s : Session) (ts : List Text) : Session :=
  ts.foldl (fun s t => (reply colored s t).session) s

def output (rs : List Reply) : Text := (rs.map Reply.said).flatten

/-- The lines that are handled, and the failure at the end: up to the first line that leaves the
    dialogue, and none from one on that is no text. -/
inductive Handles : List (Option Text) → List Text → Option Failure → Prop
  | finished {ts : List Text} (stays : ∀ t ∈ ts, ¬ IsQuit t) : Handles (ts.map some) ts none
  | left {ts : List Text} {q : Text} (stays : ∀ t ∈ ts, ¬ IsQuit t) (quits : IsQuit q)
      (rest : List (Option Text)) : Handles (ts.map some ++ some q :: rest) (ts ++ [q]) none
  | broken {ts : List Text} (stays : ∀ t ∈ ts, ¬ IsQuit t) (rest : List (Option Text)) :
      Handles (ts.map some ++ none :: rest) ts (some (.input .notText))

section Lines

theorem ofCommand_eq_quit_iff {rest : Text} :
    Line.ofCommand rest = .quit ↔
      rest.takeWhile (fun c => ¬ isBlank c) ∈ ["quit".toList, "q".toList, "exit".toList] := by
  rw [Line.ofCommand]
  generalize rest.takeWhile (fun c => ¬ isBlank c) = name
  simp only [List.mem_cons, List.not_mem_nil, or_false]
  constructor
  · intro line
    split_ifs at line with quits
    exact quits
  · intro quits
    rw [if_pos quits]

theorem ofCommand_eq_clear_iff {rest : Text} :
    Line.ofCommand rest = .clear ↔
      rest.takeWhile (fun c => ¬ isBlank c) = "clear".toList := by
  rw [Line.ofCommand]
  generalize rest.takeWhile (fun c => ¬ isBlank c) = name
  constructor
  · intro line
    split_ifs at line with _ _ _ clears
    exact clears
  · rintro rfl
    rfl

theorem ofCommand_ne_expression {rest u : Text} : Line.ofCommand rest ≠ .expression u := by
  intro line
  rw [Line.ofCommand] at line
  split_ifs at line

theorem ofText_of_blank (blank : t.IsBlank) : Line.ofText t = .blank := by
  rw [Line.ofText, Text.trim_eq_nil_iff.mpr blank]

theorem ofText_of_expression (shown : ¬ t.IsBlank) (noCommand : commandName? t = none) :
    Line.ofText t = .expression t := by
  rw [commandName?] at noCommand
  rw [Line.ofText]
  split
  · next nothing => exact absurd (Text.trim_eq_nil_iff.mp nothing) shown
  · next rest command => simp [command] at noCommand
  · rfl

theorem ofText_of_command {name : Text} (command : commandName? t = some name) :
    ∃ rest, Line.ofText t = Line.ofCommand rest ∧
      rest.takeWhile (fun c => ¬ isBlank c) = name := by
  rw [commandName?] at command
  split at command
  · next rest behind =>
    refine ⟨rest, ?_, Option.some.inj command⟩
    simp only [Line.ofText, behind]
  · cases command

theorem line_cases (t : Text) :
    (t.IsBlank ∧ commandName? t = none) ∨ (¬ t.IsBlank ∧ commandName? t = none) ∨
      ∃ name, commandName? t = some name := by
  by_cases blank : t.IsBlank
  · exact Or.inl ⟨blank, by rw [commandName?, Text.trim_eq_nil_iff.mpr blank]⟩
  · cases command : commandName? t with
    | none => exact Or.inr (Or.inl ⟨blank, rfl⟩)
    | some name => exact Or.inr (Or.inr ⟨name, rfl⟩)

theorem ofText_eq_quit_iff : Line.ofText t = .quit ↔ IsQuit t := by
  rw [IsQuit]
  rcases line_cases t with ⟨blank, noCommand⟩ | ⟨shown, noCommand⟩ | ⟨name, command⟩
  · simp [ofText_of_blank blank, noCommand]
  · simp [ofText_of_expression shown noCommand, noCommand]
  · obtain ⟨rest, line, rfl⟩ := ofText_of_command command
    rw [line, command, ofCommand_eq_quit_iff]
    simp only [List.mem_cons, Option.some.injEq, List.not_mem_nil]

def Line.call? : Line → Option Session.Call
  | .expression t => some (.submit t)
  | .clear => some .clear
  | .blank | .quit | .history | .tokens _ | .help | .unknown _ => none

theorem ofText_call? : (Line.ofText t).call? = Command.call? t := by
  rcases line_cases t with ⟨blank, noCommand⟩ | ⟨shown, noCommand⟩ | ⟨name, command⟩
  · simp only [ofText_of_blank blank, Command.call?, noCommand, if_pos blank, Line.call?]
  · simp only [ofText_of_expression shown noCommand, Command.call?, noCommand, if_neg shown,
      Line.call?]
  · obtain ⟨rest, line, named⟩ := ofText_of_command command
    simp only [line, Command.call?, command, ← named, ← ofCommand_eq_clear_iff]
    cases kind : Line.ofCommand rest with
    | expression u => exact absurd kind ofCommand_ne_expression
    | clear => rfl
    | blank | quit | history | tokens | help | unknown => rfl

theorem reply_quits_iff [Painter] : (reply colored s t).quits = true ↔ IsQuit t := by
  rw [← ofText_eq_quit_iff, reply]
  cases Line.ofText t <;> simp

theorem reply_session [Painter] : (reply colored s t).session = (s.run (call? t).toList).2 := by
  rw [← ofText_call?, reply]
  cases Line.ofText t <;> rfl

end Lines

section Runs

theorem sessionAfter_eq_run [Painter] (colored : Bool) (s : Session) (ts : List Text) :
    sessionAfter colored s ts = (s.run (ts.filterMap call?)).2 := by
  induction ts generalizing s with
  | nil => rfl
  | cons t ts ih =>
    have step : sessionAfter colored s (t :: ts) =
        ((s.run (call? t).toList).2.run (ts.filterMap call?)).2 := by
      rw [← reply_session, ← ih]
      rfl
    rw [step]
    cases asked : call? t with
    | none => rw [List.filterMap_cons_none asked]; rfl
    | some c => rw [List.filterMap_cons_some asked]; rfl

theorem talk_append [Painter] (colored : Bool) (s : Session)
    (stays : ∀ t ∈ ts, ¬ IsQuit t) (lines : List (Option Text)) :
    talk colored [] s (ts.map some ++ lines) =
      let rest := talk colored [] (sessionAfter colored s ts) lines
      { rest with said := output (replies colored s ts) ++ rest.said } := by
  induction ts generalizing s with
  | nil => rfl
  | cons t ts ih =>
    have goesOn : ¬ (reply colored s t).quits = true :=
      fun quits => stays t List.mem_cons_self (reply_quits_iff.mp quits)
    have behind := ih (reply colored s t).session
      fun u member => stays u (List.mem_cons_of_mem t member)
    rw [List.map_cons, List.cons_append, talk]
    simp only [if_neg goesOn, behind, sessionAfter, output, replies, List.foldl_cons,
      List.map_cons, List.flatten_cons, List.nil_append, List.append_assoc]

theorem replies_concat [Painter] (colored : Bool) (s : Session) (ts : List Text)
    (q : Text) :
    replies colored s (ts ++ [q]) =
      replies colored s ts ++ [reply colored (sessionAfter colored s ts) q] := by
  induction ts generalizing s with
  | nil => rfl
  | cons t ts ih => exact congrArg (reply colored s t :: ·) (ih _)

theorem sessionAfter_concat [Painter] (colored : Bool) (s : Session) (ts : List Text)
    (q : Text) :
    sessionAfter colored s (ts ++ [q]) =
      (reply colored (sessionAfter colored s ts) q).session := by
  rw [sessionAfter, List.foldl_concat, sessionAfter]

theorem talk_of_handles [Painter] (colored : Bool) (s : Session)
    {failure? : Option Failure} (handles : Handles lines ts failure?) :
    talk colored [] s lines =
      ⟨output (replies colored s ts), sessionAfter colored s ts, failure?⟩ := by
  cases handles with
  | finished stays =>
    have whole := talk_append colored s stays []
    rw [List.append_nil] at whole
    simp [whole, talk]
  | @left earlier q stays quits rest =>
    have leaves : (reply colored (sessionAfter colored s earlier) q).quits = true :=
      reply_quits_iff.mpr quits
    rw [talk_append colored s stays, talk]
    simp [leaves, replies_concat, sessionAfter_concat, output]
  | broken stays rest => simp [talk_append colored s stays, talk]

theorem handles_cons {failure? : Option Failure} (stays : ¬ IsQuit t)
    (handles : Handles lines ts failure?) : Handles (some t :: lines) (t :: ts) failure? := by
  cases handles with
  | finished later => exact .finished (List.forall_mem_cons.mpr ⟨stays, later⟩)
  | left later quits rest => exact .left (List.forall_mem_cons.mpr ⟨stays, later⟩) quits rest
  | broken later rest => exact .broken (List.forall_mem_cons.mpr ⟨stays, later⟩) rest

theorem exists_handles (lines : List (Option Text)) : ∃ ts failure?, Handles lines ts failure? := by
  induction lines with
  | nil => exact ⟨[], none, Handles.finished (List.forall_mem_nil _)⟩
  | cons line lines ih =>
    cases line with
    | none => exact ⟨[], _, Handles.broken (List.forall_mem_nil _) lines⟩
    | some t =>
      by_cases quits : IsQuit t
      · exact ⟨[t], _, Handles.left (List.forall_mem_nil _) quits lines⟩
      · obtain ⟨ts, failure?, handles⟩ := ih
        exact ⟨t :: ts, failure?, handles_cons quits handles⟩

theorem handles_of_beginning {failure? : Option Failure} {others : List (Option Text)}
    (handles : Handles lines ts failure?) (leaves : ∃ q ∈ ts, IsQuit q)
    (begins : ts.map some <+: others) : Handles others ts failure? := by
  obtain ⟨q, member, quits⟩ := leaves
  cases handles with
  | finished stays => exact absurd quits (stays q member)
  | broken stays rest => exact absurd quits (stays q member)
  | @left earlier last stays lastQuits rest =>
    obtain ⟨behind, rfl⟩ := begins
    rw [List.map_append, List.append_assoc]
    exact .left stays lastQuits behind

end Runs

def textLines (input : List UInt8) : List (Option Text) :=
  (linesOfPieces (input.splitOn 10)).map Text.ofBytes?

theorem dialogue_of_handles [Painter] {quiet : Bool} {input : List UInt8}
    {failure? : Option Failure} (handles : Handles (textLines input) ts failure?) :
    dialogue s colored quiet false input =
      ⟨output (replies colored s ts), sessionAfter colored s ts, failure?⟩ := by
  rw [dialogue, byteLines_eq]
  have talked := talk_of_handles colored s handles
  rw [textLines] at talked
  simp [prompt, greeting, talked]

/-- Whatever bytes a dialogue is given away from a terminal, it says what its lines are replied to,
    up to the one that leaves it or the one that is no text. Behind the one that leaves it nothing
    is read. Its session is one of which the expressions and the clearings among its lines were
    asked, and nothing else. -/
theorem dialogue_of_lines [Painter] (config : Config) (colored : Bool) (input : List UInt8) :
    let s := config.settings.session
    let talked (bytes : List UInt8) := dialogue s colored config.verbosity.isQuiet false bytes
    ∃ ts, Handles (textLines input) ts (talked input).failure? ∧
      (talked input).said = output (replies colored s ts) ∧
      (talked input).session = sessionAfter colored s ts ∧
      (talked input).session = (s.run (ts.filterMap call?)).2 ∧
      ((∃ q ∈ ts, IsQuit q) →
        ∀ others, ts.map some <+: textLines others → talked others = talked input) := by
  intro s talked
  obtain ⟨ts, failure?, handles⟩ := exists_handles (textLines input)
  have whole : talked input =
      ⟨output (replies colored s ts), sessionAfter colored s ts, failure?⟩ :=
    dialogue_of_handles handles
  refine ⟨ts, ?_, ?_, ?_, ?_, ?_⟩
  · rw [whole]
    exact handles
  · rw [whole]
  · rw [whole]
  · rw [whole]
    exact sessionAfter_eq_run colored s ts
  · intro leaves others begins
    rw [whole]
    exact dialogue_of_handles (handles_of_beginning handles leaves begins)

example :
    let input := ":clear\n \n:no thing\r\n :q 1\n".toUTF8.toList ++ [255, 10]
    let talked := dialogue (Settings.session {}) false true false input
    talked.said = "History cleared\nUnknown command ':no' (try :help)\n".toList ∧
      talked.failure? = none := by
  decide +kernel

end Command
end LineCalc
