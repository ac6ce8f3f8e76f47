import LineCalc.Command.Program
import LineCalc.Proofs.Command.Dialogue
import LineCalc.Proofs.Text.Bytes
import LineCalc.Proofs.Token.Table

/-!
The commands that show a table of tokens: one of the program, and one of a dialogue. Both say the
table of the expression and nothing else.
-/
namespace LineCalc

namespace Text

variable {s t : Text}

theorem trim_sides (trimmed : t.trim = t) : t.trimLeft = t ∧ t.trimRight = t := by
  have shorter : t.trim.length ≤ t.trimLeft.length := by
    rw [trim, trimRight, List.length_reverse]
    exact (List.dropWhile_suffix _).length_le.trans_eq List.length_reverse
  rw [trimmed] at shorter
  have left : t.trimLeft = t := (List.dropWhile_suffix _).eq_of_length_le shorter
  rw [trim, left] at trimmed
  exact ⟨left, trimmed⟩

theorem last_of_trimRight (kept : t.trimRight = t) : ∀ c ∈ t.getLast?, isBlank c = false := by
  rw [← kept, trimRight, List.getLast?_reverse]
  exact head_dropWhile isBlank t.reverse

theorem trimRight_append (kept : t.trimRight = t) (some : t ≠ []) :
    (s ++ t).trimRight = s ++ t := by
  have same : t.reverse.dropWhile isBlank = t.reverse := List.reverse_eq_iff.mp kept
  rw [trimRight, List.reverse_append, List.dropWhile_append, same, if_neg (by simpa using some),
    List.reverse_append, List.reverse_reverse, List.reverse_reverse]

theorem trim_append_of_blank (blank : s.IsBlank) (t : Text) : (s ++ t).trim = t.trim := by
  rw [trim, trimLeft_append_of_blank blank, trim]

end Text

namespace Command

section Tables

theorem line_joinLines {lines : List Text} (some : lines ≠ []) :
    line (Text.joinLines lines) = (lines.map line).flatten := by
  induction lines using Text.joinLines.induct with
  | case1 => exact absurd rfl some
  | case2 l => simp [Text.joinLines]
  | case3 l more nonempty ih =>
    rw [Text.joinLines.eq_3 _ _ nonempty, List.map_cons, List.flatten_cons, ← ih nonempty]
    simp [line]

theorem tokens_text [Json.Writer] [Painter] (e : Text) :
    tokens false e .text = { out := line (tokenTable (tokenize e)) } := by
  rw [tokenTable, line_joinLines (tableLines_ne_nil _)]
  rfl

end Tables

section Dialogues

variable {e : Text}

theorem ofCommand_of_name {rest : Text}
    (named : rest.takeWhile (fun c => ¬ isBlank c) = "tokens".toList) :
    Line.ofCommand rest = .tokens (Text.trim (rest.dropWhile fun c => ¬ isBlank c)) := by
  rw [Line.ofCommand]
  simp only [named]
  rfl

theorem ofText_tokens (trimmed : e.trim = e) :
    Line.ofText (":tokens ".toList ++ e) = .tokens e := by
  by_cases nothing : e = []
  · rw [nothing]
    rfl
  · have whole : Text.trim (":tokens ".toList ++ e) = ':' :: ("tokens".toList ++ ' ' :: e) :=
      Text.trimRight_append (s := ":tokens ".toList) (Text.trim_sides trimmed).2 nothing
    have letters : ∀ c ∈ "tokens".toList, decide (¬ isBlank c) = true :=
      List.all_eq_true.mp rfl
    have stop : ∀ c ∈ (' ' :: e).head?, decide (¬ isBlank c) = false := by simp [isBlank]
    have blank : Text.IsBlank [' '] := rfl
    have argument : Text.trim (' ' :: e) = e := (Text.trim_append_of_blank blank e).trans trimmed
    rw [Line.ofText, whole]
    refine (ofCommand_of_name (takeWhile_run letters stop)).trans ?_
    rw [dropWhile_run letters stop, argument]

theorem reply_tokens [Painter] (colored : Bool) (s : Session) (trimmed : e.trim = e) :
    reply colored s (":tokens ".toList ++ e) = ⟨line (tokenTable (tokenize e)), s, false⟩ := by
  rw [reply, ofText_tokens trimmed]

theorem textLines_bytes {t : Text} (single : '\n' ∉ t) (last : t.getLast? ≠ some '\r') :
    textLines (Text.bytes (t ++ ['\n'])) = [some t] := by
  have noFeed : (10 : UInt8) ∉ t.bytes :=
    mt (Text.mem_bytes_iff (c := '\n') (by decide) (by decide) t).mp single
  have noReturn : t.bytes.getLast? ≠ some 13 :=
    mt (Text.getLast?_bytes_iff (c := '\r') (by decide) (by decide) t).mp last
  have split : (Text.bytes (t ++ ['\n'])).splitOn 10 = [t.bytes, []] := by
    rw [Text.bytes_append]
    exact List.splitOn_append_cons_self_of_not_mem noFeed []
  rw [textLines, split, linesOfPieces_cons (List.cons_ne_nil _ _), ended, if_neg noReturn]
  simp [linesOfPieces, Text.ofBytes?_bytes]

theorem dialogue_tokens [Painter] (colored quiet : Bool) (s : Session)
    (trimmed : e.trim = e) (single : '\n' ∉ e) :
    dialogue s colored quiet false (Text.bytes (":tokens ".toList ++ e ++ ['\n'])) =
      ⟨line (tokenTable (tokenize e)), s, none⟩ := by
  have stays : ¬ IsQuit (":tokens ".toList ++ e) := by
    rw [← ofText_eq_quit_iff, ofText_tokens trimmed]
    exact Line.noConfusion
  have last : (":tokens ".toList ++ e).getLast? ≠ some '\r' := by
    intro last
    by_cases nothing : e = []
    · rw [nothing] at last
      cases last
    · rw [List.getLast?_append_of_ne_nil _ nothing] at last
      cases Text.last_of_trimRight (Text.trim_sides trimmed).2 _ last
  have handles : Handles [some (":tokens ".toList ++ e)] [":tokens ".toList ++ e] none :=
    .finished (List.forall_mem_singleton.mpr stays)
  rw [← textLines_bytes (List.not_mem_append (by decide) single) last] at handles
  rw [dialogue_of_handles handles]
  simp only [output, replies, sessionAfter, List.foldl_cons, List.foldl_nil, List.map_cons,
    List.map_nil, reply_tokens colored s trimmed, List.flatten_cons, List.flatten_nil,
    List.append_nil]

end Dialogues

/-- The table of any tokens is its heading and one line for each token, in three columns that start
    at the same places in all lines. No other tokens have this table, so what is shown of an
    expression shows all its tokens: the program, if it does not use colours, and a dialogue write
    the table and a line feed, and nothing else. -/
theorem table_of_tokens [Splitter] [Settings.Reader] [Json.Writer] [Painter] :
    (∀ ts : List Token, ∃ kindColumn startColumn,
      List.Forall₂ (Aligned kindColumn startColumn) ((tokenTable ts).splitOn '\n')
        (tableHeading :: ts.map Token.cells)) ∧
    (∀ ts us : List Token, tokenTable ts = tokenTable us → ts = us) ∧
    (∀ (s : Surroundings) (args : List Text) (config : Config) (e : Text),
      let job : Job := ⟨config, .tokens e .text⟩
      Job.ofArguments s args = .ok job → job.isColored s = false →
        run s args = { code := 0, out := line (tokenTable (tokenize e)) }) ∧
    ∀ (s : Session) (colored : Bool) (e : Text), e.trim = e →
      let said := line (tokenTable (tokenize e))
      reply colored s (":tokens ".toList ++ e) = ⟨said, s, false⟩ ∧
      ('\n' ∉ e → ∀ quiet,
        dialogue s colored quiet false (Text.bytes (":tokens ".toList ++ e ++ ['\n'])) =
          ⟨said, s, none⟩) := by
  refine ⟨?_, fun ts us same => tokenTable_injective same, ?_, ?_⟩
  · intro ts
    rw [splitOn_tokenTable]
    exact aligned_tableLines ts
  · intro s args config e job parsed plain
    have performed : perform job.config s false job.action =
        { out := line (tokenTable (tokenize e)) } := tokens_text e
    rw [run, parsed]
    simp only [Job.ending, plain, performed, finish]
  · intro s colored e trimmed said
    exact ⟨reply_tokens colored s trimmed,
      fun single quiet => dialogue_tokens colored quiet s trimmed single⟩

theorem table_of_tokens_quote :
    let s : Surroundings := { read := fun _ => .error .missing }
    let out := "Token  Type        Index
\"2\"    number      0
\"\\\"\"   identifier  1
".toList
    (run s ["tokens".toList, ['2', '"']]).out = out ∧
      (dialogue (Settings.session {}) true false false (Text.bytes ":tokens 2\"\n".toList)).said =
        out := by
  intro s out
  have cut : tokenize ['2', '"'] = [⟨['2'], .number, 0⟩, ⟨['"'], .unknown, 1⟩] :=
    (tokenize_eq_steps _).trans rfl
  have table : line (tokenTable (tokenize ['2', '"'])) = out := by
    rw [cut]
    decide +kernel
  obtain ⟨_, _, shows, replies⟩ := table_of_tokens
  have parsed : Job.ofArguments s ["tokens".toList, ['2', '"']] =
      .ok ⟨⟨.normal, .auto, {}⟩, .tokens ['2', '"'] .text⟩ := rfl
  refine ⟨?_, ?_⟩
  · rw [shows s _ _ _ parsed rfl]
    exact table
  · have talked := (replies (Settings.session {}) true ['2', '"'] rfl).2 (by decide) false
    rw [← table]
    exact congrArg Dialogue.said talked

end Command
end LineCalc
