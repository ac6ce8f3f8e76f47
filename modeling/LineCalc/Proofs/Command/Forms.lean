import LineCalc.Command.Program
import LineCalc.Proofs.Command.Caret
import LineCalc.Proofs.Json.Scalars

/-!
The three forms in which a value is asked for: raw, as text and as a JSON report. They succeed or
fail together, and what one of them says of the value or the fault, the others say too.
-/
namespace LineCalc

namespace Json

def member? (name : Text) : Json → Option Json
  | .object members => members.lookup name
  | .null | .natural _ | .number _ | .text _ | .array _ => none

end Json

namespace Command

def firstLine (t : Text) : Text := t.takeWhile (· ≠ '\n')

theorem firstLine_line {t : Text} (single : '\n' ∉ t) (rest : Text) :
    firstLine (line t ++ rest) = t := by
  rw [firstLine, line, List.append_assoc, List.singleton_append]
  apply takeWhile_run
  · intro c member
    simpa using fun feed : c = '\n' => single (feed ▸ member)
  · simp

/-- The effects of one evaluation in its three forms, without colours, and the report that is
    written as JSON. -/
structure Forms where
  raw : Effect
  text : Effect
  json : Effect
  report : Json

namespace Forms

def EndWith (f : Forms) (failure? : Option Failure) : Prop :=
  f.raw.failure? = failure? ∧ f.text.failure? = failure? ∧ f.json.failure? = failure?

def reports (f : Forms) (name : String) : Option Json := f.report.member? name.toList

structure TellValue (f : Forms) (value : Float) : Prop where
  ending : f.EndWith none
  raw : f.raw.out = line (Decimal.display value)
  text : firstLine f.text.out = "Result: ".toList ++ Decimal.display value
  display : f.reports "display" = some (.text (Decimal.display value))
  message : f.reports "message" = some (.text ("Result: ".toList ++ Decimal.display value))
  error : f.reports "error" = some .null
  position : f.reports "position" = some .null
  value : ∃ written, f.reports "value" = some written ∧
    written = (if isFinite value then .number value else .null) ∧
    ∀ t, Json.TextOf written t → (t = "null".toList ↔ isFinite value = false)

structure TellFault (f : Forms) (expression table : Text) (e : CalcError) : Prop where
  ending : f.EndWith (some (.calculation e))
  raw : f.raw.out = []
  text : firstLine f.text.out = e.message
  error : f.reports "error" = some (.text e.message)
  message : f.reports "message" = some (.text e.message)
  display : f.reports "display" = some .null
  value : f.reports "value" = some .null
  caret : (∃ p, f.reports "position" = some (.natural p)) ↔
    ∃ column, f.text.out = line e.message ++ line ("  ".toList ++ expression) ++
      line ("  ".toList ++ Text.spaces column ++ ['^']) ++ table
  noCaret : f.reports "position" = some .null ↔ f.text.out = line e.message ++ table

structure TellPrompt (f : Forms) : Prop where
  ending : f.EndWith none
  raw : f.raw.out = []
  text : firstLine f.text.out = Answer.prompt
  message : f.reports "message" = some (.text Answer.prompt)
  value : f.reports "value" = some .null
  display : f.reports "display" = some .null
  error : f.reports "error" = some .null
  position : f.reports "position" = some .null

end Forms

/-- The forms of one expression. The raw form is the same whatever format is asked for. -/
def forms [Json.Writer] [Painter] (config : Config) (s : Surroundings) (expression : Text)
    (format : Format) (withTokens : Bool) : Forms where
  raw := perform config s false (.eval ⟨expression, true, format, withTokens⟩)
  text := perform config s false (.eval ⟨expression, false, .text, withTokens⟩)
  json := perform config s false (.eval ⟨expression, false, .json, withTokens⟩)
  report := (Answer.ofText config.settings.rules expression).report withTokens

section Answers

variable {t : Text} {e : CalcError} {a : Answer}

def formsOf [Json.Writer] [Painter] (a : Answer) (withTokens : Bool) : Forms where
  raw := { rawEffect false a with failure? := a.error?.map .calculation }
  text := { out := textOutput false withTokens a, failure? := a.error?.map .calculation }
  json :=
    { out := line (Json.Writer.indented (a.report withTokens))
      failure? := a.error?.map .calculation }
  report := a.report withTokens

theorem paintedMessage_plain [Painter] (a : Answer) : paintedMessage false a = a.message := by
  rw [paintedMessage]
  split <;> rfl

theorem firstLine_textOutput [Painter] (a : Answer) (single : '\n' ∉ a.message)
    (withTokens : Bool) :
    firstLine (textOutput false withTokens a) = a.message := by
  rw [textOutput, paintedMessage_plain, List.append_assoc]
  exact firstLine_line single _

theorem tellPrompt [Json.Writer] [Painter] (t : Text) (ts : List Token) (withTokens : Bool) :
    (formsOf ⟨t, ts, none⟩ withTokens).TellPrompt where
  ending := ⟨rfl, rfl, rfl⟩
  raw := rfl
  text := by
    have single : '\n' ∉ Answer.prompt := by decide
    exact firstLine_textOutput ⟨t, ts, none⟩ single withTokens
  message := rfl
  value := rfl
  display := rfl
  error := rfl
  position := rfl

theorem textOf_value_iff (value : Float) {t : Text}
    (written : Json.TextOf (if isFinite value then .number value else .null) t) :
    t = "null".toList ↔ isFinite value = false := by
  cases finite : isFinite value with
  | true =>
    rw [if_pos finite] at written
    cases written with
    | missing infinite => simp [finite] at infinite
    | number _ written _ =>
      obtain ⟨c, more, rfl, head⟩ := Json.numeralText_head written
      have other : c ≠ 'n' := Json.ne_of_head head (by decide)
      simp [other]
  | false =>
    rw [if_neg (by simp [finite])] at written
    cases written
    simp

theorem tellValue [Json.Writer] [Painter] (t : Text) (ts : List Token) (value : Float)
    (withTokens : Bool) :
    (formsOf ⟨t, ts, some (.ok value)⟩ withTokens).TellValue value where
  ending := ⟨rfl, rfl, rfl⟩
  raw := rfl
  text := by
    have single : '\n' ∉ "Result: ".toList ++ Decimal.display value :=
      feed_not_mem_append (by decide) (Decimal.feed_not_mem_display value)
    exact firstLine_textOutput ⟨t, ts, some (.ok value)⟩ single withTokens
  display := rfl
  message := rfl
  error := rfl
  position := rfl
  value := by
    have reported : Json.ofOption .number ((some value).filter isFinite) =
        if isFinite value then .number value else .null := by
      rw [Option.filter_some]
      split <;> rfl
    exact ⟨_, congrArg some reported, rfl, fun t => textOf_value_iff value⟩

theorem line_ne_nil (t : Text) : line t ≠ [] := List.concat_ne_nil '\n' t

theorem inserted_ne {l x r : Text} (some : x ≠ []) : l ++ x ++ r ≠ l ++ r := by
  intro same
  have lengths := congrArg List.length same
  have longer := List.length_pos_of_ne_nil some
  simp only [List.length_append] at lengths
  omega

theorem caretLines_ne (said t table : Text) (column : Nat) :
    line said ++ line ("  ".toList ++ t) ++
      line ("  ".toList ++ Text.spaces column ++ ['^']) ++ table ≠ line said ++ table := by
  rw [List.append_assoc (line said)]
  exact inserted_ne (List.append_ne_nil_of_left_ne_nil (line_ne_nil _) _)

theorem place_and_caret [Json.Writer] [Painter] {withTokens : Bool}
    (inside : ∀ p, e.position = some p → ∃ caret, caret? t p = some caret) :
    let f := formsOf ⟨t, tokenize t, some (.error e)⟩ withTokens
    (∃ p column, f.reports "position" = some (.natural p) ∧
      f.text.out = line e.message ++ line ("  ".toList ++ t) ++
        line ("  ".toList ++ Text.spaces column ++ ['^']) ++ tableOutput withTokens t) ∨
    (f.reports "position" = some .null ∧
      f.text.out = line e.message ++ tableOutput withTokens t) := by
  intro f
  have reported : f.reports "position" = some (Json.ofOption .natural e.position) := rfl
  have printed : f.text.out =
      line e.message ++ lineIfAny (e.position.bind (caret? t)) ++ tableOutput withTokens t := rfl
  rw [reported, printed]
  cases place : e.position with
  | none =>
    right
    exact ⟨rfl, by rw [Option.bind_none, lineIfAny, List.append_nil]⟩
  | some p =>
    obtain ⟨caret, found⟩ := inside p place
    left
    refine ⟨p, (t.cut p).1.length, rfl, ?_⟩
    rw [Option.bind_some, found, lineIfAny, line_caret found, caretLine,
      List.append_assoc (line e.message) (line _)]

theorem tellFault [Json.Writer] [Painter] (t : Text) {e : CalcError} (withTokens : Bool)
    (single : '\n' ∉ e.message)
    (inside : ∀ p, e.position = some p → ∃ caret, caret? t p = some caret) :
    (formsOf ⟨t, tokenize t, some (.error e)⟩ withTokens).TellFault t
      (tableOutput withTokens t) e where
  ending := ⟨rfl, rfl, rfl⟩
  raw := rfl
  text := firstLine_textOutput ⟨t, tokenize t, some (.error e)⟩ single withTokens
  error := rfl
  message := rfl
  display := rfl
  value := rfl
  caret := by
    rcases place_and_caret inside with ⟨p, column, reported, printed⟩ | ⟨reported, printed⟩
    · exact ⟨fun _ => ⟨column, printed⟩, fun _ => ⟨p, reported⟩⟩
    · constructor
      · rintro ⟨p, same⟩
        cases reported.symm.trans same
      · rintro ⟨column, same⟩
        exact absurd (same.symm.trans printed) (caretLines_ne _ _ _ _)
  noCaret := by
    rcases place_and_caret inside with ⟨p, column, reported, printed⟩ | ⟨reported, printed⟩
    · constructor
      · intro same
        cases reported.symm.trans same
      · intro same
        exact absurd (printed.symm.trans same) (caretLines_ne _ _ _ _)
    · exact ⟨fun _ => printed, fun _ => reported⟩

end Answers

/-- Without colours the forms of an expression agree. Each of them succeeds for a blank text, which
    is prompted for, and for a value, and each fails with the same fault. What the first line of
    the text says is the message of the report; the report has the displayed value that the raw
    form writes, and a place for a fault if and only if the text has a caret. -/
theorem forms_agree [Json.Writer] [Painter] (config : Config) (s : Surroundings)
    (expression : Text) (format : Format) (withTokens : Bool) :
    let f := forms config s expression format withTokens
    let rules := config.settings.rules
    f.json.out = line (Json.Writer.indented f.report) ∧
      (expression.IsBlank → f.TellPrompt) ∧
      (∀ value, rules.evaluate expression = .ok value → f.TellValue value) ∧
      (∀ e, ¬ expression.IsBlank → rules.evaluate expression = .error e →
        f.TellFault expression (tableOutput withTokens expression) e) := by
  intro f rules
  have same : f = formsOf (Answer.ofText rules expression) withTokens := rfl
  rw [same]
  refine ⟨rfl, ?_, ?_, ?_⟩
  · intro blank
    rw [Answer.ofText_eq (Answer.outcome?_of_blank blank)]
    exact tellPrompt _ _ _
  · intro value evaluated
    rw [Answer.ofText_eq (Answer.outcome?_of_value evaluated)]
    exact tellValue _ _ _ _
  · intro e shown failed
    rw [Answer.ofText_eq (Answer.outcome?_of_error shown failed)]
    exact tellFault expression withTokens (feed_not_mem_of_evaluate failed)
      (caret_of_position failed)

theorem forms_agree_unknown :
    let f := forms ⟨.normal, .never, {}⟩ { read := fun _ => .error .missing } "2é+ÿ".toList .text
      false
    let fault := CalcError.unknownCharacter ['é'] 1
    f.EndWith (some (.calculation fault)) ∧ f.reports "position" = some (.natural 1) ∧
      ∃ column, f.text.out = line fault.message ++ line ("  ".toList ++ "2é+ÿ".toList) ++
        line ("  ".toList ++ Text.spaces column ++ ['^']) := by
  intro f fault
  have failed : Rules.evaluate {} "2é+ÿ".toList = .error fault := by decide +kernel
  have shown : ¬ Text.IsBlank "2é+ÿ".toList := by decide
  obtain ⟨_, _, _, tells⟩ := forms_agree ⟨.normal, .never, {}⟩
    { read := fun _ => .error .missing } "2é+ÿ".toList .text false
  have told := tells fault shown failed
  have place : f.reports "position" = some (.natural 1) := by
    change (Answer.report (Answer.ofText {} _) false).member? _ = _
    rw [Answer.ofText_eq (Answer.outcome?_of_error shown failed)]
    rfl
  obtain ⟨column, out⟩ := told.caret.mp ⟨1, place⟩
  rw [tableOutput, if_neg Bool.false_ne_true, List.append_nil] at out
  exact ⟨told.ending, place, column, out⟩

end Command
end LineCalc
