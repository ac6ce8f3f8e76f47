import LineCalc.Proofs.Json.Layout
import LineCalc.Proofs.Json.Written
import LineCalc.Proofs.Token.Table

/-!
Histories and tokens from their JSON texts. A reader of JSON that rounds numbers to the nearest one
gets back the entries of a history and the tokens of an expression, whichever JSON texts of them
are written.
-/
namespace LineCalc

namespace Json

theorem readings_eq_map (items : List Json) : readings items = items.map reading := by
  induction items with
  | nil => rw [readings, List.map_nil]
  | cons item more ih => rw [readings, ih, List.map_cons]

theorem reading_entry (e : Entry) :
    e.json.reading = .object [("expression".toList, .text e.expression),
      ("result".toList, if isFinite e.result then .number e.result else .null)] := by
  simp only [Entry.json, reading, memberReadings]

theorem reading_token (t : Token) :
    (ofToken t).reading = .object [("value".toList, .text t.text),
      ("kind".toList, .text t.kind.label), ("position".toList, .integer t.start)] := by
  simp only [ofToken, reading, memberReadings]

namespace Value

def member? (v : Value) (name : String) : Option Value :=
  match v with
  | .object members => members.lookup name.toList
  | _ => none

end Value

end Json

open Json

section Tokens

def Kind.ofLabel? (label : Text) : Option Kind :=
  [.number, .operator, .blank, .unknown].find? fun k : Kind => k.label = label

theorem Kind.ofLabel?_label (k : Kind) : Kind.ofLabel? k.label = some k := by
  cases k <;> decide

def Token.ofValue? (v : Value) : Option Token :=
  match v.member? "value", v.member? "kind", v.member? "position" with
  | some (.text t), some (.text label), some (.integer (.ofNat start)) =>
    (Kind.ofLabel? label).map fun k => ⟨t, k, start⟩
  | _, _, _ => none

def Token.listOfValue? : Value → Option (List Token)
  | .array items => items.mapM Token.ofValue?
  | _ => none

theorem Token.ofValue?_reading (t : Token) : Token.ofValue? (ofToken t).reading = some t := by
  have kind := Kind.ofLabel?_label t.kind
  rw [reading_token]
  change (Kind.ofLabel? t.kind.label).map (fun k => (⟨t.text, k, t.start⟩ : Token)) = some t
  rw [kind, Option.map_some]

theorem Token.listOfValue?_reading (ts : List Token) :
    Token.listOfValue? (ofTokens ts).reading = some ts := by
  rw [ofTokens, reading, readings_eq_map, List.map_map, Token.listOfValue?]
  induction ts with
  | nil => rfl
  | cons t ts ih =>
    rw [List.map_cons, List.mapM_cons, ih, Function.comp_apply, Token.ofValue?_reading]
    rfl

end Tokens

/-- The JSON text of a history is read as an array of its entries, each with its expression and its
    result: the very same number, or null for one that is not finite. The JSON text that is written
    for an expression is read as an array of its tokens. -/
theorem read_from_json [Writer] [Command.Painter] (writer : IsWriter) :
    (∀ h : History, read? h.jsonText = some (.array (h.entries.map fun e =>
      .object [("expression".toList, .text e.expression),
        ("result".toList, if isFinite e.result then .number e.result else .null)]))) ∧
    ∀ (config : Command.Config) (s : Command.Surroundings) (colored : Bool) (expression : Text),
      let out := (Command.perform config s colored (.tokens expression .json)).out
      read? out = some (.array ((tokenize expression).map fun t =>
        .object [("value".toList, .text t.text), ("kind".toList, .text t.kind.label),
          ("position".toList, .integer t.start)])) ∧
      (read? out).bind Token.listOfValue? = some (tokenize expression) := by
  constructor
  · intro h
    have read := read?_of_textOf (writer.compact h.json) (List.forall_mem_nil _)
    rw [List.append_nil] at read
    rw [History.jsonText, read, History.json, reading, readings_eq_map, List.map_map]
    simp only [Function.comp_def, reading_entry]
  · intro config s colored expression out
    have feed : White ['\n'] := List.forall_mem_singleton.mpr rfl
    have read : read? out = some (ofTokens (tokenize expression)).reading :=
      read?_of_textOf (writer.indented (ofTokens (tokenize expression))) feed
    constructor
    · rw [read, ofTokens, reading, readings_eq_map, List.map_map]
      simp only [Function.comp_def, reading_token]
    · rw [read, Option.bind_some, Token.listOfValue?_reading]

theorem read_from_json_layout :
    let zero := Binary.nearest true ⟨0, 1⟩
    let h : History := ⟨2, [⟨"-0 \t\n".toList, zero⟩]⟩
    IsWriter ∧ isFinite zero = true ∧
      read? h.jsonText = some (.array [.object [("expression".toList, .text "-0 \t\n".toList),
        ("result".toList, .number zero)]]) := by
  intro zero h
  have finite : isFinite zero = true := by
    have bits := Binary.ofFloat_nearest (r := ⟨0, 1⟩) Binary.canonical_zero rfl true
    rw [isFinite, bits]
  have read := (read_from_json isWriter_layout).1 h
  simp only [h, List.map_cons, List.map_nil, finite, if_true] at read
  exact ⟨isWriter_layout, finite, read⟩

end LineCalc
