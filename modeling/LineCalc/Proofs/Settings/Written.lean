import LineCalc.Proofs.Yaml.Braces

/-!
Settings are read back from their JSON texts. Of what reads them two rules are used: the text of a
flat JSON object is read as a mapping of the same members, and settings are read from such members
if their names and their values are those of settings.
-/
namespace LineCalc

open Json Decimal

namespace Settings

variable {t : Text} {members : List (Text × Json)} {w : Wording}

section Rules

def isWordChar (c : Char) : Bool := c.isAlphanum || c = '_'

inductive IsFlat : Json → Prop
  | natural {n : Nat} (fits : n < wordLimit) : IsFlat (.natural n)
  | text {t : Text} (words : t.all isWordChar = true) : IsFlat (.text t)

/-- Words that are not too long are names of flat values. -/
def Flat (members : List (Text × Json)) : Prop :=
  ∀ m ∈ members, m.1.all isWordChar = true ∧ m.1.length ≤ 1000 ∧ IsFlat m.2

/-- Members that say settings: no name stands twice, there is no other name, and the values are
    those that settings are written with. -/
structure Says (members : List (Text × Json)) (w : Wording) : Prop where
  distinct : (members.map Prod.fst).Nodup
  known : ∀ m ∈ members, m.1 ∈ [capacityName, unknownsName, zeroDivisionName]
  capacity : members.lookup capacityName = w.capacity?.map .natural
  fits : ∀ n ∈ w.capacity?, n < wordLimit
  unknowns : members.lookup unknownsName = w.unknowns?.map fun u => .text u.label
  zeroDivision : members.lookup zeroDivisionName = w.zeroDivision?.map fun z => .text z.label

/-- How settings are read, as far as JSON objects go: first the mapping, and then its members. -/
structure ReadsJson [Writer] [Reader] (load : Text → Option (List (Text × Json))) : Prop where
  compact : ∀ members, Flat members → load (Writer.compact (.object members)) = some members
  indented : ∀ members, Flat members → load (Writer.indented (.object members)) = some members
  derived : ∀ t members w, load t = some members → Says members w → Reader.read t = .ok w

end Rules

section Written

def written (s : Settings) : List (Text × Json) :=
  [(capacityName, .natural s.capacity), (unknownsName, .text s.rules.unknowns.label),
    (zeroDivisionName, .text s.rules.zeroDivision.label)]

def wording (s : Settings) : Wording :=
  ⟨some s.capacity, some s.rules.unknowns, some s.rules.zeroDivision⟩

theorem flat_written (s : Settings) (fits : s.capacity < wordLimit) : Flat s.written := by
  have unknowns : s.rules.unknowns.label.all isWordChar = true := by
    cases s.rules.unknowns <;> rfl
  have zeroDivision : s.rules.zeroDivision.label.all isWordChar = true := by
    cases s.rules.zeroDivision <;> rfl
  have short : capacityName.length ≤ 1000 ∧ unknownsName.length ≤ 1000 ∧
      zeroDivisionName.length ≤ 1000 := by decide
  refine List.forall_mem_cons.mpr ⟨⟨rfl, short.1, .natural fits⟩, ?_⟩
  refine List.forall_mem_cons.mpr ⟨⟨rfl, short.2.1, .text unknowns⟩, ?_⟩
  exact List.forall_mem_singleton.mpr ⟨rfl, short.2.2, .text zeroDivision⟩

theorem says_written (s : Settings) (fits : s.capacity < wordLimit) :
    Says s.written s.wording where
  distinct := by
    change [capacityName, unknownsName, zeroDivisionName].Nodup
    decide
  known := by simp [written]
  capacity := rfl
  fits := by simpa [wording] using fits
  unknowns := rfl
  zeroDivision := rfl

theorem not_isBlank_of_object (text : TextOf (.object members) t) : ¬ t.IsBlank := by
  cases text with
  | object inside =>
    have brace : isBlank '\x7b' = false := rfl
    simp [Text.IsBlank, brace]

theorem ofYaml_of_load [Writer] [Reader] {load : Text → Option (List (Text × Json))}
    (reads : ReadsJson load) (s : Settings) (fits : s.capacity < wordLimit)
    (text : TextOf s.json t) (loaded : load t = some s.written) :
    ofYaml t = if s.capacity = 0 then .error .noCapacity else .ok s := by
  rw [ofYaml, if_neg (not_isBlank_of_object text),
    reads.derived t s.written s.wording loaded (says_written s fits)]
  rfl

/-- Settings that are written as JSON, compact or indented, are read back from it. Only a capacity
    of zero is refused. -/
theorem ofYaml_json [Writer] [Reader] {load : Text → Option (List (Text × Json))}
    (writer : IsWriter) (reads : ReadsJson load) (s : Settings) (fits : s.capacity < wordLimit) :
    ∀ text ∈ [Writer.compact s.json, Writer.indented s.json],
      ofYaml text = if s.capacity = 0 then .error .noCapacity else .ok s := by
  have flat := flat_written s fits
  have compact := ofYaml_of_load reads s fits (writer.compact s.json) (reads.compact _ flat)
  have indented := ofYaml_of_load reads s fits (writer.indented s.json) (reads.indented _ flat)
  simp [compact, indented]

end Written

section Numbers

theorem octalDigit?_digit {c : Char} (digit : c.isDigit = true) :
    octalDigit? 10 c = some (digitValue c) := by
  rw [octalDigit?, if_pos ⟨digit, digitValue_lt digit⟩, digitValue]

theorem foldlM_digits (digits : ∀ c ∈ t, c.isDigit = true) (n : Nat) :
    t.foldlM (fun n c => (octalDigit? 10 c).map (10 * n + ·)) n =
      some (t.foldl (fun n c => 10 * n + digitValue c) n) := by
  induction t generalizing n with
  | nil => rfl
  | cons c t ih =>
    obtain ⟨first, others⟩ := List.forall_mem_cons.mp digits
    rw [List.foldlM_cons, octalDigit?_digit first, List.foldl_cons]
    exact ih others _

theorem inBase?_digits (digits : ∀ c ∈ t, c.isDigit = true) (nonempty : t ≠ []) :
    inBase? 10 (octalDigit? 10) t = bounded? (ofDigits t) := by
  rw [inBase?, if_neg (by simpa using nonempty), foldlM_digits digits]
  rfl

theorem whole?_ofNat (n : Nat) : whole? (Text.ofNat n) = bounded? n := by
  rcases Nat.eq_zero_or_pos n with rfl | positive
  · rfl
  · have read := inBase?_digits (isDigit_ofNat (n := n)) (ofNat_ne_nil n)
    have leading := head_ofNat positive
    obtain ⟨first, others, split, digits⟩ := ofNat_cons n
    rw [ofDigits_ofNat] at read
    rw [split] at read leading ⊢
    have zero : first ≠ '0' := by simpa using leading
    have plus : first ≠ '+' := by
      rintro rfl
      cases digits '+' List.mem_cons_self
    rw [← read]
    simp [whole?, zero, plus]

theorem capacity?_plain (n : Nat) : capacity? ⟨.plain, Text.ofNat n, none⟩ = bounded? n := by
  rw [capacity?, if_pos (Or.inl rfl), whole?_ofNat]

end Numbers

section Mappings

open Yaml

def datum (scalar : Scalar) : Json :=
  if scalar.style = .quoted ∧ scalar.tag? = none then .text scalar.text
  else ofOption .natural (capacity? scalar)

def loadYaml (t : Text) : Option (List (Text × Json)) :=
  (Yaml.read? t).map fun members => members.map fun m => (m.1, datum m.2)

theorem capacity?_of_datum {scalar : Scalar} {n : Nat} (number : datum scalar = .natural n) :
    capacity? scalar = some n := by
  rw [datum] at number
  split at number
  · cases number
  · cases found : capacity? scalar with
    | none =>
      rw [found] at number
      cases number
    | some m =>
      rw [found] at number
      exact congrArg some (Json.natural.inj number)

theorem choice?_of_datum {α : Type} {ofLabel? : Text → Option α} {scalar : Scalar} {label : Text}
    (word : datum scalar = .text label) : choice? ofLabel? scalar = ofLabel? label := by
  rw [datum] at word
  split at word
  · next quoted =>
    rw [choice?, quoted.2, ← Json.text.inj word]
  · cases found : capacity? scalar <;>
    · rw [found] at word
      cases word

theorem lookup_map {α β : Type} (f : α → β) (members : List (Text × α)) (name : Text) :
    (members.map fun m => (m.1, f m.2)).lookup name = (members.lookup name).map f := by
  induction members with
  | nil => rfl
  | cons m more ih =>
    rw [List.map_cons, List.lookup_cons, List.lookup_cons, ih]
    split <;> rfl

theorem member?_of_lookup {α : Type} {members : Members} {name : Text} {value? : Scalar → Option α}
    {write : α → Json} {a? : Option α}
    (read : ∀ scalar a, datum scalar = write a → value? scalar = some a)
    (said : (members.lookup name).map datum = a?.map write) :
    member? members name value? = some a? := by
  rw [Settings.member?]
  cases found : members.lookup name with
  | none =>
    rw [found] at said
    cases a? with
    | none => rfl
    | some a => cases said
  | some scalar =>
    rw [found] at said
    cases a? with
    | none => cases said
    | some a => simp [read scalar a (Option.some.inj said)]

theorem wording?_of_says {members : Members}
    (told : Says (members.map fun m => (m.1, datum m.2)) w) : wording? members = some w := by
  have names : (members.map fun m => (m.1, datum m.2)).map Prod.fst = members.map (·.1) := by
    rw [List.map_map]
    rfl
  have known : ∀ m ∈ members, m.1 ∈ [capacityName, unknownsName, zeroDivisionName] :=
    fun m member => told.known (m.1, datum m.2) (List.mem_map_of_mem member)
  have distinct := told.distinct
  rw [names] at distinct
  have lookup := lookup_map datum members
  have capacity := member?_of_lookup (fun _ _ => capacity?_of_datum)
    ((lookup capacityName).symm.trans told.capacity)
  have unknowns : member? members unknownsName (choice? Unknowns.ofLabel?) = some w.unknowns? :=
    member?_of_lookup
      (fun _ u word => (choice?_of_datum word).trans (Unknowns.ofLabel?_label u))
      ((lookup unknownsName).symm.trans told.unknowns)
  have zeroDivision :
      member? members zeroDivisionName (choice? ZeroDivision.ofLabel?) = some w.zeroDivision? :=
    member?_of_lookup
      (fun _ z word => (choice?_of_datum word).trans (ZeroDivision.ofLabel?_label z))
      ((lookup zeroDivisionName).symm.trans told.zeroDivision)
  rw [wording?, if_pos ⟨distinct, known⟩, capacity, unknowns, zeroDivision]

theorem words_of_all (words : t.all isWordChar = true) :
    ∀ c ∈ t, Yaml.isWordChar c = true := by
  intro c member
  rw [Yaml.isWordChar, Bool.or_eq_true]
  exact Or.inl (List.all_eq_true.mp words c member)

theorem reads_of_flat (flat : Flat members) : ∃ read, MembersReadAs members read ∧
    (read.map fun m => (m.1, datum m.2)) = members := by
  induction members with
  | nil => exact ⟨[], .nil, rfl⟩
  | cons m more ih =>
    obtain ⟨⟨words, short, isFlat⟩, others⟩ := List.forall_mem_cons.mp flat
    obtain ⟨read, reads, same⟩ := ih others
    obtain ⟨name, value⟩ := m
    have named : IsName name := by
      refine ⟨words_of_all words, ?_⟩
      exact (Nat.add_le_add_right short 2).trans (by decide)
    have own : ∃ scalar, ReadsAs value scalar ∧ datum scalar = value := by
      cases isFlat with
      | @natural n fits =>
        refine ⟨_, .natural n, ?_⟩
        rw [datum, if_neg (by simp), capacity?_plain, bounded?, if_pos fits]
        rfl
      | text label => exact ⟨_, .text (words_of_all label), if_pos ⟨rfl, rfl⟩⟩
    obtain ⟨scalar, written, rfl⟩ := own
    refine ⟨(name, scalar) :: read, .cons ⟨rfl, named, written⟩ reads, ?_⟩
    rw [List.map_cons, same]

theorem readsJson_yaml : ReadsJson loadYaml where
  compact members flat := by
    obtain ⟨read, reads, same⟩ := reads_of_flat flat
    change (Yaml.read? (Json.object members).compact).map _ = _
    rw [read?_compact reads, Option.map_some, same]
  indented members flat := by
    obtain ⟨read, reads, same⟩ := reads_of_flat flat
    change (Yaml.read? ((Json.object members).pretty 0)).map _ = _
    rw [read?_pretty reads, Option.map_some, same]
  derived t members w loaded told := by
    obtain ⟨read, found, rfl⟩ := Option.map_eq_some_iff.mp loaded
    change readYaml t = _
    rw [readYaml, found, Option.bind_some, wording?_of_says told]

end Mappings

theorem ofYaml_json_limits :
    2 ^ 64 - 1 < wordLimit ∧ 0 < wordLimit ∧
      ofYaml (Writer.compact (Settings.json ⟨2 ^ 64 - 1, ⟨.lenient, .reject⟩⟩)) =
        .ok ⟨2 ^ 64 - 1, ⟨.lenient, .reject⟩⟩ ∧
      ofYaml (Writer.indented (Settings.json ⟨0, ⟨.strict, .reject⟩⟩)) = .error .noCapacity := by
  have large : 2 ^ 64 - 1 < wordLimit := by decide
  have none : 0 < wordLimit := by decide
  have some := ofYaml_json isWriter_layout readsJson_yaml ⟨2 ^ 64 - 1, ⟨.lenient, .reject⟩⟩ large
  have zero := ofYaml_json isWriter_layout readsJson_yaml ⟨0, ⟨.strict, .reject⟩⟩ none
  exact ⟨large, none, some _ List.mem_cons_self, zero _ (by simp)⟩

end Settings
end LineCalc
