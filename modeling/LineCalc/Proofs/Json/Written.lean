import LineCalc.Proofs.Json.Scalars

/-!
Values are read from their JSON texts. All the texts of a value are cut into the same lexemes, and
no other value has these.
-/
namespace LineCalc.Json

open Decimal

section Values

mutual

def Value.lexemes : Value → List Lexeme
  | .array items => .mark '[' :: itemLexemes items ++ [.mark ']']
  | .object members => .mark '\x7b' :: memberLexemes members ++ [.mark '\x7d']
  | .null => [.scalar .null]
  | .boolean b => [.scalar (.boolean b)]
  | .integer n => [.scalar (.integer n)]
  | .number x => [.scalar (.number x)]
  | .text t => [.scalar (.text t)]

def itemLexemes : List Value → List Lexeme
  | [] => []
  | [item] => item.lexemes
  | item :: next :: more => item.lexemes ++ .mark ',' :: itemLexemes (next :: more)

def memberLexemes : List (Text × Value) → List Lexeme
  | [] => []
  | [(name, value)] => .scalar (.text name) :: .mark ':' :: value.lexemes
  | (name, value) :: next :: more =>
    .scalar (.text name) :: .mark ':' :: value.lexemes ++ .mark ',' :: memberLexemes (next :: more)

end

theorem lexemes_cons (v : Value) :
    ∃ l more, v.lexemes = l :: more ∧ l ≠ .mark ']' := by
  cases v with
  | array items => exact ⟨_, _, by rw [Value.lexemes]; rfl, by simp⟩
  | object members => exact ⟨_, _, by rw [Value.lexemes]; rfl, by simp⟩
  | null | boolean | integer | number | text => exact ⟨_, [], by rw [Value.lexemes], by simp⟩

theorem itemLexemes_cons (item : Value) (more : List Value) :
    ∃ l others, itemLexemes (item :: more) = l :: others ∧ l ≠ .mark ']' := by
  obtain ⟨l, others, same, other⟩ := lexemes_cons item
  cases more with
  | nil => exact ⟨l, others, by rw [itemLexemes, same], other⟩
  | cons next more => exact ⟨l, _, by rw [itemLexemes, same]; rfl, other⟩

theorem memberLexemes_cons (name : Text) (value : Value) (more : List (Text × Value)) :
    ∃ others, memberLexemes ((name, value) :: more) = .scalar (.text name) :: others := by
  cases more with
  | nil => exact ⟨_, by rw [memberLexemes]⟩
  | cons next more => exact ⟨_, by rw [memberLexemes]; rfl⟩

theorem value?_array {ls : List Lexeme} (other : ∀ more, ls ≠ .mark ']' :: more) (size : Nat) :
    value? (size + 1) (.mark '[' :: ls) =
      (items? size ls).map fun r => (.array r.1, r.2) := by
  rw [value?]
  exact other

theorem value?_scalar (v : Value) {size : Nat} (enough : 1 ≤ size) (rest : List Lexeme) :
    value? size (.scalar v :: rest) = some (v, rest) := by
  obtain ⟨more, rfl⟩ := Nat.exists_eq_add_of_le' enough
  rw [value?]

mutual

theorem value?_lexemes (v : Value) (size : Nat) (rest : List Lexeme)
    (enough : v.lexemes.length ≤ size) : value? size (v.lexemes ++ rest) = some (v, rest) := by
  match v, size with
  | .array [], size + 1 =>
    rw [Value.lexemes, itemLexemes]
    rfl
  | .array (item :: more), size + 1 =>
    rw [Value.lexemes, List.length_append, List.length_cons] at enough
    obtain ⟨l, others, first, other⟩ := itemLexemes_cons item more
    have items := items?_lexemes item more size rest (Nat.le_of_succ_le_succ enough)
    rw [Value.lexemes, List.append_assoc, List.cons_append, value?_array, List.singleton_append,
      items, Option.map_some]
    intro behind same
    rw [first, List.cons_append] at same
    exact other (List.cons.inj same).1
  | .object [], size + 1 =>
    rw [Value.lexemes, memberLexemes]
    rfl
  | .object ((name, value) :: more), size + 1 =>
    rw [Value.lexemes, List.length_append, List.length_cons] at enough
    have members := members?_lexemes (name, value) more size rest (Nat.le_of_succ_le_succ enough)
    obtain ⟨others, first⟩ := memberLexemes_cons name value more
    rw [Value.lexemes, List.append_assoc, List.cons_append, List.singleton_append]
    rw [first] at members ⊢
    exact congrArg (Option.map fun r => (Value.object r.1, r.2)) members
  | .null, _ | .boolean b, _ | .integer n, _ | .number x, _ | .text t, _ =>
    rw [Value.lexemes] at enough ⊢
    exact value?_scalar _ enough rest
  | .array _, 0 | .object _, 0 =>
    rw [Value.lexemes] at enough
    cases enough
termination_by sizeOf v

theorem items?_lexemes (item : Value) (more : List Value) (size : Nat) (rest : List Lexeme)
    (enough : (itemLexemes (item :: more)).length + 1 ≤ size) :
    items? size (itemLexemes (item :: more) ++ .mark ']' :: rest) = some (item :: more, rest) := by
  match more, size with
  | [], size + 1 =>
    rw [itemLexemes] at enough ⊢
    have first := value?_lexemes item size (.mark ']' :: rest) (Nat.le_of_succ_le_succ enough)
    rw [items?, first]
    rfl
  | next :: others, size + 1 =>
    rw [itemLexemes, List.length_append, List.length_cons] at enough
    have first := value?_lexemes item size
      (.mark ',' :: (itemLexemes (next :: others) ++ .mark ']' :: rest)) (by omega)
    have later := items?_lexemes next others size rest (by omega)
    rw [itemLexemes, List.append_assoc, List.cons_append, items?, first]
    simp only [later, Option.map_some]
termination_by sizeOf (item :: more)

theorem members?_lexemes (member : Text × Value) (more : List (Text × Value)) (size : Nat)
    (rest : List Lexeme) (enough : (memberLexemes (member :: more)).length + 1 ≤ size) :
    members? size (memberLexemes (member :: more) ++ .mark '\x7d' :: rest) =
      some (member :: more, rest) := by
  match member, more, size with
  | (name, value), [], size + 1 =>
    rw [memberLexemes, List.length_cons, List.length_cons] at enough
    have first := value?_lexemes value size (.mark '\x7d' :: rest) (by omega)
    rw [memberLexemes, List.cons_append, List.cons_append, members?, first]
    rfl
  | (name, value), next :: others, size + 1 =>
    rw [memberLexemes, List.length_append, List.length_cons, List.length_cons,
      List.length_cons] at enough
    have first := value?_lexemes value size
      (.mark ',' :: (memberLexemes (next :: others) ++ .mark '\x7d' :: rest)) (by omega)
    have later := members?_lexemes next others size rest (by omega)
    rw [memberLexemes, List.append_assoc, List.cons_append, List.cons_append, List.cons_append,
      members?, first]
    simp only [later, Option.map_some]
termination_by sizeOf (member :: more)

end

end Values

section Lexemes

variable {s t : Text} {ls ms : List Lexeme} {c : Char}

/-- The text is cut into these lexemes, whatever stands behind it and does not go on with it. -/
def Lexes (t : Text) (ls : List Lexeme) : Prop :=
  ∀ rest, Stops rest → lex? (t ++ rest) = (lex? rest).map (ls ++ ·)

theorem stops_append (front : Stops s) (behind : Stops t) : Stops (s ++ t) := by
  cases s with
  | nil => exact behind
  | cons c s => exact front

theorem stops_spaces (spaces : ∀ c ∈ s, isSpace c = true) : Stops s := by
  intro c first
  rcases isSpace_cases (spaces c (List.mem_of_head? first)) with rfl | rfl | rfl | rfl <;> decide

theorem mark_cases (mark : isMark c = true) :
    c = '[' ∨ c = ']' ∨ c = '\x7b' ∨ c = '\x7d' ∨ c = ',' ∨ c = ':' := by
  simpa only [isMark, List.mem_cons, List.not_mem_nil, or_false, decide_eq_true_eq] using mark

theorem stops_mark (mark : isMark c = true) (t : Text) : Stops (c :: t) := by
  intro d first
  obtain rfl := Option.some.inj first
  rcases mark_cases mark with rfl | rfl | rfl | rfl | rfl | rfl <;> decide

theorem lexes_nil : Lexes [] [] := by
  intro rest _
  simp

theorem lexes_append (first : Lexes s ls) (second : Lexes t ms) (stops : Stops t) :
    Lexes (s ++ t) (ls ++ ms) := by
  intro rest behind
  rw [List.append_assoc, first _ (stops_append stops behind), second _ behind, Option.map_map]
  congr 1
  funext more
  exact (List.append_assoc ls ms more).symm

theorem lexes_spaces (spaces : ∀ c ∈ s, isSpace c = true) (lexes : Lexes t ls) :
    Lexes (s ++ t) ls := by
  intro rest behind
  rw [← lexes rest behind, List.append_assoc]
  induction s with
  | nil => rfl
  | cons c s ih =>
    obtain ⟨space, others⟩ := List.forall_mem_cons.mp spaces
    rw [List.cons_append, lex?, if_pos space, ih others]

theorem lexes_mark (mark : isMark c = true) (lexes : Lexes t ls) :
    Lexes (c :: t) (.mark c :: ls) := by
  have visible : ¬ isSpace c = true := by
    rcases mark_cases mark with rfl | rfl | rfl | rfl | rfl | rfl <;> decide
  intro rest behind
  rw [List.cons_append, lex?, if_neg visible, if_pos mark, lexes rest behind, Option.map_map]
  rfl

theorem lexes_scalar {v : Value} (read : ∀ rest, Stops rest → scalar? (t ++ rest) = some (v, rest))
    (head : ∃ c more, t = c :: more ∧ isSpace c = false ∧ isMark c = false) :
    Lexes t [.scalar v] := by
  obtain ⟨c, more, rfl, visible, other⟩ := head
  intro rest behind
  have shorter : rest.length < (c :: (more ++ rest)).length := by
    simp only [List.length_cons, List.length_append]
    omega
  have found := read rest behind
  rw [List.cons_append] at found ⊢
  rw [lex?, if_neg (by simp [visible]), if_neg (by simp [other]), found]
  simp only [dif_pos shorter]
  rfl

theorem lexes_numeral {v : Value} (head : c = '-' ∨ c.isDigit = true)
    (read : ∀ rest, Stops rest → scalar? (c :: t ++ rest) = some (v, rest)) :
    Lexes (c :: t) [.scalar v] := by
  refine lexes_scalar read ⟨c, t, rfl, ?_, ?_⟩
  · simp [isSpace, ne_of_head head]
  · simp [isMark, ne_of_head head]

theorem lexes_ofNat (n : Nat) : Lexes (Text.ofNat n) [.scalar (.integer n)] := by
  have read rest (stops : Stops rest) := scalar?_ofNat n stops
  obtain ⟨first, others, split, digits⟩ := ofNat_cons n
  rw [split] at read ⊢
  exact lexes_numeral (Or.inr (digits first List.mem_cons_self)) read

theorem lexes_numeralText {n : Numeral} (written : NumeralText n t) :
    Lexes t [.scalar (.number n.value)] := by
  have read rest (stops : Stops rest) := scalar?_of_numeralText written stops
  obtain ⟨c, more, rfl, head⟩ := numeralText_head written
  exact lexes_numeral head read

theorem lexes_null : Lexes "null".toList [.scalar .null] :=
  lexes_scalar (fun _ _ => rfl) ⟨_, _, rfl, rfl, rfl⟩

theorem lexes_stringText (written : StringText s t) : Lexes t [.scalar (.text s)] := by
  have read rest (_ : Stops rest) := scalar?_of_stringText written rest
  obtain ⟨escaped⟩ := written
  exact lexes_scalar read ⟨_, _, rfl, rfl, rfl⟩

theorem lexes_white (white : White t) : Lexes t [] := by
  have lexes := lexes_spaces white lexes_nil
  rwa [List.append_nil] at lexes

theorem lexes_around (around : Around s t) (lexes : Lexes s ls) : Lexes t ls := by
  obtain ⟨before, after, front, behind, rfl⟩ := around
  have padded := lexes_append lexes (lexes_white behind) (stops_spaces behind)
  rw [List.append_nil] at padded
  exact lexes_spaces front padded

end Lexemes

section Readings

mutual

/-- What is read for a value: a number that is not finite is missing. -/
def reading : Json → Value
  | .null => .null
  | .natural n => .integer n
  | .number x => if isFinite x then .number x else .null
  | .text t => .text t
  | .array items => .array (readings items)
  | .object members => .object (memberReadings members)

def readings : List Json → List Value
  | [] => []
  | item :: more => item.reading :: readings more

def memberReadings : List (Text × Json) → List (Text × Value)
  | [] => []
  | (name, value) :: more => (name, value.reading) :: memberReadings more

end

mutual

theorem lexes_of_textOf {j : Json} {t : Text} (written : TextOf j t) :
    Lexes t j.reading.lexemes := by
  cases written with
  | null =>
    rw [reading, Value.lexemes]
    exact lexes_null
  | natural n =>
    rw [reading, Value.lexemes]
    exact lexes_ofNat n
  | number finite written nearest =>
    rw [reading, if_pos finite, Value.lexemes, ← nearest]
    exact lexes_numeralText written
  | missing infinite =>
    rw [reading, if_neg (by simp [infinite]), Value.lexemes]
    exact lexes_null
  | text written =>
    rw [reading, Value.lexemes]
    exact lexes_stringText written
  | array inside =>
    rw [reading, Value.lexemes]
    exact lexes_mark rfl (lexes_append (lexes_of_itemsText inside) (lexes_mark rfl lexes_nil)
      (stops_mark rfl []))
  | object inside =>
    rw [reading, Value.lexemes]
    exact lexes_mark rfl (lexes_append (lexes_of_membersText inside) (lexes_mark rfl lexes_nil)
      (stops_mark rfl []))

theorem lexes_of_itemsText {items : List Json} {t : Text} (written : ItemsText items t) :
    Lexes t (itemLexemes (readings items)) := by
  cases written with
  | none white =>
    rw [readings, itemLexemes]
    exact lexes_white white
  | last written around =>
    rw [readings, readings, itemLexemes]
    exact lexes_around around (lexes_of_textOf written)
  | comma written around later =>
    have behind := lexes_mark (c := ',') rfl (lexes_of_itemsText later)
    rw [readings, readings, itemLexemes, ← readings]
    exact lexes_append (lexes_around around (lexes_of_textOf written)) behind (stops_mark rfl _)

theorem lexes_of_membersText {members : List (Text × Json)} {t : Text}
    (written : MembersText members t) : Lexes t (memberLexemes (memberReadings members)) := by
  cases written with
  | none white =>
    rw [memberReadings, memberLexemes]
    exact lexes_white white
  | last named aroundName written around =>
    have value := lexes_mark (c := ':') rfl (lexes_around around (lexes_of_textOf written))
    have name := lexes_around aroundName (lexes_stringText named)
    have member := lexes_append name value (stops_mark rfl _)
    rw [memberReadings, memberReadings, memberLexemes]
    exact member
  | comma named aroundName written around later =>
    have behind := lexes_mark (c := ',') rfl (lexes_of_membersText later)
    have value := lexes_mark (c := ':') rfl
      (lexes_append (lexes_around around (lexes_of_textOf written)) behind (stops_mark rfl _))
    have name := lexes_around aroundName (lexes_stringText named)
    have member := lexes_append name value (stops_mark rfl _)
    rw [memberReadings, memberReadings, memberLexemes, ← memberReadings]
    exact member

end

theorem read?_of_textOf {j : Json} {t rest : Text} (written : TextOf j t) (white : White rest) :
    read? (t ++ rest) = some j.reading := by
  have cut : lex? (t ++ rest) = some j.reading.lexemes := by
    have padded := lexes_append (lexes_of_textOf written) (lexes_white white) (stops_spaces white)
      [] (stops_spaces (List.forall_mem_nil _))
    rw [List.append_nil, List.append_nil, lex?] at padded
    simpa using padded
  have whole := value?_lexemes j.reading j.reading.lexemes.length [] (Nat.le_refl _)
  rw [List.append_nil] at whole
  rw [read?, cut]
  simp only [whole]

end Readings

end LineCalc.Json
