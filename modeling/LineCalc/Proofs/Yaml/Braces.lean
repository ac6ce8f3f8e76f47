import LineCalc.Proofs.Json.Layout
import LineCalc.Yaml.Document

/-!
A JSON object is a YAML mapping between braces. If its names and texts are words, no name is too
long and it holds nothing but texts and natural numbers, its text is read as its members, compact or
indented.
-/
namespace LineCalc.Yaml

open Json Decimal

variable {c : Char} {t w rest : Text} {handles : List Handle}

section Characters

theorem word_of_isDigit (digit : c.isDigit = true) : isWordChar c = true := by
  simp [isWordChar, Char.isAlphanum, digit]

theorem range_of_word (word : isWordChar c = true) :
    (45 ≤ c.toNat ∧ c.toNat ≤ 57) ∨ (65 ≤ c.toNat ∧ c.toNat ≤ 90) ∨ c.toNat = 95 ∨
      (97 ≤ c.toNat ∧ c.toNat ≤ 122) := by
  simp only [isWordChar, Char.isAlphanum, Char.isAlpha, Char.isUpper, Char.isLower, Char.isDigit,
    Bool.or_eq_true, Bool.and_eq_true, decide_eq_true_eq, UInt32.le_iff_toNat_le] at word
  change ((((65 ≤ c.toNat ∧ c.toNat ≤ 90) ∨ (97 ≤ c.toNat ∧ c.toNat ≤ 122)) ∨
    (48 ≤ c.toNat ∧ c.toNat ≤ 57)) ∨ c = '_') ∨ c = '-' at word
  rcases word with ((letter | digit) | rfl) | rfl
  · omega
  · omega
  · decide
  · decide

theorem ne_of_word {d : Char} (word : isWordChar c = true)
    (other : d.toNat < 45 ∨ (57 < d.toNat ∧ d.toNat < 65) ∨ (90 < d.toNat ∧ d.toNat < 95) ∨
      d.toNat = 96 ∨ 122 < d.toNat) : c ≠ d := by
  rintro rfl
  have range := range_of_word word
  omega

theorem not_isBreak_of_word (word : isWordChar c = true) : isBreak c = false := by
  simp [isBreak, ne_of_word word]

theorem isAllowed_of_word (word : isWordChar c = true) : isAllowed c = true := by
  have range := range_of_word word
  have printed : 0x20 ≤ c.toNat ∧ c.toNat ≤ 0x7E := by omega
  simp [isAllowed, printed]

theorem escapeChar_of_word (word : isWordChar c = true) : escapeChar c = [c] := by
  have printed : ¬ c < ' ' := by
    have range := range_of_word word
    change ¬ c.toNat < 32
    omega
  simp [escapeChar, ne_of_word word, printed]

theorem stringText_of_words (words : ∀ c ∈ t, isWordChar c = true) :
    stringText t = '"' :: (t ++ ['"']) := by
  have same : t.flatMap escapeChar = t := by
    induction t with
    | nil => rfl
    | cons c t ih =>
      obtain ⟨first, others⟩ := List.forall_mem_cons.mp words
      rw [List.flatMap_cons, escapeChar_of_word first, ih others, List.singleton_append]
  rw [stringText, same, List.cons_append]

def isContent (c : Char) : Bool := !isBreak c && !isGap c && c ≠ '#' && c ≠ '\ufeff'

theorem dropSpace_content (content : isContent c = true) {spot : Spot} (inside : spot ≠ .comment)
    (t : Text) : dropSpace spot (c :: t) = c :: t := by
  simp only [isContent, Bool.and_eq_true, Bool.not_eq_true', decide_eq_true_eq] at content
  obtain ⟨⟨⟨single, solid⟩, other⟩, unmarked⟩ := content
  simp [dropSpace, single, solid, other, unmarked, inside]

theorem isPassed_of_isSpace (space : isSpace c = true) : (isGap c || isBreak c) = true := by
  rcases isSpace_cases space with rfl | rfl | rfl | rfl <;> decide

theorem dropSpace_white (white : White w) (content : isContent c = true) {spot : Spot}
    (inside : spot ≠ .comment) (t : Text) : dropSpace spot (w ++ c :: t) = c :: t := by
  induction w generalizing spot with
  | nil => exact dropSpace_content content inside t
  | cons d w ih =>
    obtain ⟨first, others⟩ := List.forall_mem_cons.mp white
    have passed : isGap d = true ∨ isBreak d = true :=
      Bool.or_eq_true_iff.mp (isPassed_of_isSpace first)
    -- Behind a break a byte order mark would be passed over too, but it is no content.
    rw [List.cons_append, dropSpace]
    by_cases ends : isBreak d = true
    · rw [if_pos ends, ih others (by decide)]
    · have gap := passed.resolve_right ends
      simp only [if_neg ends, if_neg inside, gap, Bool.true_or, if_true]
      exact ih others (by decide)

end Characters

section Scalars

theorem doubleQuotedFrom_words (words : ∀ c ∈ t, isWordChar c = true) (lines : Bool) {fuel : Nat}
    (enough : t.length < fuel) (rest : Text) :
    doubleQuotedFrom lines fuel (t ++ '"' :: rest) = some (t, rest) := by
  induction t generalizing fuel with
  | nil =>
    obtain ⟨fuel, rfl⟩ := Nat.exists_eq_add_one_of_ne_zero (Nat.ne_of_gt enough)
    rfl
  | cons c t ih =>
    obtain ⟨first, others⟩ := List.forall_mem_cons.mp words
    obtain ⟨fuel, rfl⟩ := Nat.exists_eq_add_one_of_ne_zero (Nat.ne_zero_of_lt enough)
    have behind := ih others (Nat.lt_of_succ_lt_succ enough)
    simp [doubleQuotedFrom, ne_of_word first, not_isBreak_of_word first, behind]

theorem inline?_stringText (words : ∀ c ∈ t, isWordChar c = true) (inBraces lines : Bool)
    (rest : Text) : inline? inBraces lines (stringText t ++ rest) = some (.quoted, t, rest) := by
  have shown : stringText t ++ rest = '"' :: (t ++ '"' :: rest) := by
    simp [stringText_of_words words]
  have enough : t.length < (t ++ '"' :: rest).length + 1 := by
    rw [List.length_append]
    omega
  rw [shown, inline?, doubleQuoted?, doubleQuotedFrom_words words lines enough]
  rfl

structure Ends (rest : Text) : Prop where
  first : ∃ c more, rest = c :: more ∧ (isBreak c = true ∨ isBrace c = true)
  stays : goesOn true rest = false

theorem plainSpan_words (words : ∀ c ∈ t, isWordChar c = true) (ends : Ends rest) :
    plainSpan true (t ++ rest) = (t, rest) := by
  induction t with
  | nil =>
    obtain ⟨c, more, rfl, stops⟩ := ends.first
    have closed : endsPlain true c more = true := by
      rcases stops with stops | stops <;> simp [endsPlain, stops]
    rw [List.nil_append, plainSpan, if_pos closed]
  | cons c t ih =>
    obtain ⟨first, others⟩ := List.forall_mem_cons.mp words
    have goes : endsPlain true c (t ++ rest) = false := by
      simp [endsPlain, isGap, isBrace, not_isBreak_of_word first, ne_of_word first]
    rw [List.cons_append, plainSpan, goes, ih others]
    rfl

theorem trimGaps_words (words : ∀ c ∈ t, isWordChar c = true) : trimGaps t = t := by
  refine List.rdropWhile_eq_self_iff.mpr ?_
  intro nonempty
  have word := words _ (List.getLast_mem nonempty)
  simp [isGap, ne_of_word word]

theorem inline?_ofNat (n : Nat) (lines : Bool) (ends : Ends rest) :
    inline? true lines (Text.ofNat n ++ rest) = some (.plain, Text.ofNat n, rest) := by
  have words : ∀ c ∈ Text.ofNat n, isWordChar c = true := fun c member =>
    word_of_isDigit (isDigit_ofNat c member)
  have span := plainSpan_words words ends
  have trimmed := trimGaps_words words
  obtain ⟨first, others, split, digits⟩ := ofNat_cons n
  have digit := digits first List.mem_cons_self
  have word := word_of_isDigit digit
  have starts : (isIndicator first || isGap first || isBreak first) = false := by
    have minus : first ≠ '-' := by
      rintro rfl
      cases digit
    simp [isIndicator, isBrace, isGap, not_isBreak_of_word word, ne_of_word word, minus]
  have single : first ≠ '\'' := ne_of_word word (by decide)
  have double : first ≠ '"' := ne_of_word word (by decide)
  rw [split] at span trimmed ⊢
  rw [List.cons_append] at span ⊢
  rw [inline?.eq_3 _ _ _ (by simp [single]) (by simp [double]), plain?]
  simp only [starts, span, trimmed, ends.stays, Bool.or_self]
  rfl

end Scalars

section Members

/-- A value that is written on one line, and the scalar that is read for it. -/
inductive ReadsAs : Json → Scalar → Prop
  | natural (n : Nat) : ReadsAs (.natural n) ⟨.plain, Text.ofNat n, none⟩
  | text {t : Text} (words : ∀ c ∈ t, isWordChar c = true) : ReadsAs (.text t) ⟨.quoted, t, none⟩

/-- A word whose colon is not too far behind its first quote. -/
structure IsName (t : Text) : Prop where
  words : ∀ c ∈ t, isWordChar c = true
  short : t.length + 2 ≤ nameLimit

def MembersReadAs (written : List (Text × Json)) (read : Members) : Prop :=
  List.Forall₂ (fun l r => l.1 = r.1 ∧ IsName l.1 ∧ ReadsAs l.2 r.2) written read

variable {space : Text} {value : Json} {scalar : Scalar} {name : Text}

theorem property?_of_content {p : Properties} {inBraces : Bool} (anchor : c ≠ '&') (tag : c ≠ '!')
    (t : Text) : property? handles inBraces p (c :: t) = some none := by
  rw [property?.eq_3 _ _ _ _ (by simp [anchor]) (by simp [tag])]

theorem name?_stringText (named : IsName name) (rest : Text) :
    name? handles true (stringText name ++ ':' :: rest) = some (name, rest) := by
  have read := inline?_stringText named.words true false (':' :: rest)
  have bare : properties? handles true (stringText name ++ ':' :: rest) =
      some ({}, stringText name ++ ':' :: rest) := rfl
  have colon : dropGaps (':' :: rest) = ':' :: rest := rfl
  have near : ¬ nameLimit < (stringText name ++ ':' :: rest).length - rest.length - 1 := by
    have short := named.short
    rw [stringText_of_words named.words]
    simp only [List.length_append, List.length_cons, List.length_nil]
    omega
  rw [name?, bare]
  simp only [read, colon, if_neg near]
  simp

theorem braceValue?_of_inline {style : Style} {text : Text} (white : White space)
    (content : isContent c = true) (other : c ∉ ['&', '!', ',', '\x7d'])
    (read : inline? true true (c :: t) = some (style, text, rest)) :
    braceValue? handles (space ++ c :: t) = some (⟨style, text, none⟩, rest) := by
  simp only [List.mem_cons, List.not_mem_nil, or_false, not_or] at other
  obtain ⟨anchor, tag, comma, brace⟩ := other
  have noProperty : property? handles true {} (c :: t) = some none :=
    property?_of_content anchor tag t
  rw [braceValue?, dropSpace_white white content (by decide)]
  simp [braceValueFrom, noProperty, comma, brace, read]

theorem braceValue?_compact (reads : ReadsAs value scalar) (ends : Ends rest)
    (white : White space) :
    braceValue? handles (space ++ (value.compact ++ rest)) = some (scalar, rest) := by
  cases reads with
  | natural n =>
    have read := inline?_ofNat n true ends
    obtain ⟨first, others, split, digits⟩ := ofNat_cons n
    have word := word_of_isDigit (digits first List.mem_cons_self)
    have content : isContent first = true := by
      simp [isContent, isGap, not_isBreak_of_word word, ne_of_word word]
    have other : first ∉ ['&', '!', ',', '\x7d'] := by simp [ne_of_word word]
    rw [compact]
    rw [split] at read ⊢
    exact braceValue?_of_inline white content other read
  | @text t words =>
    have read := inline?_stringText words true true rest
    rw [compact]
    exact braceValue?_of_inline white (by decide) (by decide) read

theorem braceMember?_compact (named : IsName name) (reads : ReadsAs value scalar)
    (ends : Ends rest) (white : White space) :
    braceMember? handles (stringText name ++ ':' :: (space ++ (value.compact ++ rest))) =
      some ((name, scalar), rest) := by
  have plainly (tail : Text) : braceMember? handles (stringText name ++ tail) =
      (name? handles true (stringText name ++ tail)).bind fun r =>
        (braceValue? handles r.2).map fun v => ((r.1, v.1), v.2) := rfl
  rw [plainly, name?_stringText named, Option.bind_some, braceValue?_compact reads ends white]
  rfl

end Members

section Objects

variable {gap space close : Text} {value : Json} {scalar : Scalar} {name : Text}
  {written : List (Text × Json)} {read : Members}

def membersText (gap space : Text) : List (Text × Json) → Text
  | [] => []
  | [(name, value)] => gap ++ (stringText name ++ ':' :: (space ++ value.compact))
  | (name, value) :: next :: more =>
    gap ++ (stringText name ++ ':' ::
      (space ++ (value.compact ++ ',' :: membersText gap space (next :: more))))

def objectText (gap space close : Text) (members : List (Text × Json)) : Text :=
  '\x7b' :: (membersText gap space members ++ (close ++ ['\x7d']))

structure Spread (gap space close : Text) : Prop where
  front : White gap
  colon : White space
  brace : White close
  breaks : ∀ c ∈ close.head?, isBreak c = true

theorem stays_close (white : White close) (rest : Text) :
    goesOn true (close ++ '\x7d' :: rest) = false := by
  have passed : ∀ c ∈ close, (isGap c || isBreak c) = true :=
    fun c member => isPassed_of_isSpace (white c member)
  have stop : ∀ c ∈ ('\x7d' :: rest).head?, (isGap c || isBreak c) = false := by
    intro c first
    obtain rfl := Option.some.inj first
    decide
  rw [goesOn, dropWhile_run passed stop]
  rfl

theorem ends_close (spread : Spread gap space close) (rest : Text) :
    Ends (close ++ '\x7d' :: rest) := by
  refine ⟨?_, stays_close spread.brace rest⟩
  cases shown : close with
  | nil => exact ⟨'\x7d', rest, rfl, Or.inr (by decide)⟩
  | cons c more =>
    exact ⟨c, more ++ '\x7d' :: rest, rfl, Or.inl (spread.breaks c (by simp [shown]))⟩

theorem dropSpace_stringText (white : White gap) (t rest : Text) :
    dropSpace .inside (gap ++ (stringText t ++ rest)) = stringText t ++ rest :=
  dropSpace_white white (by decide) (by decide) _

theorem bracesFrom_comma (spread : Spread gap space close) (named : IsName name)
    (reads : ReadsAs value scalar) (fuel : Nat) (rest : Text) :
    bracesFrom handles (fuel + 1)
        (gap ++ (stringText name ++ ':' :: (space ++ (value.compact ++ ',' :: rest)))) =
      (bracesFrom handles fuel rest).map fun r => ((name, scalar) :: r.1, r.2) := by
  have ends : Ends (',' :: rest) := ⟨⟨',', rest, rfl, Or.inr (by decide)⟩, rfl⟩
  have comma : dropSpace .inside (',' :: rest) = ',' :: rest :=
    dropSpace_content (by decide) (by decide) rest
  rw [bracesFrom, dropSpace_stringText spread.front]
  split
  · next closed => cases closed
  · simp only [braceMember?_compact named reads ends spread.colon, comma]

theorem bracesFrom_close (spread : Spread gap space close) (named : IsName name)
    (reads : ReadsAs value scalar) (fuel : Nat) (rest : Text) :
    bracesFrom handles (fuel + 1)
        (gap ++ (stringText name ++ ':' ::
          (space ++ (value.compact ++ (close ++ '\x7d' :: rest))))) =
      some ([(name, scalar)], rest) := by
  have ends := ends_close spread rest
  have brace : dropSpace .inside (close ++ '\x7d' :: rest) = '\x7d' :: rest :=
    dropSpace_white spread.brace (by decide) (by decide) rest
  rw [bracesFrom, dropSpace_stringText spread.front]
  split
  · next closed => cases closed
  · simp only [braceMember?_compact named reads ends spread.colon, brace]

theorem bracesFrom_membersText (spread : Spread gap space close)
    (reads : MembersReadAs written read) {fuel : Nat} (enough : written.length < fuel)
    (rest : Text) :
    bracesFrom handles fuel (membersText gap space written ++ (close ++ '\x7d' :: rest)) =
      some (read, rest) := by
  induction reads generalizing fuel with
  | nil =>
    obtain ⟨fuel, rfl⟩ := Nat.exists_eq_add_one_of_ne_zero (Nat.ne_zero_of_lt enough)
    have brace : dropSpace .inside (close ++ '\x7d' :: rest) = '\x7d' :: rest :=
      dropSpace_white spread.brace (by decide) (by decide) rest
    rw [membersText, List.nil_append, bracesFrom, brace]
    rfl
  | @cons first scalar more scalars own others ih =>
    obtain ⟨fuel, rfl⟩ := Nat.exists_eq_add_one_of_ne_zero (Nat.ne_zero_of_lt enough)
    obtain ⟨name, value⟩ := first
    obtain ⟨_, scalar⟩ := scalar
    obtain ⟨rfl, named, reads⟩ := own
    cases others with
    | nil =>
      rw [membersText]
      simp only [List.append_assoc, List.cons_append]
      exact bracesFrom_close spread named reads fuel rest
    | cons second others =>
      have behind := ih (Nat.lt_of_succ_lt_succ enough)
      rw [membersText]
      simp only [List.append_assoc, List.cons_append]
      rw [bracesFrom_comma spread named reads, behind]
      rfl

theorem length_membersText (gap space : Text) (written : List (Text × Json)) :
    written.length ≤ (membersText gap space written).length := by
  induction written with
  | nil => exact Nat.zero_le _
  | cons first more ih =>
    cases more with
    | nil =>
      rw [membersText]
      simp only [List.length_append, List.length_cons, List.length_nil]
      omega
    | cons next more =>
      rw [membersText]
      simp only [List.length_append, List.length_cons] at ih ⊢
      omega

theorem isAllowed_of_white (white : White w) : ∀ c ∈ w, isAllowed c = true := by
  intro c member
  have space := white c member
  simp only [isSpace, Bool.or_eq_true, decide_eq_true_eq] at space
  rcases space with ((rfl | rfl) | rfl) | rfl <;> decide

theorem isAllowed_stringText (words : ∀ c ∈ t, isWordChar c = true) :
    ∀ c ∈ stringText t, isAllowed c = true := by
  rw [stringText_of_words words]
  simp only [List.mem_cons, List.mem_append, List.not_mem_nil, or_false]
  rintro c (rfl | member | rfl)
  · decide
  · exact isAllowed_of_word (words c member)
  · decide

theorem isAllowed_compact (reads : ReadsAs value scalar) :
    ∀ c ∈ value.compact, isAllowed c = true := by
  cases reads with
  | natural n =>
    rw [compact]
    exact fun c member => isAllowed_of_word (word_of_isDigit (isDigit_ofNat c member))
  | text words =>
    rw [compact]
    exact isAllowed_stringText words

theorem isAllowed_membersText (spread : Spread gap space close)
    (reads : MembersReadAs written read) :
    ∀ c ∈ membersText gap space written, isAllowed c = true := by
  have gaps := isAllowed_of_white spread.front
  have colons := isAllowed_of_white spread.colon
  induction reads with
  | nil => simp [membersText]
  | @cons first scalar more scalars own others ih =>
    obtain ⟨name, value⟩ := first
    obtain ⟨_, named, reads⟩ := own
    have names := isAllowed_stringText named.words
    have values : ∀ c ∈ value.compact, isAllowed c = true := isAllowed_compact reads
    have marks : isAllowed ':' = true ∧ isAllowed ',' = true := by decide
    cases others with
    | nil =>
      rw [membersText]
      simp only [List.forall_mem_append, List.forall_mem_cons]
      exact ⟨gaps, names, marks.1, colons, values⟩
    | cons second others =>
      rw [membersText]
      simp only [List.forall_mem_append, List.forall_mem_cons]
      exact ⟨gaps, names, marks.1, colons, values, marks.2, ih⟩

theorem read?_of_braces {body : Text} {members : Members}
    (allowed : ∀ c ∈ body, isAllowed c = true)
    (braces : braces? defaultHandles body = some (members, [])) :
    read? ('\x7b' :: body) = some members := by
  have all : ('\x7b' :: body).all isAllowed = true := by
    rw [List.all_cons, List.all_eq_true.mpr allowed]
    rfl
  have first : nextPlace? none ('\x7b' :: body) = some ⟨0, '\x7b' :: body⟩ := rfl
  have bare : directivesFrom {} (('\x7b' :: body).length + 1) ⟨0, '\x7b' :: body⟩ =
      some ({}, ⟨0, '\x7b' :: body⟩) := rfl
  have unmarked (mark : Char) (other : mark ≠ '\x7b') :
      (Place.mk 0 ('\x7b' :: body)).isMarker mark = false := by
    simp [Place.isMarker, Ne.symm other]
  have content (fuel : Nat) : contentFrom defaultHandles {} (fuel + 1) true ⟨0, '\x7b' :: body⟩ =
      some (members, ⟨0, []⟩) := by
    rw [contentFrom]
    simp only [braces]
    rfl
  have handles : Directives.allHandles {} = defaultHandles := rfl
  rw [read?]
  simp only [all, first, bare, Option.bind_some, unmarked '-' (by decide),
    unmarked '.' (by decide), handles, content]
  rfl

theorem read?_objectText (spread : Spread gap space close) (reads : MembersReadAs written read) :
    read? (objectText gap space close written) = some read := by
  have enough := length_membersText gap space written
  refine read?_of_braces ?_ (bracesFrom_membersText spread reads ?_ [])
  · simp only [List.forall_mem_append, List.forall_mem_singleton]
    exact ⟨isAllowed_membersText spread reads, isAllowed_of_white spread.brace, by decide⟩
  · rw [List.length_append, List.length_append, List.length_singleton]
    omega

end Objects

section Layouts

variable {written : List (Text × Json)} {read : Members}

theorem compactMembers_eq (written : List (Text × Json)) :
    compactMembers written = membersText [] [] written := by
  induction written with
  | nil => rw [compactMembers, membersText]
  | cons first more ih =>
    cases more with
    | nil =>
      rw [compactMembers, membersText]
      rfl
    | cons next more =>
      rw [compactMembers, membersText, ih]
      simp

theorem prettyMembers_eq (depth : Nat) (reads : MembersReadAs written read) :
    prettyMembers depth written = membersText (newLine depth) [' '] written := by
  induction reads with
  | nil => rw [prettyMembers, membersText]
  | @cons first scalar more scalars own others ih =>
    obtain ⟨name, value⟩ := first
    obtain ⟨_, scalar⟩ := scalar
    have flat : value.pretty depth = value.compact := by
      cases own.2.2 <;> rw [pretty, compact]
    cases others with
    | nil =>
      rw [prettyMembers, membersText, flat]
      simp
    | cons second others =>
      rw [prettyMembers, membersText, flat, ih]
      simp

theorem read?_compact (reads : MembersReadAs written read) :
    read? (Json.object written).compact = some read := by
  have spread : Spread [] [] [] := ⟨white_nil, white_nil, white_nil, by simp⟩
  have shown : (Json.object written).compact = objectText [] [] [] written := by
    rw [compact, compactMembers_eq]
    rfl
  rw [shown]
  exact read?_objectText spread reads

theorem read?_pretty (reads : MembersReadAs written read) :
    read? ((Json.object written).pretty 0) = some read := by
  cases reads with
  | nil =>
    rw [pretty]
    rfl
  | cons own others =>
    have reads : MembersReadAs _ _ := .cons own others
    have space : White [' '] := List.forall_mem_singleton.mpr rfl
    have spread : Spread (newLine 1) [' '] (newLine 0) :=
      ⟨white_newLine 1, space, white_newLine 0, by simp [newLine, isBreak]⟩
    rw [pretty, prettyMembers_eq 1 reads]
    have read := read?_objectText spread reads
    rw [objectText, ← List.append_assoc] at read
    exact read

end Layouts
end LineCalc.Yaml
