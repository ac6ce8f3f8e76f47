import LineCalc.Proofs.Token.Tokenization

/-!
Cutting a text in two. The tokens of both parts are those of the whole text where the cut falls
between two tokens, and nowhere else. So a scan needs to know nothing of what it has read: what
is left, read afresh, gives the tokens that are still to come.
-/
namespace LineCalc

section Parts

variable {start : Nat} {text before after : Text} {ts us : List Token}

theorem tokenization_shift (n : Nat) (cut : Tokenization start text ts) :
    Tokenization (start + n) text (ts.map (Token.shift n)) := by
  induction ts generalizing start text with
  | nil => exact (tokenization_nil _ _).mpr ((tokenization_nil _ _).mp cut)
  | cons t ts ih =>
    obtain ⟨rfl, isLexeme, rest, whole, stops, later⟩ := (tokenization_cons _ _ t ts).mp cut
    have moved : (t.shift n).stop = t.stop + n := by
      simp only [Token.stop, Token.shift]
      omega
    rw [List.map_cons, tokenization_cons, moved]
    exact ⟨rfl, isLexeme, rest, whole, stops, ih later⟩

theorem tokens_eq_shift (n : Nat) (rest : Text) :
    (Scan.mk n rest).tokens = (tokenize rest).map (Token.shift n) := by
  have cut := tokenization_shift n (tokens_tokenization (Scan.ofText rest))
  rw [Scan.ofText, Nat.zero_add] at cut
  exact tokens_of_tokenization (s := Scan.mk n rest) cut

theorem stopsBefore_of_append {kind : Kind} {t : Text}
    (stops : StopsBefore kind t (before ++ after)) : StopsBefore kind t before := by
  intro c member
  apply stops
  rw [Option.mem_def, List.head?_append, Option.mem_def.mp member]
  rfl

theorem tokenization_append (cut : Tokenization start text (ts ++ us)) :
    ∃ before after, text = before ++ after ∧ Tokenization start before ts ∧
      Tokenization (start + before.size) after us := by
  induction ts generalizing start text with
  | nil => exact ⟨[], text, rfl, (tokenization_nil _ _).mpr rfl, cut⟩
  | cons t ts ih =>
    obtain ⟨rfl, isLexeme, rest, rfl, stops, later⟩ :=
      (tokenization_cons _ _ t (ts ++ us)).mp cut
    obtain ⟨before, after, rfl, first, second⟩ := ih later
    refine ⟨t.text ++ before, after, by simp, ?_, ?_⟩
    · exact (tokenization_cons _ _ t ts).mpr
        ⟨rfl, isLexeme, before, rfl, stopsBefore_of_append stops, first⟩
    · rw [Text.size_append, ← Nat.add_assoc]
      exact second

theorem append_inj_of_size {before' after' : Text} (same : before ++ after = before' ++ after')
    (size : before.size = before'.size) : before = before' ∧ after = after' := by
  have cut := Text.cut_at_size before after
  rw [same, size, Text.cut_at_size] at cut
  exact (Prod.mk.inj cut).imp Eq.symm Eq.symm

theorem tokenize_append_of_stop {t : Token} (member : t ∈ tokenize (before ++ after))
    (ends : t.stop = before.size) :
    tokenize before ++ (Scan.mk before.size after).tokens = tokenize (before ++ after) := by
  obtain ⟨ts, us, split⟩ := List.append_of_mem member
  have cut : Tokenization 0 (before ++ after) (ts ++ [t] ++ us) := by
    rw [List.append_assoc, List.singleton_append, ← split]
    exact tokens_tokenization (Scan.ofText (before ++ after))
  obtain ⟨front, behind, same, first, second⟩ := tokenization_append cut
  have reached := first.last t (by simp)
  rw [ends] at reached
  obtain ⟨rfl, rfl⟩ := append_inj_of_size same (reached.trans (Nat.zero_add _))
  have front : tokenize before = ts ++ [t] := tokens_of_tokenization first
  rw [Nat.zero_add] at second
  have behind : (Scan.mk before.size after).tokens = us := tokens_of_tokenization second
  rw [front, behind, split, List.append_assoc, List.singleton_append]

theorem exists_stop_eq_size (nonempty : text ≠ []) : ∃ t ∈ tokenize text, t.stop = text.size := by
  have cut : Tokenization 0 text (tokenize text) := tokens_tokenization (Scan.ofText text)
  cases last : (tokenize text).getLast? with
  | none =>
    rw [List.getLast?_eq_none_iff.mp last, tokenization_nil] at cut
    exact absurd cut nonempty
  | some t =>
    have ends := cut.last t last
    exact ⟨t, List.mem_of_getLast? last, ends.trans (Nat.zero_add _)⟩

theorem tokenize_append_iff (before after : Text) :
    tokenize before ++ (tokenize after).map (Token.shift before.size) =
        tokenize (before ++ after) ↔
      before = [] ∨ ∃ t ∈ tokenize (before ++ after), t.stop = before.size := by
  rw [← tokens_eq_shift]
  constructor
  · intro same
    by_cases empty : before = []
    · exact Or.inl empty
    · obtain ⟨t, member, ends⟩ := exists_stop_eq_size empty
      refine Or.inr ⟨t, ?_, ends⟩
      rw [← same]
      exact List.mem_append_left _ member
  · rintro (rfl | ⟨t, member, ends⟩)
    · have none : tokenize [] = [] := tokens_of_none (next?_eq_none_iff.mpr rfl)
      rw [none]
      rfl
    · exact tokenize_append_of_stop member ends

end Parts

namespace Scan

/-- The scan after n steps; at the end of the text it stays there. -/
def after (s : Scan) : Nat → Scan
  | 0 => s
  | n + 1 =>
    match s.next? with
    | none => s
    | some (_, s') => s'.after n

variable {s s' : Scan}

theorem after_of_none (step : s.next? = none) (n : Nat) : s.after n = s := by
  cases n with
  | zero => rfl
  | succ n => rw [after, step]

theorem after_of_some {t : Token} (step : s.next? = some (t, s')) (n : Nat) :
    s.after (n + 1) = s'.after n := by
  rw [after, step]

theorem steps_eq (s : Scan) (n : Nat) :
    s.steps n = (List.range n).map fun i => (s.tokens[i]?, s.after (i + 1)) := by
  induction n generalizing s with
  | zero => rfl
  | succ n ih =>
    rw [List.range_succ_eq_map, List.map_cons, List.map_map]
    cases step : s.next? with
    | none =>
      simp only [steps, step, ih, tokens_of_none step, after_of_none step]
      rfl
    | some found =>
      obtain ⟨t, s'⟩ := found
      simp only [steps, step, ih, tokens_of_some step, after_of_some step]
      rfl

theorem tokens_after (s : Scan) (n : Nat) : (s.after n).tokens = s.tokens.drop n := by
  induction n generalizing s with
  | zero => rfl
  | succ n ih =>
    cases step : s.next? with
    | none => rw [after_of_none step, tokens_of_none step, List.drop_nil]
    | some found =>
      obtain ⟨t, s'⟩ := found
      rw [after_of_some step, tokens_of_some step, ih, List.drop_succ_cons]

/-- Where the n-th token ends, or the last one if there are fewer. -/
def place (s : Scan) (n : Nat) : Nat := (s.tokens.take n).getLast?.elim s.position Token.stop

theorem position_after (s : Scan) (n : Nat) : (s.after n).position = s.place n := by
  induction n generalizing s with
  | zero => rfl
  | succ n ih =>
    cases step : s.next? with
    | none =>
      rw [after_of_none step, place, tokens_of_none step]
      rfl
    | some found =>
      obtain ⟨t, s'⟩ := found
      have reached := (next?_append step).2.2
      rw [after_of_some step, ih, place, place, tokens_of_some step, List.take_succ_cons,
        List.getLast?_cons, reached]
      cases (s'.tokens.take n).getLast? <;> rfl

theorem remaining_after (s : Scan) (n : Nat) :
    ∃ front, s.remaining = front ++ (s.after n).remaining ∧
      (s.after n).position = s.position + front.size := by
  induction n generalizing s with
  | zero => exact ⟨[], rfl, rfl⟩
  | succ n ih =>
    cases step : s.next? with
    | none =>
      rw [after_of_none step]
      exact ⟨[], rfl, rfl⟩
    | some found =>
      obtain ⟨t, s'⟩ := found
      obtain ⟨whole, begins, ends⟩ := next?_append step
      obtain ⟨front, rest, place⟩ := ih s'
      rw [after_of_some step]
      refine ⟨t.text ++ front, ?_, ?_⟩
      · rw [whole, rest, List.append_assoc]
      · rw [place, ends, Token.stop, begins, Text.size_append, Nat.add_assoc]

def behind (text : Text) (n : Nat) : Scan :=
  ⟨(ofText text).place n, (text.cut ((ofText text).place n)).2⟩

theorem after_ofText (text : Text) (n : Nat) : (ofText text).after n = behind text n := by
  have position := position_after (ofText text) n
  obtain ⟨front, whole, place⟩ := remaining_after (ofText text) n
  have whole : text = front ++ ((ofText text).after n).remaining := whole
  have size : (ofText text).place n = front.size := by
    rw [← position, place]
    exact Nat.zero_add _
  have cut := Text.cut_at_size front ((ofText text).after n).remaining
  rw [← whole] at cut
  rw [behind, size, cut, ← size, ← position]

end Scan

/-- Cut in two at a character, a text has the tokens of its parts exactly where the cut is at an
    end of the text or of a token. In particular a scan stands between two tokens after any
    number of steps, and what is left gives the tokens that it has not found yet. -/
theorem tokenize_cut_iff (text : Text) :
    (∀ p, text.IsBoundary p →
      (tokenize (text.cut p).1 ++ (tokenize (text.cut p).2).map (Token.shift p) =
          tokenize text ↔
        p = 0 ∨ p = text.size ∨ ∃ t ∈ tokenize text, t.stop = p)) ∧
    (∀ n, (Scan.ofText text).steps n = (List.range n).map fun i =>
      ((tokenize text)[i]?, Scan.behind text (i + 1))) ∧
    ∀ n, (Scan.behind text n).tokens = (tokenize text).drop n ∧
      (tokenize (Scan.behind text n).remaining).map
        (Token.shift (Scan.behind text n).position) = (tokenize text).drop n := by
  refine ⟨?_, ?_, ?_⟩
  · intro p boundary
    have parts := tokenize_append_iff (text.cut p).1 (text.cut p).2
    rw [Text.cut_append, boundary] at parts
    rw [parts]
    constructor
    · rintro (empty | found)
      · left
        rw [← boundary, empty]
        rfl
      · exact Or.inr (Or.inr found)
    · rintro (rfl | rfl | found)
      · left
        by_contra nonempty
        have positive := Text.size_pos nonempty
        have none : (text.cut 0).1.size = 0 := boundary
        omega
      · by_cases empty : text = []
        · left
          rw [empty]
          rfl
        · exact Or.inr (exists_stop_eq_size empty)
      · exact Or.inr found
  · intro n
    simp only [Scan.steps_eq, Scan.after_ofText]
    rfl
  · intro n
    have left := Scan.tokens_after (Scan.ofText text) n
    rw [Scan.after_ofText] at left
    exact ⟨left, (tokens_eq_shift _ _).symm.trans left⟩

theorem tokenize_cut_iff_second_point :
    Text.IsBoundary "é1.2.3".toList 5 ∧ Text.IsBoundary "é1.2.3".toList 4 ∧
      tokenize "é1.2".toList ++ (tokenize ".3".toList).map (Token.shift 5) =
        tokenize "é1.2.3".toList ∧
      tokenize "é1.".toList ++ (tokenize "2.3".toList).map (Token.shift 4) ≠
        tokenize "é1.2.3".toList := by
  have cut : tokenize "é1.2.3".toList =
      [⟨['é'], .unknown, 0⟩, ⟨"1.2".toList, .number, 2⟩, ⟨['.'], .unknown, 5⟩,
        ⟨['3'], .number, 6⟩] :=
    (tokenize_eq_steps _).trans rfl
  have second : Text.IsBoundary "é1.2.3".toList 5 := rfl
  have first : Text.IsBoundary "é1.2.3".toList 4 := rfl
  have ⟨parts, _⟩ := tokenize_cut_iff "é1.2.3".toList
  have between := parts 5 second
  have inside := parts 4 first
  rw [cut] at between inside ⊢
  refine ⟨second, first, between.mpr ?_, ?_⟩
  · exact Or.inr (Or.inr ⟨⟨"1.2".toList, .number, 2⟩, by simp, rfl⟩)
  · intro same
    have wrong := inside.mp same
    revert wrong
    decide

end LineCalc
