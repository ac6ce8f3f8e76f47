import LineCalc.Proofs.Parens
import Mathlib.Data.List.Induction

/-!
Which parentheses match. A list of tokens fails to match at the first parenthesis that closes
nothing, or, if there is none, at the last one that is never closed. Whether a parenthesis is
closed shows in the counts of what stands behind it.
-/
namespace LineCalc

/-- No parenthesis closes a group that was open before. -/
def StaysInside (ts : List Token) : Prop :=
  ∀ l, l <+: ts → l.countP Token.closes ≤ l.countP Token.opens

theorem staysInside_mono {l ts : List Token} (inside : StaysInside ts) (short : l <+: ts) :
    StaysInside l :=
  fun shorter begins => inside shorter (begins.trans short)

namespace Parens

variable {t : Token} {ts before after : List Token}

def Balanced (ts : List Token) : Prop :=
  StaysInside ts ∧ ts.countP Token.opens = ts.countP Token.closes

/-- A parenthesis that opens directly in front of these tokens is closed by one of them: what
    stands in between is balanced. -/
def ClosedIn (after : List Token) : Prop :=
  ∃ inside r rest, after = inside ++ r :: rest ∧ r.closes = true ∧ Balanced inside

/-- Where parentheses fail to match: at the first one that closes nothing, or else at the last one
    that is left open. -/
inductive Mismatch (ts : List Token) : Nat → Prop
  | unopened {before after : List Token} {t : Token} (split : ts = before ++ t :: after)
      (closes : t.closes = true) (inside : StaysInside before)
      (first : ¬ StaysInside (before ++ [t])) : Mismatch ts t.start
  | unclosed {before after : List Token} {t : Token} (inside : StaysInside ts)
      (split : ts = before ++ t :: after) (opens : t.opens = true) (left : ¬ ClosedIn after)
      (last : ∀ mid u rest, after = mid ++ u :: rest → u.opens = true → ClosedIn rest) :
      Mismatch ts t.start

section Counts

theorem staysInside_nil : StaysInside [] := by
  intro l short
  rw [List.prefix_nil.mp short]
  exact Nat.le_refl 0

theorem staysInside_snoc_iff : StaysInside (ts ++ [t]) ↔
    StaysInside ts ∧ (ts ++ [t]).countP Token.closes ≤ (ts ++ [t]).countP Token.opens := by
  constructor
  · intro inside
    exact ⟨staysInside_mono inside (List.prefix_append ts [t]), inside _ List.prefix_rfl⟩
  · rintro ⟨inside, whole⟩ l short
    rcases List.prefix_concat_iff.mp short with rfl | shorter
    · exact whole
    · exact inside l shorter

theorem counts_of_opens (opens : t.opens = true) (ts : List Token) :
    (t :: ts).countP Token.opens = ts.countP Token.opens + 1 ∧
      (t :: ts).countP Token.closes = ts.countP Token.closes := by
  simp [opens, not_closes_of_opens opens]

theorem counts_of_closes (closes : t.closes = true) (ts : List Token) :
    (t :: ts).countP Token.opens = ts.countP Token.opens ∧
      (t :: ts).countP Token.closes = ts.countP Token.closes + 1 := by
  simp [closes, not_opens_of_closes closes]

theorem counts_of_other (opens : t.opens = false) (closes : t.closes = false)
    (ts : List Token) :
    (t :: ts).countP Token.opens = ts.countP Token.opens ∧
      (t :: ts).countP Token.closes = ts.countP Token.closes := by
  simp [opens, closes]

theorem counts_snoc_closes (closes : t.closes = true) (ts : List Token) :
    (ts ++ [t]).countP Token.opens = ts.countP Token.opens ∧
      (ts ++ [t]).countP Token.closes = ts.countP Token.closes + 1 := by
  simp [closes, not_opens_of_closes closes]

theorem counts_append (front behind : List Token) :
    (front ++ behind).countP Token.opens =
        front.countP Token.opens + behind.countP Token.opens ∧
      (front ++ behind).countP Token.closes =
        front.countP Token.closes + behind.countP Token.closes :=
  ⟨List.countP_append, List.countP_append⟩

theorem exists_unopened (outside : ¬ StaysInside ts) :
    ∃ before t after, ts = before ++ t :: after ∧ t.closes = true ∧ Balanced before := by
  induction ts using List.reverseRecOn with
  | nil => exact absurd staysInside_nil outside
  | append_singleton ts t ih =>
    by_cases inside : StaysInside ts
    · have many : ¬ (ts ++ [t]).countP Token.closes ≤ (ts ++ [t]).countP Token.opens := by
        intro few
        exact outside (staysInside_snoc_iff.mpr ⟨inside, few⟩)
      have front := inside ts List.prefix_rfl
      cases closes : t.closes with
      | true =>
        have own := counts_snoc_closes closes ts
        refine ⟨ts, t, [], rfl, closes, inside, ?_⟩
        omega
      | false =>
        have own : [t].countP Token.closes = 0 := by simp [closes]
        have whole := counts_append ts [t]
        omega
    · obtain ⟨before, u, after, rfl, found⟩ := ih inside
      exact ⟨before, u, after ++ [t], by simp, found⟩

theorem not_staysInside_of_unopened (closes : t.closes = true) (balanced : Balanced before) :
    ¬ StaysInside (before ++ [t]) := by
  intro inside
  have whole := inside _ List.prefix_rfl
  have own := counts_snoc_closes closes before
  have even := balanced.2
  omega

theorem closedIn_iff : ClosedIn after ↔ ¬ StaysInside after := by
  constructor
  · rintro ⟨inside, r, rest, rfl, closes, balanced⟩ all
    have short : inside ++ [r] <+: inside ++ r :: rest := ⟨rest, by simp⟩
    exact not_staysInside_of_unopened closes balanced (staysInside_mono all short)
  · exact exists_unopened

theorem balanced_of_suffixes (even : ts.countP Token.opens = ts.countP Token.closes)
    (suffixes : ∀ r, r <:+ ts → r.countP Token.opens ≤ r.countP Token.closes) :
    Balanced ts := by
  refine ⟨?_, even⟩
  rintro l ⟨r, rfl⟩
  have behind := suffixes r (List.suffix_append l r)
  simp only [List.countP_append] at even
  omega

/-- If some suffix opens more than it closes, the shortest one begins with a parenthesis that
    opens in front of a balanced list. -/
theorem suffixes_or_unclosed (ts : List Token) :
    (∀ r, r <:+ ts → r.countP Token.opens ≤ r.countP Token.closes) ∨
      ∃ before t after, ts = before ++ t :: after ∧ t.opens = true ∧ Balanced after := by
  induction ts with
  | nil =>
    left
    intro r short
    rw [List.suffix_nil.mp short]
    exact Nat.le_refl 0
  | cons t ts ih =>
    rcases ih with suffixes | ⟨before, u, after, rfl, found⟩
    · by_cases whole : (t :: ts).countP Token.opens ≤ (t :: ts).countP Token.closes
      · left
        intro r short
        rcases List.suffix_cons_iff.mp short with rfl | shorter
        · exact whole
        · exact suffixes r shorter
      · right
        have behind := suffixes ts List.suffix_rfl
        cases opens : t.opens with
        | false =>
          simp only [List.countP_cons, opens, Bool.false_eq_true, ↓reduceIte] at whole
          omega
        | true =>
          have own := counts_of_opens opens ts
          exact ⟨[], t, ts, rfl, opens, balanced_of_suffixes (by omega) suffixes⟩
    · right
      exact ⟨t :: before, u, after, rfl, found⟩

theorem exists_unclosed (more : ts.countP Token.closes < ts.countP Token.opens) :
    ∃ before t after, ts = before ++ t :: after ∧ t.opens = true ∧ Balanced after := by
  rcases suffixes_or_unclosed ts with suffixes | found
  · have whole := suffixes ts List.suffix_rfl
    omega
  · exact found

theorem balanced_iff_last :
    Balanced after ↔ ¬ ClosedIn after ∧
      ∀ mid u rest, after = mid ++ u :: rest → u.opens = true → ClosedIn rest := by
  rw [closedIn_iff, not_not]
  constructor
  · rintro ⟨inside, even⟩
    refine ⟨inside, ?_⟩
    rintro mid u rest rfl opens
    rw [closedIn_iff]
    intro closed
    have front := inside mid (List.prefix_append mid _)
    have behind := closed rest List.prefix_rfl
    have own := counts_of_opens opens rest
    have both := counts_append mid (u :: rest)
    omega
  · rintro ⟨inside, last⟩
    refine ⟨inside, ?_⟩
    have whole := inside after List.prefix_rfl
    by_contra uneven
    have more : after.countP Token.closes < after.countP Token.opens := by omega
    obtain ⟨mid, u, rest, split, opens, balanced⟩ := exists_unclosed more
    exact closedIn_iff.mp (last mid u rest split opens) balanced.1

end Counts

section Reading

/-- No more is closed than what is opened here and this much that was open before. -/
def StaysWithin (depth : Nat) (ts : List Token) : Prop :=
  ∀ l, l <+: ts → l.countP Token.closes ≤ l.countP Token.opens + depth

theorem staysWithin_of_opens {depth : Nat} (opens : t.opens = true)
    (within : StaysWithin depth (t :: ts)) : StaysWithin (depth + 1) ts := by
  intro l short
  have whole := within (t :: l) (List.cons_prefix_cons.mpr ⟨rfl, short⟩)
  have own := counts_of_opens opens l
  omega

theorem staysWithin_of_other {depth : Nat} (opens : t.opens = false) (closes : t.closes = false)
    (within : StaysWithin depth (t :: ts)) : StaysWithin depth ts := by
  intro l short
  have whole := within (t :: l) (List.cons_prefix_cons.mpr ⟨rfl, short⟩)
  have own := counts_of_other opens closes l
  omega

theorem staysWithin_of_closes {depth : Nat} (closes : t.closes = true)
    (within : StaysWithin depth (t :: ts)) :
    ∃ outer, depth = outer + 1 ∧ StaysWithin outer ts := by
  have first := within [t] (List.cons_prefix_cons.mpr ⟨rfl, List.nil_prefix⟩)
  have alone := counts_of_closes closes []
  simp only [List.countP_nil] at alone
  refine ⟨depth - 1, by omega, ?_⟩
  intro l short
  have whole := within (t :: l) (List.cons_prefix_cons.mpr ⟨rfl, short⟩)
  have own := counts_of_closes closes l
  omega

theorem balanceFrom_append (inner : List Nat) (within : StaysWithin inner.length ts) :
    ∃ left : List Nat,
      left.length + ts.countP Token.closes = ts.countP Token.opens + inner.length ∧
      ∀ outer rest, balanceFrom (inner ++ outer) (ts ++ rest) =
        balanceFrom (left ++ outer) rest := by
  induction ts generalizing inner with
  | nil => exact ⟨inner, by simp, fun outer rest => rfl⟩
  | cons t ts ih =>
    cases opens : t.opens with
    | true =>
      have own := counts_of_opens opens ts
      obtain ⟨left, counted, reads⟩ :=
        ih (t.start :: inner) (staysWithin_of_opens opens within)
      rw [List.length_cons] at counted
      refine ⟨left, by omega, ?_⟩
      intro outer rest
      rw [List.cons_append, balanceFrom_opens opens]
      exact reads outer rest
    | false =>
      cases closes : t.closes with
      | false =>
        have own := counts_of_other opens closes ts
        obtain ⟨left, counted, reads⟩ := ih inner (staysWithin_of_other opens closes within)
        refine ⟨left, by omega, ?_⟩
        intro outer rest
        rw [List.cons_append, balanceFrom_other opens closes]
        exact reads outer rest
      | true =>
        have own := counts_of_closes closes ts
        obtain ⟨depth, same, fewer⟩ := staysWithin_of_closes closes within
        obtain ⟨p, inner, rfl⟩ := List.exists_cons_of_length_eq_add_one same
        rw [List.length_cons] at same
        obtain rfl : inner.length = depth := Nat.succ.inj same
        obtain ⟨left, counted, reads⟩ := ih inner fewer
        refine ⟨left, by rw [List.length_cons]; omega, ?_⟩
        intro outer rest
        rw [List.cons_append, List.cons_append, balanceFrom_closes opens closes]
        exact reads outer rest

theorem balanceFrom_balanced (balanced : Balanced ts) (pending : List Nat) (rest : List Token) :
    balanceFrom pending (ts ++ rest) = balanceFrom pending rest := by
  obtain ⟨left, counted, reads⟩ := balanceFrom_append [] balanced.1
  have even := balanced.2
  have none : left = [] := by
    rw [← List.length_eq_zero_iff]
    rw [List.length_nil] at counted
    omega
  have same := reads pending rest
  rwa [none] at same

theorem balance_of_balanced (balanced : Balanced ts) : balance ts = .ok () := by
  have reads := balanceFrom_balanced balanced [] []
  rw [List.append_nil] at reads
  exact reads

theorem balance_of_unopened (closes : t.closes = true) (balanced : Balanced before) :
    balance (before ++ t :: after) = .error (.unbalanced t.start) := by
  rw [balance, balanceFrom_balanced balanced]
  exact balanceFrom_unopened (not_opens_of_closes closes) closes

theorem balance_of_unclosed (inside : StaysInside before) (opens : t.opens = true)
    (balanced : Balanced after) :
    balance (before ++ t :: after) = .error (.unbalanced t.start) := by
  obtain ⟨left, _, reads⟩ := balanceFrom_append [] inside
  rw [balance]
  calc balanceFrom [] (before ++ t :: after)
      = balanceFrom left (t :: after) := by simpa using reads [] (t :: after)
    _ = balanceFrom (t.start :: left) after := balanceFrom_opens opens left
    _ = balanceFrom (t.start :: left) [] := by
      simpa using balanceFrom_balanced balanced (t.start :: left) []

theorem balance_of_mismatch {p : Nat} (mismatch : Mismatch ts p) :
    balance ts = .error (.unbalanced p) := by
  cases mismatch with
  | @unopened before after t split closes inside first =>
    have even : Balanced before := by
      refine ⟨inside, ?_⟩
      have front := inside before List.prefix_rfl
      have own := counts_snoc_closes closes before
      by_contra uneven
      exact first (staysInside_snoc_iff.mpr ⟨inside, by omega⟩)
    rw [split]
    exact balance_of_unopened closes even
  | @unclosed before after t inside split opens left last =>
    have short : before <+: ts := ⟨t :: after, split.symm⟩
    rw [split]
    exact balance_of_unclosed (staysInside_mono inside short) opens
      (balanced_iff_last.mpr ⟨left, last⟩)

theorem balanced_or_mismatch (ts : List Token) : Balanced ts ∨ ∃ p, Mismatch ts p := by
  by_cases inside : StaysInside ts
  · have whole := inside ts List.prefix_rfl
    rcases Nat.lt_or_eq_of_le whole with more | even
    · right
      obtain ⟨before, t, after, split, opens, balanced⟩ := exists_unclosed more
      have ⟨left, last⟩ := balanced_iff_last.mp balanced
      exact ⟨t.start, .unclosed inside split opens left last⟩
    · exact Or.inl ⟨inside, even.symm⟩
  · right
    obtain ⟨before, t, after, split, closes, balanced⟩ := exists_unopened inside
    exact ⟨t.start, .unopened split closes balanced.1
      (not_staysInside_of_unopened closes balanced)⟩

/-- The check succeeds where no beginning closes more than it opens and the whole closes all. It
    fails where the parentheses first fail to match. Only operators count. -/
theorem balance_finds_mismatch (ts : List Token) :
    (balance ts = .ok () ↔
      (∀ l, l <+: ts → l.countP Token.closes ≤ l.countP Token.opens) ∧
        ts.countP Token.opens = ts.countP Token.closes) ∧
    (∀ e, balance ts = .error e ↔ ∃ p, e = .unbalanced p ∧ Mismatch ts p) ∧
    balance (ts.filter fun t => t.kind = .operator) = balance ts := by
  refine ⟨?_, ?_, ?_⟩
  · constructor
    · intro passed
      rcases balanced_or_mismatch ts with balanced | ⟨p, mismatch⟩
      · exact balanced
      · rw [balance_of_mismatch mismatch] at passed
        cases passed
    · exact balance_of_balanced
  · intro e
    constructor
    · intro failed
      rcases balanced_or_mismatch ts with balanced | ⟨p, mismatch⟩
      · rw [balance_of_balanced balanced] at failed
        cases failed
      · rw [balance_of_mismatch mismatch] at failed
        cases failed
        exact ⟨p, rfl, mismatch⟩
    · rintro ⟨p, rfl, mismatch⟩
      exact balance_of_mismatch mismatch
  · apply balanceFrom_filter
    intro t dropped operator
    simp [operator] at dropped

end Reading

end Parens
end LineCalc
