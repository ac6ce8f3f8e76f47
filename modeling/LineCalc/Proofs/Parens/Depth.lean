import LineCalc.Command.Perform
import LineCalc.Proofs.Parens.Matching
import Mathlib.Order.Bounds.Basic

/-!
How deep parentheses nest. A parenthesis that closes nothing lets the level start afresh, so the
level behind some tokens is the largest surplus of opening parentheses at their end, and the
deepest level is the largest surplus in any segment of them. Where all parentheses match, no
segment has a larger surplus than the beginning that ends with it.
-/
namespace LineCalc.Parens

variable {t : Token} {ts before : List Token} {level deepest : Nat}

def surplus (ts : List Token) : Int := ts.countP Token.opens - ts.countP Token.closes

theorem surplus_nil : surplus [] = 0 := rfl

theorem surplus_append (l r : List Token) : surplus (l ++ r) = surplus l + surplus r := by
  have both := counts_append l r
  unfold surplus
  omega

theorem surplus_of_opens (opens : t.opens = true) : surplus [t] = 1 := by
  simp [surplus, opens, not_closes_of_opens opens]

theorem surplus_of_closes (closes : t.closes = true) : surplus [t] = -1 := by
  simp [surplus, closes, not_opens_of_closes closes]

theorem surplus_of_other (opens : t.opens = false) (closes : t.closes = false) :
    surplus [t] = 0 := by
  simp [surplus, opens, closes]

/-- What the level and the deepest level are behind these tokens. -/
structure Levels (before : List Token) (level deepest : Nat) : Prop where
  level : IsGreatest (surplus '' {s | s <:+ before}) level
  deepest : IsGreatest (surplus '' {s | s <:+: before}) deepest

theorem levels_nil : Levels [] 0 0 := by
  constructor
  · refine ⟨⟨[], List.suffix_rfl, rfl⟩, ?_⟩
    rintro n ⟨s, short, rfl⟩
    rw [List.suffix_nil.mp short]
    exact Int.le_refl 0
  · refine ⟨⟨[], List.infix_rfl, rfl⟩, ?_⟩
    rintro n ⟨s, short, rfl⟩
    rw [List.infix_nil.mp short]
    exact Int.le_refl 0

theorem level_le_deepest (levels : Levels before level deepest) : level ≤ deepest := by
  obtain ⟨s, short, same⟩ := levels.level.1
  have bound := levels.deepest.2 ⟨s, List.IsSuffix.isInfix short, rfl⟩
  omega

theorem level_snoc {next : Nat} (levels : Levels before level deepest)
    (reached : (next : Int) = max 0 (level + surplus [t])) :
    IsGreatest (surplus '' {s | s <:+ before ++ [t]}) next := by
  constructor
  · rcases Int.le_total (level + surplus [t]) 0 with low | high
    · refine ⟨[], List.nil_suffix, ?_⟩
      rw [surplus_nil]
      omega
    · obtain ⟨s, short, same⟩ := levels.level.1
      refine ⟨s ++ [t], List.suffix_concat_iff.mpr (Or.inr ⟨s, rfl, short⟩), ?_⟩
      rw [surplus_append]
      omega
  · rintro n ⟨s, short, rfl⟩
    rcases List.suffix_concat_iff.mp short with rfl | ⟨front, rfl, shorter⟩
    · rw [surplus_nil]
      omega
    · have bound := levels.level.2 ⟨front, shorter, rfl⟩
      rw [surplus_append]
      omega

theorem levels_snoc {next : Nat} (levels : Levels before level deepest)
    (reached : (next : Int) = max 0 (level + surplus [t])) :
    Levels (before ++ [t]) next (max deepest next) := by
  have own := level_snoc levels reached
  refine ⟨own, ?_, ?_⟩
  · rcases Nat.le_total next deepest with low | high
    · obtain ⟨s, short, same⟩ := levels.deepest.1
      refine ⟨s, short.trans (List.infix_append' [] before [t]), ?_⟩
      rw [Nat.max_eq_left low, same]
    · obtain ⟨s, short, same⟩ := own.1
      refine ⟨s, List.IsSuffix.isInfix short, ?_⟩
      rw [Nat.max_eq_right high, same]
  · rintro n ⟨s, short, rfl⟩
    rcases List.infix_concat_iff.mp short with ends | inside
    · have bound := own.2 ⟨s, ends, rfl⟩
      omega
    · have bound := levels.deepest.2 ⟨s, inside, rfl⟩
      omega

theorem depthFrom_levels (levels : Levels before level deepest) (ts : List Token) :
    ∃ last, Levels (before ++ ts) last (depthFrom level deepest ts) := by
  induction ts generalizing before level deepest with
  | nil => exact ⟨level, by rwa [List.append_nil]⟩
  | cons t ts ih =>
    have below := level_le_deepest levels
    rw [List.append_cons]
    cases opens : t.opens with
    | true =>
      have own := surplus_of_opens opens
      have next : Levels (before ++ [t]) (level + 1) (max deepest (level + 1)) :=
        levels_snoc levels (by omega)
      obtain ⟨last, reads⟩ := ih next
      exact ⟨last, by simpa [depthFrom, opens] using reads⟩
    | false =>
      cases closes : t.closes with
      | true =>
        have own := surplus_of_closes closes
        have next : Levels (before ++ [t]) (level - 1) (max deepest (level - 1)) :=
          levels_snoc levels (by omega)
        rw [Nat.max_eq_left (by omega)] at next
        obtain ⟨last, reads⟩ := ih next
        exact ⟨last, by simpa [depthFrom, opens, closes] using reads⟩
      | false =>
        have own := surplus_of_other opens closes
        have next : Levels (before ++ [t]) level (max deepest level) :=
          levels_snoc levels (by omega)
        rw [Nat.max_eq_left below] at next
        obtain ⟨last, reads⟩ := ih next
        exact ⟨last, by simpa [depthFrom, opens, closes] using reads⟩

theorem depth_isGreatest (ts : List Token) :
    IsGreatest (surplus '' {s | s <:+: ts}) (depth ts) := by
  obtain ⟨last, reads⟩ := depthFrom_levels levels_nil ts
  exact reads.deepest

theorem staysInside_of_balance (passed : balance ts = .ok ()) : StaysInside ts := by
  rcases balanced_or_mismatch ts with balanced | ⟨p, mismatch⟩
  · exact balanced.1
  · rw [balance_of_mismatch mismatch] at passed
    cases passed

theorem isGreatest_prefix {n : Int} (inside : StaysInside ts)
    (greatest : IsGreatest (surplus '' {s | s <:+: ts}) n) :
    IsGreatest (surplus '' {s | s <+: ts}) n := by
  have below : ∀ s, s <+: ts → surplus s ≤ n :=
    fun s short => greatest.2 ⟨s, List.IsPrefix.isInfix short, rfl⟩
  constructor
  · obtain ⟨s, ⟨front, behind, rfl⟩, same⟩ := greatest.1
    have whole := below (front ++ s) (List.prefix_append _ behind)
    have before := inside front ((List.prefix_append front s).trans (List.prefix_append _ behind))
    have sum := surplus_append front s
    refine ⟨front ++ s, List.prefix_append _ behind, ?_⟩
    unfold surplus at *
    omega
  · rintro m ⟨s, short, rfl⟩
    exact below s short

theorem check_out {text : Text} (passed : balance (tokenize text) = .ok ()) :
    (Command.check text).out =
      "Balanced (max depth ".toList ++ Text.ofNat (depth (tokenize text)) ++ ")\n".toList := by
  simp [Command.check, passed, Command.line]

/-- The depth is the largest surplus of opening parentheses in a segment, the empty one among
    them. Where the parentheses match it is the largest of a beginning, and so is the number that
    the check of a text shows. -/
theorem depth_largest_surplus (ts : List Token) :
    IsGreatest (surplus '' {s | s <:+: ts}) (depth ts) ∧
    (balance ts = .ok () → IsGreatest (surplus '' {s | s <+: ts}) (depth ts)) ∧
    ∀ text, balance (tokenize text) = .ok () →
      ∃ n : Nat, IsGreatest (surplus '' {s | s <+: tokenize text}) n ∧
        (Command.check text).out =
          "Balanced (max depth ".toList ++ Text.ofNat n ++ ")\n".toList := by
  have matching (us : List Token) (passed : balance us = .ok ()) :
      IsGreatest (surplus '' {s | s <+: us}) (depth us) :=
    isGreatest_prefix (staysInside_of_balance passed) (depth_isGreatest us)
  refine ⟨depth_isGreatest ts, matching ts, ?_⟩
  intro text passed
  exact ⟨depth (tokenize text), matching _ passed, check_out passed⟩

end LineCalc.Parens
