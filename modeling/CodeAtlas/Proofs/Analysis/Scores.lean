import CodeAtlas.Proofs.Analysis.Similarity
import CodeAtlas.Proofs.Syntax.Traversal
import Mathlib.Algebra.BigOperators.Group.Finset.Basic
import Mathlib.Data.Multiset.UnionInter

/-!
# Similarity as a score

The pairs of a node are a multiset, and what two nodes share is the intersection of their multisets
(`Profile.shared_eq_card`): each pair counts as often as it is on both sides.  So the score is
twice the size of the intersection over the sum of the two sizes.  It does not depend on the order of
the two nodes, lies between zero and one, and is one exactly for equal multisets that are not empty
(`similarity_proper`).
-/

namespace CodeAtlas.Analysis

open Candidate (similarity)
open Number (ratio)
open Syntax (Node Label)

namespace Profile

variable {a b : Profile}

/-- The pairs, each as often as it occurs. -/
def bag (p : Profile) : Multiset (String × String) := p.pairs

theorem card_bag (p : Profile) : p.bag.card = p.pairs.length := rfl

theorem bag_eq_zero_iff (p : Profile) : p.bag = 0 ↔ p.pairs = [] :=
  Multiset.coe_eq_zero p.pairs

/-! ## Shared pairs -/

theorem sharedCount_eq_card (pairs others : List (String × String)) :
    sharedCount pairs others =
      ((pairs : Multiset (String × String)) ∩ (others : Multiset (String × String))).card := by
  induction pairs generalizing others with
  | nil => simp [sharedCount]
  | cons p rest ih =>
    rw [sharedCount, ← Multiset.cons_coe]
    by_cases hp : p ∈ others
    · have hmem : p ∈ (others : Multiset (String × String)) := Multiset.mem_coe.mpr hp
      -- Lists and multisets are told apart by different tests for equal pairs.
      have herase : (others : Multiset (String × String)).erase p = others.erase p := by
        rw [Multiset.coe_erase]
        congr!
      rw [if_pos (List.contains_iff_mem.mpr hp), ih, Multiset.cons_inter_of_pos _ hmem,
        Multiset.card_cons, herase]
    · have hmem : p ∉ (others : Multiset (String × String)) := mt Multiset.mem_coe.mp hp
      rw [if_neg (mt List.contains_iff_mem.mp hp), ih, Multiset.cons_inter_of_neg _ hmem]

theorem shared_eq_card (a b : Profile) : shared a b = (a.bag ∩ b.bag).card :=
  sharedCount_eq_card a.pairs b.pairs

theorem shared_comm (a b : Profile) : shared a b = shared b a := by
  rw [shared_eq_card, shared_eq_card, Multiset.inter_comm]

/-- Counted pair by pair over one side. -/
theorem shared_eq_sum (a b : Profile) :
    shared a b = ∑ p ∈ a.bag.toFinset, min (a.bag.count p) (b.bag.count p) := by
  have hmem : ∀ p ∈ a.bag ∩ b.bag, p ∈ a.bag.toFinset := fun p hp =>
    Multiset.mem_toFinset.mpr (Multiset.mem_of_le Multiset.inter_le_left hp)
  rw [shared_eq_card, ← Multiset.sum_count_eq_card hmem]
  exact Finset.sum_congr rfl fun p _ => Multiset.count_inter p a.bag b.bag

/-- All pairs of both sides are shared only if the two sides have the same pairs. -/
theorem two_mul_shared_eq_total_iff : 2 * shared a b = total a b ↔ a.bag = b.bag := by
  have hleft : (a.bag ∩ b.bag).card ≤ a.bag.card := Multiset.card_le_card Multiset.inter_le_left
  have hright : (a.bag ∩ b.bag).card ≤ b.bag.card := Multiset.card_le_card Multiset.inter_le_right
  rw [shared_eq_card, total, ← card_bag, ← card_bag]
  constructor
  · intro hall
    have ha : a.bag ∩ b.bag = a.bag :=
      Multiset.eq_of_le_of_card_le Multiset.inter_le_left (by omega)
    have hb : a.bag ∩ b.bag = b.bag :=
      Multiset.eq_of_le_of_card_le Multiset.inter_le_right (by omega)
    exact ha.symm.trans hb
  · intro heq
    rw [heq, show b.bag ∩ b.bag = b.bag from inf_idem b.bag]
    omega

/-! ## Scores -/

/-- Where there are no pairs at all the quotient is zero as well. -/
theorem ratio_score_eq (a b : Profile) :
    ratio (score a b) = 2 * (shared a b : ℚ) / (a.bag.card + b.bag.card) := by
  have htotal : (total a b : ℚ) = a.bag.card + b.bag.card := by
    rw [total, card_bag, card_bag, Nat.cast_add]
  rw [← htotal, score]
  split
  · rename_i hnone
    simp [ratio, hnone]
  · simp [ratio]

theorem ratio_score_comm (a b : Profile) : ratio (score a b) = ratio (score b a) := by
  rw [ratio_score_eq, ratio_score_eq, shared_comm, add_comm]

theorem ratio_score_nonneg (a b : Profile) : 0 ≤ ratio (score a b) := by
  rw [ratio_score_eq]
  positivity

theorem ratio_score_eq_one_iff : ratio (score a b) = 1 ↔ a.bag = b.bag ∧ a.bag ≠ 0 := by
  by_cases hnone : total a b = 0
  · have ha : a.bag = 0 := by
      rw [bag_eq_zero_iff, ← List.length_eq_zero_iff]
      unfold total at hnone
      omega
    have hzero : ratio (score a b) = 0 := by
      rw [score, if_pos hnone]
      simp [ratio]
    simp [hzero, ha]
  · have htotal : (total a b : ℚ) ≠ 0 := by exact_mod_cast hnone
    have hone : ratio (score a b) = 1 ↔ 2 * shared a b = total a b := by
      rw [score, if_neg hnone, ratio, div_eq_one_iff_eq htotal]
      exact_mod_cast Iff.rfl
    have hfilled : a.bag = b.bag → a.bag ≠ 0 := by
      intro heq ha
      have hb : b.bag = 0 := heq ▸ ha
      rw [bag_eq_zero_iff] at ha hb
      exact hnone (by rw [total, ha, hb]; rfl)
    rw [hone, two_mul_shared_eq_total_iff]
    exact ⟨fun heq => ⟨heq, hfilled heq⟩, And.left⟩

end Profile

/-! ## Nodes -/

theorem Profile.pairsOf_ne_nil {kinds : List String} (h : kinds ≠ []) :
    Profile.pairsOf kinds ≠ [] := by
  match kinds with
  | [] => exact absurd rfl h
  | [kind] => simp [Profile.pairsOf]
  | first :: second :: rest => simp [Profile.pairsOf]

theorem kindSequence_ne_nil {n : Node} (h : n.named = true) : n.kindSequence ≠ [] := by
  rw [Node.kindSequence_eq, Node.preorder_eq, List.filter_cons_of_pos h]
  exact List.cons_ne_nil _ _

theorem bag_ne_zero {n : Node} (h : n.named = true) : (Profile.of n).bag ≠ 0 :=
  mt (Profile.bag_eq_zero_iff _).mp (Profile.pairsOf_ne_nil (kindSequence_ne_nil h))

theorem bag_eq_of_kindSequence_eq {a b : Node} (h : a.kindSequence = b.kindSequence) :
    (Profile.of a).bag = (Profile.of b).bag := by
  rw [Profile.bag, Profile.bag, Profile.of, Profile.of, h]

/-- **Similarity is a proper score.**  For all nodes it is twice the number of shared pairs over the
number of all pairs, the same in either order, between zero and one, and one exactly if both nodes
have the same pairs equally often and have any.  So a named node has the score one with itself and
with every node that has the same named kinds in the same order, be it a single one. -/
theorem similarity_proper (a b : Node) :
    let left := (Profile.of a).bag
    let right := (Profile.of b).bag
    similarity a b =
        2 * ((∑ p ∈ left.toFinset, min (left.count p) (right.count p) : ℕ) : ℚ) /
          (left.card + right.card) ∧
      similarity a b = similarity b a ∧
      0 ≤ similarity a b ∧ similarity a b ≤ 1 ∧
      (similarity a b = 1 ↔ left = right ∧ left ≠ 0) ∧
      (a.named = true → similarity a a = 1 ∧
        (a.kindSequence = b.kindSequence → similarity a b = 1)) := by
  intro left right
  refine ⟨?_, Profile.ratio_score_comm _ _, Profile.ratio_score_nonneg _ _,
    Profile.ratio_score_le_one _ _, Profile.ratio_score_eq_one_iff, fun hnamed => ?_⟩
  · rw [← Profile.shared_eq_sum]
    exact Profile.ratio_score_eq _ _
  · have hfilled := bag_ne_zero hnamed
    refine ⟨Profile.ratio_score_eq_one_iff.mpr ⟨rfl, hfilled⟩, fun hkinds => ?_⟩
    exact Profile.ratio_score_eq_one_iff.mpr ⟨bag_eq_of_kindSequence_eq hkinds, hfilled⟩

/-- A node without children. -/
def leaf (kind : String) (named : Bool) (column : Nat) : Node :=
  .mk { kind, named, missing := false, error := false, field := none,
        span := ⟨column, column + 1, 0, column, 0, column + 1⟩ } []

/-- Two names are alike, whatever they are, and a bracket is not even like itself. -/
theorem similarity_proper_leaf :
    (leaf "identifier" true 0).named = true ∧
    (leaf "identifier" true 0).kindSequence = (leaf "identifier" true 4).kindSequence ∧
    similarity (leaf "identifier" true 0) (leaf "identifier" true 4) = 1 ∧
    similarity (leaf "(" false 2) (leaf "(" false 2) ≠ 1 := by
  have hnamed : (leaf "identifier" true 0).named = true := rfl
  have hkinds : (leaf "identifier" true 0).kindSequence =
      (leaf "identifier" true 4).kindSequence := by
    rw [Node.kindSequence_eq, Node.kindSequence_eq]
    rfl
  have hnone : (Profile.of (leaf "(" false 2)).bag = 0 := by
    rw [Profile.bag, Profile.of, Node.kindSequence_eq]
    rfl
  obtain ⟨-, -, -, -, -, hsame⟩ :=
    similarity_proper (leaf "identifier" true 0) (leaf "identifier" true 4)
  obtain ⟨-, -, -, -, hone, -⟩ := similarity_proper (leaf "(" false 2) (leaf "(" false 2)
  exact ⟨hnamed, hkinds, (hsame hnamed).2 hkinds, fun h => (hone.mp h).2 hnone⟩

end CodeAtlas.Analysis
