import CodeAtlas.Analysis.Similarity
import CodeAtlas.Proofs.Number.Rounding
import Mathlib.Algebra.Order.Floor.Semifield
import Mathlib.Data.Prod.Lex
import Mathlib.Data.Rat.Floor
import Mathlib.Data.String.Basic

/-!
# The order of similar nodes

How similar a node is to another one is a fraction of one, and no node is more similar to a node than
one with the same kinds below it.  Similar nodes are ordered by the fraction in thousandths, so to
round is not to change the order, and then by the place where they are shown.
-/

namespace CodeAtlas.Analysis

open Number (ratio)
open Syntax (Node)

namespace Profile

variable {a b c : Profile}

/-! ## Shared pairs -/

theorem sharedCount_self (pairs : List (String × String)) :
    sharedCount pairs pairs = pairs.length := by
  induction pairs with
  | nil => rfl
  | cons p rest ih => simp [sharedCount, ih]

theorem sharedCount_le_left (pairs others : List (String × String)) :
    sharedCount pairs others ≤ pairs.length := by
  induction pairs generalizing others with
  | nil => exact Nat.le_refl 0
  | cons p rest ih =>
    rw [sharedCount, List.length_cons]
    split
    · exact Nat.succ_le_succ (ih _)
    · exact Nat.le_succ_of_le (ih _)

theorem sharedCount_le_right (pairs others : List (String × String)) :
    sharedCount pairs others ≤ others.length := by
  induction pairs generalizing others with
  | nil => exact Nat.zero_le _
  | cons p rest ih =>
    rw [sharedCount]
    split
    · rename_i hmem
      have hmem := List.contains_iff_mem.mp hmem
      have hrest := ih (others.erase p)
      have hpos := List.length_pos_of_mem hmem
      rw [List.length_erase_of_mem hmem] at hrest
      omega
    · exact ih others

/-! ## Scores -/

theorem den_score_pos (a b : Profile) : 0 < (score a b).2 := by
  unfold score
  split
  · exact Nat.one_pos
  · exact Nat.pos_of_ne_zero ‹_›

theorem ratio_score_le_one (a b : Profile) : ratio (score a b) ≤ 1 := by
  unfold score
  split
  · norm_num [ratio]
  · rename_i htotal
    have hleft := sharedCount_le_left a.pairs b.pairs
    have hright := sharedCount_le_right a.pairs b.pairs
    have hle : 2 * shared a b ≤ total a b := by
      unfold shared total
      omega
    have hpos : (0 : ℚ) < total a b := by exact_mod_cast Nat.pos_of_ne_zero htotal
    rw [ratio, div_le_one hpos]
    exact_mod_cast hle

theorem ratio_score_self (h : a.pairs ≠ []) : ratio (score a a) = 1 := by
  have hpos : 0 < a.pairs.length := List.length_pos_of_ne_nil h
  have htotal : total a a = 2 * a.pairs.length := by
    unfold total
    omega
  rw [score, if_neg (by omega), shared, sharedCount_self, htotal]
  exact div_self (by positivity)

/-- Nothing has a higher score than what is the same. -/
theorem ratio_score_le_self (a b : Profile) : ratio (score a b) ≤ ratio (score a a) := by
  by_cases h : a.pairs = []
  · have hnone (c : Profile) : ratio (score a c) = 0 := by
      have hshared : shared a c = 0 := by rw [shared, h, sharedCount]
      unfold score
      split <;> simp [ratio, hshared]
    rw [hnone, hnone]
  · rw [ratio_score_self h]
    exact ratio_score_le_one a b

theorem reaches_iff {threshold : Nat × Nat} (h : 0 < threshold.2) :
    reaches threshold a b ↔ ratio threshold ≤ ratio (score a b) := by
  have hthreshold : (0 : ℚ) < threshold.2 := by exact_mod_cast h
  have hscore : (0 : ℚ) < (score a b).2 := by exact_mod_cast den_score_pos a b
  rw [reaches, decide_eq_true_eq, ratio, ratio, div_le_div_iff₀ hthreshold hscore]
  exact_mod_cast Iff.rfl

/-- The score in thousandths is the nearest one, and the greater one of two. -/
theorem thousandths_eq (a b : Profile) :
    thousandths a b = ⌊1000 * ratio (score a b) + 1 / 2⌋₊ := by
  have hpos : ((score a b).2 : ℚ) ≠ 0 := by exact_mod_cast (den_score_pos a b).ne'
  have hquotient : 1000 * ratio (score a b) + 1 / 2 =
      ((2 * 1000 * (score a b).1 + (score a b).2 : Nat) : ℚ) / ((2 * (score a b).2 : Nat) : ℚ) := by
    rw [ratio]
    push_cast
    field_simp
    ring
  rw [hquotient, Nat.floor_div_eq_div]
  rfl

/-- To round does not change an order, though it may lose it. -/
theorem thousandths_le (h : ratio (score a b) ≤ ratio (score a c)) :
    thousandths a b ≤ thousandths a c := by
  rw [thousandths_eq, thousandths_eq]
  exact Nat.floor_mono (by linarith)

end Profile

/-! ## The order -/

namespace Similar

variable {a b c : Similar}

/-- What the order looks at, first things first; a higher score comes first. -/
def key (s : Similar) : ℕᵒᵈ ×ₗ String ×ₗ ℕ :=
  toLex (OrderDual.toDual s.score, toLex (s.path, s.span.startByte))

theorem before_iff_key : before a b ↔ a.key ≤ b.key := by
  unfold before key
  rw [Prod.Lex.toLex_le_toLex, Prod.Lex.toLex_le_toLex]
  by_cases hscore : a.score = b.score
  · by_cases hpath : a.path = b.path
    · simp [hscore, hpath]
    · simp [hscore, hpath]
  · simp [hscore]

theorem before_trans (a b c : Similar) (hab : before a b) (hbc : before b c) : before a c :=
  before_iff_key.mpr ((before_iff_key.mp hab).trans (before_iff_key.mp hbc))

theorem before_total (a b : Similar) : before a b || before b a := by
  rw [Bool.or_eq_true, before_iff_key, before_iff_key]
  exact le_total a.key b.key

/-- What comes before has no lower score. -/
theorem score_le_of_before (h : before a b) : b.score ≤ a.score := by
  unfold before at h
  split at h
  · exact (of_decide_eq_true h).le
  · rename_i hscore
    exact (not_not.mp hscore).ge

end Similar

/-! ## Candidates -/

/-- A node of a document, with its number in the order in which the nodes are visited. -/
structure Candidate where
  document : Document
  number : Nat
  node : Node

namespace Candidate

variable {construct : Node} {threshold : Nat × Nat} {d : Document} {docs : List Document}
  {s c : Candidate}

/-- Where the node is, so that no two nodes of the documents shown by different paths are at the same
place. -/
def place (c : Candidate) : String × Nat := (c.document.displayPath, c.number)

/-- How similar a node is to a construct. -/
def similarity (construct n : Node) : ℚ := ratio (Profile.score (.of construct) (.of n))

/-- The node is there and of the kind of the construct, and similar enough to it. -/
structure Fits (construct : Node) (threshold : Nat × Nat) (c : Candidate) : Prop where
  there : c.document.root.preorder[c.number]? = some c.node
  kind : c.node.kind = construct.kind
  similar : ratio threshold ≤ similarity construct c.node

def report (construct : Node) (c : Candidate) : Similar :=
  .ofNode c.document (.of construct) c.node

def inDocument (construct : Node) (threshold : Nat × Nat) (d : Document) : List Candidate :=
  (d.root.preorder.zipIdx.filter fun x =>
    x.1.kind = construct.kind && Profile.reaches threshold (.of construct) (.of x.1)).map fun x =>
      ⟨d, x.2, x.1⟩

theorem map_report_inDocument (construct : Node) (threshold : Nat × Nat) (d : Document) :
    (inDocument construct threshold d).map (report construct) =
      Similar.within d (.of construct) threshold := by
  rw [Similar.within, inDocument, List.map_map]
  conv_rhs => rw [← List.zipIdx_map_fst 0 d.root.preorder, List.filter_map, List.map_map]
  rfl

theorem mem_inDocument_iff (h : 0 < threshold.2) :
    c ∈ inDocument construct threshold d ↔ c.document = d ∧ c.Fits construct threshold := by
  simp only [inDocument, List.mem_map, List.mem_filter, List.mem_zipIdx_iff_getElem?,
    Bool.and_eq_true, decide_eq_true_eq, Profile.reaches_iff h]
  constructor
  · rintro ⟨⟨n, i⟩, ⟨hthere, hkind, hsimilar⟩, rfl⟩
    exact ⟨rfl, hthere, hkind, hsimilar⟩
  · rintro ⟨rfl, hthere, hkind, hsimilar⟩
    exact ⟨(c.node, c.number), ⟨hthere, hkind, hsimilar⟩, rfl⟩

theorem nodup_number_inDocument (construct : Node) (threshold : Nat × Nat) (d : Document) :
    ((inDocument construct threshold d).map number).Nodup := by
  rw [inDocument, List.map_map]
  have hall : (d.root.preorder.zipIdx.map Prod.snd).Nodup := by
    rw [List.zipIdx_map_snd]
    exact List.nodup_range'
  exact hall.sublist (List.filter_sublist.map _)

/-- The node is there, of the kind of the construct and with the same kinds below it. -/
structure Copies (construct : Node) (s : Candidate) : Prop where
  there : s.document.root.preorder[s.number]? = some s.node
  kind : s.node.kind = construct.kind
  kinds : s.node.kindSequence = construct.kindSequence

theorem Copies.profile (h : s.Copies construct) : Profile.of s.node = .of construct := by
  rw [Profile.of, Profile.of, h.kind, h.kinds]

/-- Nothing is more similar to a construct than a copy of it. -/
theorem Copies.similarity_le (h : s.Copies construct) (n : Node) :
    similarity construct n ≤ similarity construct s.node := by
  rw [similarity, similarity, h.profile]
  exact Profile.ratio_score_le_self _ _

theorem Copies.similarity_eq (h : s.Copies construct) (hne : construct.kindSequence ≠ []) :
    similarity construct s.node = 1 := by
  rw [similarity, h.profile]
  refine Profile.ratio_score_self fun hpairs => ?_
  cases hkinds : construct.kindSequence with
  | nil => exact hne hkinds
  | cons first rest =>
    rw [Profile.of, hkinds] at hpairs
    cases rest <;> simp [Profile.pairsOf] at hpairs

/-! ## Ranking -/

/-- The nodes of the documents that fit, those most similar to the construct first. -/
def ranking (construct : Node) (threshold : Nat × Nat) (docs : List Document) : List Candidate :=
  (docs.flatMap (inDocument construct threshold)).mergeSort fun a b =>
    (a.report construct).before (b.report construct)

theorem map_report_ranking (construct : Node) (threshold : Nat × Nat) (docs : List Document) :
    (ranking construct threshold docs).map (report construct) =
      (docs.flatMap fun d => Similar.within d (.of construct) threshold).mergeSort
        Similar.before := by
  rw [ranking, List.map_mergeSort (f := report construct) (s := Similar.before) fun _ _ _ _ => rfl,
    List.map_flatMap]
  simp only [map_report_inDocument]

theorem mem_ranking_iff (h : 0 < threshold.2) :
    c ∈ ranking construct threshold docs ↔ c.document ∈ docs ∧ c.Fits construct threshold := by
  rw [ranking, List.mem_mergeSort, List.mem_flatMap]
  simp only [mem_inDocument_iff h]
  constructor
  · rintro ⟨d, hd, rfl, hfits⟩
    exact ⟨hd, hfits⟩
  · rintro ⟨hd, hfits⟩
    exact ⟨_, hd, rfl, hfits⟩

theorem pairwise_ranking (construct : Node) (threshold : Nat × Nat) (docs : List Document) :
    ((ranking construct threshold docs).map (report construct)).Pairwise (Similar.before · ·) := by
  rw [map_report_ranking]
  exact List.pairwise_mergeSort Similar.before_trans Similar.before_total _

/-- No node is there twice if no two documents are shown by the same path. -/
theorem nodup_place_ranking (construct : Node) (threshold : Nat × Nat)
    (h : (docs.map Document.displayPath).Nodup) :
    ((ranking construct threshold docs).map place).Nodup := by
  have hplaces (d : Document) : (inDocument construct threshold d).map place =
      ((inDocument construct threshold d).map number).map (d.displayPath, ·) := by
    simp [inDocument, place]
  rw [ranking, ((List.mergeSort_perm _ _).map place).nodup_iff, List.map_flatMap, List.nodup_flatMap]
  constructor
  · intro d _
    rw [hplaces]
    exact (nodup_number_inDocument construct threshold d).map fun _ _ heq => (Prod.mk.inj heq).2
  · refine (List.pairwise_map.mp h).imp fun {d d'} hne => ?_
    rw [Function.onFun, hplaces, hplaces]
    intro x hx hx'
    obtain ⟨i, -, rfl⟩ := List.mem_map.mp hx
    obtain ⟨j, -, heq⟩ := List.mem_map.mp hx'
    exact hne (Prod.mk.inj heq).1.symm

/-- Of two that fit, the one with the higher score is ahead. -/
theorem ahead_of_score_lt (hs : s ∈ ranking construct threshold docs)
    (hc : c ∈ ranking construct threshold docs)
    (hlt : (c.report construct).score < (s.report construct).score) :
    List.Sublist [s, c] (ranking construct threshold docs) := by
  have hsorted := List.pairwise_map.mp (pairwise_ranking construct threshold docs)
  obtain ⟨front, back, hsplit⟩ := List.append_of_mem hs
  rw [hsplit] at hc hsorted ⊢
  have hback : c ∈ back := by
    rcases List.mem_append.mp hc with hc | hc
    · have hbefore := (List.pairwise_append.mp hsorted).2.2 c hc s List.mem_cons_self
      exact absurd (Similar.score_le_of_before hbefore) (Nat.not_le_of_lt hlt)
    · rcases List.mem_cons.mp hc with rfl | hc
      · exact absurd hlt (Nat.lt_irrefl _)
      · exact hc
  exact ((List.singleton_sublist.mpr hback).cons_cons s).trans (List.sublist_append_right front _)

end Candidate

end CodeAtlas.Analysis
