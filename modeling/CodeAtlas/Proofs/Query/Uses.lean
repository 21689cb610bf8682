import CodeAtlas.Proofs.Query.Usage
import CodeAtlas.Proofs.Syntax.Spots
import CodeAtlas.Query.Hit

/-!
# What the query for the uses of a name finds

The query for the uses of a name has one pattern, which takes a node of one of some kinds, and one
condition on the text of the node.  So on a tree it has one match for each node of these kinds with
this text, and its matches are listed in the order of the tree (`all_query`).
-/

namespace CodeAtlas.Query

open Syntax (Spot Label)

/-- Matches with different keys are all kept. -/
theorem distinct_eq_self {ms : List Match} {seen : List (Nat × List (String × Nat))}
    (hnodup : (ms.map fun m => (m.clause, m.key)).Nodup)
    (hseen : ∀ m ∈ ms, (m.clause, m.key) ∉ seen) : distinct seen ms = ms := by
  induction ms generalizing seen with
  | nil => rfl
  | cons m ms ih =>
    obtain ⟨hm, hnodup⟩ := List.nodup_cons.mp hnodup
    have hnew : ¬ seen.contains (m.clause, m.key) = true := fun h =>
      hseen m List.mem_cons_self (List.contains_iff_mem.mp h)
    rw [distinct, if_neg hnew, ih hnodup]
    intro m' hm' hmem
    rcases List.mem_cons.mp hmem with heq | hmem
    · exact hm (List.mem_map.mpr ⟨m', hm', heq⟩)
    · exact hseen m' (List.mem_cons_of_mem m hm') hmem

namespace Usage

variable {kinds : List String}

/-- A node is of one of the kinds. -/
def wants (kinds : List String) (l : Label) : Bool :=
  l.named && kinds.contains l.kind

/-- The only match at a node. -/
def matchOf (s : Spot) : Match where
  clause := 0
  start := s.index
  found := { captures := [⟨"usage", s⟩], last := s.index }

/-! ## One node -/

theorem matchAt_kind (kind : String) (s : Spot) (rest : List Spot) :
    (Pattern.node { test := .kind kind true, captures := ["usage"] } [] false).matchAt (s :: rest) =
      if s.label.kind = kind ∧ s.label.named = true then [((matchOf s).found, rest)] else [] := by
  rw [Pattern.matchAt]
  have haccepts : Head.accepts { test := .kind kind true, captures := ["usage"] } s =
      decide (s.label.kind = kind ∧ s.label.named = true) := by
    simp [Head.accepts, Test.accepts]
  simp only [haccepts, decide_eq_true_eq, matchItems]
  split_ifs
  · simp [Head.found, Found.append, matchOf]
  · rfl

/-- No node is of two kinds. -/
theorem matchEach_kinds (h : kinds.Nodup) (s : Spot) (rest : List Spot) :
    matchEach (kinds.map fun kind =>
        .node { test := .kind kind true, captures := ["usage"] } [] false) (s :: rest) =
      if wants kinds s.label then [((matchOf s).found, rest)] else [] := by
  induction kinds with
  | nil => simp [matchEach, wants]
  | cons kind kinds ih =>
    obtain ⟨hkind, hkinds⟩ := List.nodup_cons.mp h
    rw [List.map_cons, matchEach, matchAt_kind, ih hkinds]
    by_cases hhere : s.label.kind = kind
    · have hlater : s.label.kind ∉ kinds := hhere ▸ hkind
      by_cases hnamed : s.label.named = true <;> simp [wants, hhere, hkind, hnamed]
    · simp [wants, hhere]

theorem matchAt_group (h : kinds.Nodup) (s : Spot) (rest : List Spot) :
    (Pattern.group [(false, choice kinds)]).matchAt (s :: rest) =
      if wants kinds s.label then [((matchOf s).found, rest)] else [] := by
  have hchoice := matchEach_kinds h s rest
  simp only [Pattern.matchAt, matchGroup, choice, hchoice]
  split_ifs <;> simp [matchItems, Found.append, matchOf]

/-! ## A tree -/

theorem hasQuantifier_group (kinds : List String) :
    (Pattern.group [(false, choice kinds)]).hasQuantifier = false := by
  have heach : Pattern.eachQuantifier (kinds.map fun kind =>
      .node { test := .kind kind true, captures := ["usage"] } [] false) = false := by
    induction kinds with
    | nil => rfl
    | cons kind kinds ih =>
      rw [List.map_cons, Pattern.eachQuantifier, ih]
      rfl
  rw [Pattern.hasQuantifier, Pattern.anyQuantifier, choice, Pattern.hasQuantifier, heach]
  rfl

theorem rooted_group (kinds : List String) :
    (Pattern.group [(false, choice kinds)]).rooted = true := by
  simp [Pattern.rooted, choice]

theorem allMatches_group (h : kinds.Nodup) (error : Bool) (ss : List Spot) :
    (Pattern.group [(false, choice kinds)]).allMatches 0 (Spot.levelsOf error ss) =
      ((Spot.preorderAll ss).filter fun s => wants kinds s.label).map matchOf := by
  have hfilter (spots : List Spot) : (spots.filter fun s => wants kinds s.label).map matchOf =
      spots.flatMap fun s => if wants kinds s.label then [matchOf s] else [] := by
    induction spots with
    | nil => rfl
    | cons s rest ih =>
      rw [List.flatMap_cons, ← ih]
      by_cases hs : wants kinds s.label = true <;> simp [hs]
  have hfirst (s : Spot) (rest : List Spot) :
      ((Pattern.group [(false, choice kinds)]).matchAt (s :: rest)).map (fun x =>
        (⟨0, ((s :: rest).head?.map Spot.index).getD 0, x.1⟩ : Match)) =
      if wants kinds s.label then [matchOf s] else [] := by
    rw [matchAt_group h]
    split_ifs <;> rfl
  have hlevels := Spot.flatMap_levelsOf (g := fun ss =>
    ((Pattern.group [(false, choice kinds)]).matchAt ss).map fun x =>
      (⟨0, (ss.head?.map Spot.index).getD 0, x.1⟩ : Match)) hfirst error ss
  rw [hfilter, ← hlevels, Pattern.allMatches, hasQuantifier_group, rooted_group]
  simp

/-- The matches are in order as they are found, and no two are alike. -/
theorem shapes_query (h : kinds.Nodup) (symbol : String) (root : Syntax.Node) :
    (query kinds symbol).shapes root =
      ((Spot.ofRoot root).preorder.filter fun s => wants kinds s.label).map matchOf := by
  have hall := allMatches_group h false [Spot.ofRoot root]
  rw [Spot.preorderAll, Spot.preorderAll, List.append_nil] at hall
  have hfound : (query kinds symbol).shapes root =
      distinct [] ((((Spot.ofRoot root).preorder.filter fun s => wants kinds s.label).map
        matchOf).mergeSort Match.before) := by
    simp [shapes, query, hall]
  have hindices : (((Spot.ofRoot root).preorder.filter fun s => wants kinds s.label).map
      Spot.index).Pairwise (· < ·) := by
    have hrange : ((Spot.ofRoot root).preorder.map Spot.index).Pairwise (· < ·) := by
      rw [Spot.indices_ofRoot]
      exact List.pairwise_lt_range'
    exact hrange.sublist (List.filter_sublist.map _)
  rw [hfound]
  generalize (Spot.ofRoot root).preorder.filter (fun s => wants kinds s.label) = spots at hindices ⊢
  rw [List.pairwise_map] at hindices
  have hsorted : (spots.map matchOf).Pairwise (Match.before · ·) := by
    refine List.pairwise_map.mpr (hindices.imp fun {s t} hlt => ?_)
    simp [Match.before, matchOf, hlt, Nat.ne_of_lt hlt]
  have hkeys : ((spots.map matchOf).map fun m => (m.clause, m.key)).Nodup := by
    rw [List.map_map]
    refine List.pairwise_map.mpr (hindices.imp fun {s t} hlt heq => ?_)
    simp [Match.key, matchOf, Nat.ne_of_lt hlt] at heq
  rw [List.mergeSort_of_pairwise hsorted, distinct_eq_self hkeys fun m _ => List.not_mem_nil]

theorem nodup_kindsOf {language : Language} : (kindsOf language).Nodup := by
  have hkinds : Usage.kinds.Nodup := by decide +kernel
  exact hkinds.filter _

/-! ## Hits -/

/-- A node is of one of the kinds and has the name as its text. -/
def isUse (kinds : List String) (symbol : String) (source : List UInt8) (l : Label) : Bool :=
  wants kinds l && l.span.octets source = Text.Utf8.encode symbol.toList

/-- What is told of a use. -/
def hitOf (d : Document) (l : Label) : Hit where
  path := d.displayPath
  capture := "usage"
  kind := l.kind
  span := l.span
  text := String.ofList (Text.truncate Hit.textLimit (l.span.text d.source).toList).1

theorem holds_matchOf (source : List UInt8) (symbol : String) (s : Spot) :
    (Predicate.hasText ⟨true, true⟩ "usage" symbol).holds source (matchOf s) =
      decide (s.label.span.octets source = Text.Utf8.encode symbol.toList) := by
  simp [Predicate.holds, Mode.holds, Match.nodes, matchOf]

theorem ofMatch_matchOf (d : Document) (s : Spot) :
    Hit.ofMatch d (matchOf s) = [hitOf d s.label] := by
  have hshown : Hit.isHelper "usage" = false := by decide
  simp [Hit.ofMatch, matchOf, hshown, Hit.ofCapture, hitOf]

theorem run_query (h : kinds.Nodup) (symbol : String) (root : Syntax.Node) (source : List UInt8) :
    (query kinds symbol).run root source =
      ((Spot.ofRoot root).preorder.filter fun s => isUse kinds symbol source s.label).map
        matchOf := by
  rw [run, shapes_query h, List.filter_map, List.filter_filter]
  refine congrArg (List.map matchOf) (List.filter_congr fun s _ => ?_)
  have hclause : (query kinds symbol).clauses[(matchOf s).clause]? =
      some ⟨some (.group [(false, choice kinds)]), [.hasText ⟨true, true⟩ "usage" symbol]⟩ := rfl
  simp only [Function.comp, hclause, List.all_cons, List.all_nil, Bool.and_true, holds_matchOf]
  rw [isUse, Bool.and_comm]

/-- **What the query finds** is every node of the kinds with the name as its text, in the order of
the tree. -/
theorem all_query (h : kinds.Nodup) (symbol : String) (d : Document) :
    Hit.all (query kinds symbol) d =
      (d.root.preorder.filter fun n => isUse kinds symbol d.source n.label).map fun n =>
        hitOf d n.label := by
  have hlabels := congrArg (List.map Prod.fst) (Spot.places_ofRoot d.root)
  rw [List.map_map, List.map_map] at hlabels
  have hspots := congrArg
    (fun labels => (labels.filter (isUse kinds symbol d.source)).map (hitOf d)) hlabels
  simp only [List.filter_map, List.map_map] at hspots
  rw [Hit.all, run_query h, List.flatMap_map]
  simp only [ofMatch_matchOf]
  rw [← List.map_eq_flatMap]
  refine hspots.trans ?_
  conv_rhs => rw [← List.zipIdx_map_fst 0 d.root.preorder, List.filter_map, List.map_map]
  rfl

end Usage

end CodeAtlas.Query
