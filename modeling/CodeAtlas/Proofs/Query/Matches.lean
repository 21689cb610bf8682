import CodeAtlas.Proofs.Syntax.Spots
import CodeAtlas.Query.Match

/-!
# What the matches of a query are

A pattern is matched by listing the ways it can be matched, and the matches of a query are sorted and
made distinct.  This file says without lists what is found.

* `Pattern.Takes` and `ItemsTake` are the ways as relations, with one law for each construction of a
  pattern that a template uses.
* `Clause.Matches` says what a clause captures in a tree, and `exists_mem_run_iff` that the matches of
  a query are those of its clauses.  A match that is dropped has the clause and the captures of one
  that is kept: captures are compared by the numbers of their nodes, and no two nodes of a tree have
  the same number.
-/

namespace CodeAtlas.Query

open Syntax (Node Spot)

/-! ## Siblings -/

theorem mem_starts {anchored : Bool} {ss from' : List Spot} (h : from' ∈ starts anchored ss) :
    from' <:+ ss := by
  induction ss with
  | nil => cases h
  | cons s rest ih =>
    rw [starts] at h
    rcases List.mem_cons.mp h with rfl | h
    · exact List.suffix_rfl
    · split at h
      · cases h
      · exact (ih h).trans (List.suffix_cons s rest)

theorem mem_starts_free_iff {ss from' : List Spot} :
    from' ∈ starts false ss ↔ from' <:+ ss ∧ from' ≠ [] := by
  induction ss with
  | nil => simp [starts]
  | cons s rest ih =>
    rw [starts, List.mem_cons, Bool.false_and, if_neg Bool.false_ne_true, ih, List.suffix_cons_iff]
    constructor
    · rintro (rfl | ⟨h, hne⟩)
      · exact ⟨.inl rfl, List.cons_ne_nil _ _⟩
      · exact ⟨.inr h, hne⟩
    · rintro ⟨rfl | h, hne⟩
      · exact .inl rfl
      · exact .inr ⟨h, hne⟩

/-! ## One pattern -/

theorem matchAt_nil (p : Pattern) : p.matchAt [] = [] := by
  cases p <;> rfl

theorem matchEach_nil (ps : List Pattern) : matchEach ps [] = [] := by
  induction ps with
  | nil => rfl
  | cons p ps ih => rw [matchEach, matchAt_nil, ih, List.append_nil]

theorem matchGroup_nil (items : List (Bool × Pattern)) : matchGroup items [] = [] := by
  induction items with
  | nil => rfl
  | cons item items ih => simp [matchGroup, matchAt_nil, ih]

theorem matchAt_choice (ps : List Pattern) (ss : List Spot) :
    (Pattern.choice ps).matchAt ss = matchEach ps ss := by
  cases ss with
  | nil => rw [matchAt_nil, matchEach_nil]
  | cons s rest => rw [Pattern.matchAt]; exact nofun

theorem matchAt_group (items : List (Bool × Pattern)) (ss : List Spot) :
    (Pattern.group items).matchAt ss = matchGroup items ss := by
  cases ss with
  | nil => rw [matchAt_nil, matchGroup_nil]
  | cons s rest => rw [Pattern.matchAt]; exact nofun

theorem matchAt_optional (p : Pattern) (ss : List Spot) : p.optional.matchAt ss = p.matchAt ss := by
  cases ss with
  | nil => rw [matchAt_nil, matchAt_nil]
  | cons s rest => rw [Pattern.matchAt]; exact nofun

theorem matchAt_star (p : Pattern) (ss : List Spot) :
    p.star.matchAt ss = runs (fun ss => p.matchAt ss) ss.length ss := by
  cases ss with
  | nil => rfl
  | cons s rest => rw [Pattern.matchAt]; exact nofun

theorem matchAt_plus (p : Pattern) (ss : List Spot) :
    p.plus.matchAt ss = runs (fun ss => p.matchAt ss) ss.length ss := by
  cases ss with
  | nil => rfl
  | cons s rest => rw [Pattern.matchAt]; exact nofun

/-! ## Items -/

/-- Where an item may be taken: a repetition starts where it first can. -/
def placesOf (p : Pattern) (anchored : Bool) (ss : List Spot) : List (List Spot) :=
  match p with
  | .star q | .plus q => ((starts anchored ss).find? fun ss => !(q.matchAt ss).isEmpty).toList
  | _ => starts anchored ss

/-- The ways to match a pattern at one of some places and then further items. -/
def chain (p : Pattern) (items : List (Bool × Pattern)) (places : List (List Spot)) :
    List (Found × List Spot) :=
  places.flatMap fun ss => (p.matchAt ss).flatMap fun x =>
    (matchItems items x.2).map fun y => (x.1.append y.1, y.2)

theorem matchItems_cons (anchored : Bool) (p : Pattern) (items : List (Bool × Pattern))
    (ss : List Spot) :
    matchItems ((anchored, p) :: items) ss =
      if p.skippable then chain p items (placesOf p anchored ss) ++ matchItems items ss
      else chain p items (placesOf p anchored ss) := by
  cases p <;> rfl

theorem matchGroup_cons (anchored : Bool) (p : Pattern) (items : List (Bool × Pattern))
    (ss : List Spot) :
    matchGroup ((anchored, p) :: items) ss =
      if p.skippable then chain p items [ss] ++ matchGroup items ss else chain p items [ss] := by
  rw [matchGroup, chain, List.flatMap_singleton]

theorem mem_chain_iff {p : Pattern} {items : List (Bool × Pattern)} {places : List (List Spot)}
    {x : Found × List Spot} :
    x ∈ chain p items places ↔ ∃ ss ∈ places, ∃ y ∈ p.matchAt ss, ∃ z ∈ matchItems items y.2,
      (y.1.append z.1, z.2) = x := by
  simp only [chain, List.mem_flatMap, List.mem_map]

theorem suffix_of_mem_placesOf {p : Pattern} {anchored : Bool} {ss from' : List Spot}
    (h : from' ∈ placesOf p anchored ss) : from' <:+ ss := by
  unfold placesOf at h
  split at h
  · exact mem_starts (List.mem_of_find?_eq_some (Option.mem_toList.mp h))
  · exact mem_starts (List.mem_of_find?_eq_some (Option.mem_toList.mp h))
  · exact mem_starts h

/-! ## Captured nodes -/

/-- What is captured is at or below the siblings, and what is left is an end of them. -/
def Within (ss : List Spot) (x : Found × List Spot) : Prop :=
  (∀ c ∈ x.1.captures, c.node ∈ Spot.preorderAll ss) ∧ x.2 <:+ ss

namespace Within

variable {ss mid : List Spot} {f g : Found} {rest : List Spot} {x : Found × List Spot}

theorem mono (hmid : mid <:+ ss) (h : Within mid x) : Within ss x :=
  ⟨fun c hc => Spot.preorderAll_subset_of_suffix hmid (h.1 c hc), h.2.trans hmid⟩

theorem append (h : Within ss (f, mid)) (h' : Within mid (g, rest)) :
    Within ss (f.append g, rest) := by
  refine ⟨fun c hc => ?_, h'.2.trans h.2⟩
  rcases List.mem_append.mp hc with hc | hc
  · exact h.1 c hc
  · exact Spot.preorderAll_subset_of_suffix h.2 (h'.1 c hc)

theorem runs {step : List Spot → List (Found × List Spot)}
    (h : ∀ ss, ∀ x ∈ step ss, Within ss x) (fuel : Nat) (ss : List Spot) :
    ∀ x ∈ runs step fuel ss, Within ss x := by
  induction fuel generalizing ss with
  | zero => exact fun x hx => absurd hx List.not_mem_nil
  | succ fuel ih =>
    intro x hx
    rw [Query.runs] at hx
    obtain ⟨⟨f, rest⟩, hstep, hx⟩ := List.mem_flatMap.mp hx
    rcases List.mem_cons.mp hx with rfl | hx
    · exact h ss _ hstep
    · obtain ⟨⟨g, rest'⟩, hmore, rfl⟩ := List.mem_map.mp hx
      exact (h ss _ hstep).append (ih rest _ hmore)

theorem chain {p : Pattern} {items : List (Bool × Pattern)} {places : List (List Spot)}
    (hp : ∀ ss, ∀ x ∈ p.matchAt ss, Within ss x)
    (hitems : ∀ ss, ∀ x ∈ matchItems items ss, Within ss x)
    (hplaces : ∀ from' ∈ places, from' <:+ ss) : ∀ x ∈ chain p items places, Within ss x := by
  intro x hx
  obtain ⟨from', hfrom, y, hy, z, hz, rfl⟩ := mem_chain_iff.mp hx
  exact ((hp from' y hy).append (hitems y.2 z hz)).mono (hplaces from' hfrom)

end Within

mutual

theorem Pattern.within_matchAt : ∀ (p : Pattern) (ss : List Spot), ∀ x ∈ p.matchAt ss, Within ss x
  | .node head items closed, [] => fun x hx => absurd hx List.not_mem_nil
  | .node head items closed, s :: rest => by
    intro x hx
    rw [Pattern.matchAt] at hx
    split at hx
    · obtain ⟨⟨f, after⟩, hf, rfl⟩ := List.mem_map.mp hx
      have hitems := within_matchItems items s.children _ (List.mem_filter.mp hf).1
      refine ⟨fun c hc => ?_, List.suffix_cons s rest⟩
      rw [Spot.preorderAll, Spot.preorder_eq]
      rcases List.mem_append.mp hc with hc | hc
      · obtain ⟨name, -, rfl⟩ := List.mem_map.mp hc
        exact List.mem_append_left _ List.mem_cons_self
      · exact List.mem_append_left _ (List.mem_cons_of_mem s (hitems.1 c hc))
    · cases hx
  | .choice patterns, ss => by
    rw [matchAt_choice]
    exact within_matchEach patterns ss
  | .group items, ss => by
    rw [matchAt_group]
    exact within_matchGroup items ss
  | .optional p, ss => by
    rw [matchAt_optional]
    exact p.within_matchAt ss
  | .star p, ss => by
    rw [matchAt_star]
    exact .runs p.within_matchAt _ _
  | .plus p, ss => by
    rw [matchAt_plus]
    exact .runs p.within_matchAt _ _

theorem within_matchEach : ∀ (ps : List Pattern) (ss : List Spot), ∀ x ∈ matchEach ps ss, Within ss x
  | [], _ => fun x hx => absurd hx List.not_mem_nil
  | p :: ps, ss => by
    intro x hx
    rw [matchEach] at hx
    rcases List.mem_append.mp hx with hx | hx
    · exact p.within_matchAt ss x hx
    · exact within_matchEach ps ss x hx

theorem within_matchItems : ∀ (items : List (Bool × Pattern)) (ss : List Spot),
    ∀ x ∈ matchItems items ss, Within ss x
  | [], ss => by
    intro x hx
    rw [matchItems] at hx
    obtain rfl := List.mem_singleton.mp hx
    exact ⟨fun c hc => absurd hc List.not_mem_nil, List.suffix_rfl⟩
  | (anchored, p) :: items, ss => by
    have hchain := Within.chain p.within_matchAt (within_matchItems items)
      fun from' (hfrom : from' ∈ placesOf p anchored ss) => suffix_of_mem_placesOf hfrom
    intro x hx
    rw [matchItems_cons] at hx
    split at hx
    · rcases List.mem_append.mp hx with hx | hx
      · exact hchain x hx
      · exact within_matchItems items ss x hx
    · exact hchain x hx

theorem within_matchGroup : ∀ (items : List (Bool × Pattern)) (ss : List Spot),
    ∀ x ∈ matchGroup items ss, Within ss x
  | [], _ => fun x hx => absurd hx List.not_mem_nil
  | (anchored, p) :: items, ss => by
    have hhere : ∀ from' ∈ [ss], from' <:+ ss := List.forall_mem_singleton.mpr List.suffix_rfl
    have hchain := Within.chain p.within_matchAt (within_matchItems items) hhere
    intro x hx
    rw [matchGroup_cons] at hx
    split at hx
    · rcases List.mem_append.mp hx with hx | hx
      · exact hchain x hx
      · exact within_matchGroup items ss x hx
    · exact hchain x hx

end

/-! ## Ways of matching as relations -/

/-- The pattern can be matched from the first of the siblings on, with these captures and these
siblings left. -/
def Pattern.Takes (p : Pattern) (ss : List Spot) (captures : List Capture) (rest : List Spot) :
    Prop :=
  ∃ x ∈ p.matchAt ss, x.1.captures = captures ∧ x.2 = rest

/-- The items can be matched among the siblings. -/
def ItemsTake (items : List (Bool × Pattern)) (ss : List Spot) (captures : List Capture)
    (rest : List Spot) : Prop :=
  ∃ x ∈ matchItems items ss, x.1.captures = captures ∧ x.2 = rest

/-- What a head captures at a node. -/
def Head.captured (h : Head) (s : Spot) : List Capture :=
  h.captures.map fun name => ⟨name, s⟩

/-- The pattern takes its nodes once, and a list of patterns cannot do without it. -/
def Pattern.once : Pattern → Bool
  | .optional _ | .star _ | .plus _ => false
  | _ => true

section

variable {p : Pattern} {items : List (Bool × Pattern)} {ss rest : List Spot}
  {captures : List Capture}

theorem takes_node_iff {head : Head} :
    (Pattern.node head items false).Takes ss captures rest ↔
      ∃ s, ss = s :: rest ∧ head.accepts s = true ∧
        ∃ below after, ItemsTake items s.children below after ∧
          captures = head.captured s ++ below := by
  cases ss with
  | nil => simp [Pattern.Takes, matchAt_nil]
  | cons s ss =>
    simp only [Pattern.Takes, Pattern.matchAt, ItemsTake]
    constructor
    · rintro ⟨x, hx, rfl, rfl⟩
      split at hx
      · rename_i haccepts
        obtain ⟨y, hy, rfl⟩ := List.mem_map.mp hx
        exact ⟨s, rfl, haccepts, _, _, ⟨y, (List.mem_filter.mp hy).1, rfl, rfl⟩, rfl⟩
      · cases hx
    · rintro ⟨t, heq, haccepts, below, after, ⟨y, hy, rfl, rfl⟩, rfl⟩
      obtain ⟨rfl, rfl⟩ := List.cons.inj heq
      rw [if_pos haccepts]
      exact ⟨_, List.mem_map.mpr ⟨y, List.mem_filter.mpr ⟨hy, rfl⟩, rfl⟩, rfl, rfl⟩

theorem takes_choice_iff {ps : List Pattern} :
    (Pattern.choice ps).Takes ss captures rest ↔ ∃ p ∈ ps, p.Takes ss captures rest := by
  rw [Pattern.Takes, matchAt_choice]
  induction ps with
  | nil => simp [matchEach]
  | cons p ps ih =>
    simp only [matchEach, List.mem_append, or_and_right, exists_or, ih, List.exists_mem_cons_iff]
    rfl

theorem itemsTake_nil_iff : ItemsTake [] ss captures rest ↔ captures = [] ∧ rest = ss := by
  simp [ItemsTake, matchItems, eq_comm]

/-- An item that is not marked is taken somewhere among the siblings. -/
theorem itemsTake_cons_iff (hp : p.once = true) :
    ItemsTake ((false, p) :: items) ss captures rest ↔
      ∃ before mid after here there, ss = before ++ mid ∧ p.Takes mid here after ∧
        ItemsTake items after there rest ∧ captures = here ++ there := by
  have hchain : matchItems ((false, p) :: items) ss = chain p items (starts false ss) := by
    rw [matchItems_cons]
    cases p <;> first | rfl | cases hp
  simp only [ItemsTake, hchain, mem_chain_iff, mem_starts_free_iff]
  constructor
  · rintro ⟨x, ⟨mid, ⟨⟨before, rfl⟩, -⟩, y, hy, z, hz, rfl⟩, rfl, rfl⟩
    exact ⟨before, mid, _, _, _, rfl, ⟨y, hy, rfl, rfl⟩, ⟨z, hz, rfl, rfl⟩, rfl⟩
  · rintro ⟨before, mid, after, here, there, rfl, ⟨y, hy, rfl, rfl⟩, ⟨z, hz, rfl, rfl⟩, rfl⟩
    have hne : mid ≠ [] := by
      rintro rfl
      rw [matchAt_nil] at hy
      cases hy
    exact ⟨_, ⟨mid, ⟨List.suffix_append before mid, hne⟩, y, hy, z, hz, rfl⟩, rfl, rfl⟩

theorem itemsTake_singleton_iff (hp : p.once = true) :
    ItemsTake [(false, p)] ss captures rest ↔
      ∃ before mid, ss = before ++ mid ∧ p.Takes mid captures rest := by
  simp only [itemsTake_cons_iff hp, itemsTake_nil_iff]
  constructor
  · rintro ⟨before, mid, after, here, there, rfl, htakes, ⟨rfl, rfl⟩, rfl⟩
    exact ⟨before, mid, rfl, by rwa [List.append_nil]⟩
  · rintro ⟨before, mid, rfl, htakes⟩
    exact ⟨before, mid, rest, captures, [], rfl, htakes, ⟨rfl, rfl⟩, (List.append_nil _).symm⟩

end

/-! ## Nodes of a kind -/

/-- The node is one of the grammar's own with this name, and in this field if one is given. -/
structure Stands (kind : String) (field : Option String) (s : Spot) : Prop where
  kind : s.label.kind = kind
  named : s.label.named = true
  field : ∀ name ∈ field, s.label.field = some name

instance (kind : String) (field : Option String) (s : Spot) : Decidable (Stands kind field s) :=
  decidable_of_iff (s.label.kind = kind ∧ s.label.named = true ∧
      ∀ name ∈ field, s.label.field = some name)
    ⟨fun h => ⟨h.1, h.2.1, h.2.2⟩, fun h => ⟨h.kind, h.named, h.field⟩⟩

/-- A node of a kind, as a query writes it in round brackets. -/
def Pattern.construct (kind : String) (field : Option String) (captures : List String)
    (items : List (Bool × Pattern)) : Pattern :=
  .node { test := .kind kind true, field, captures } items false

section

variable {kind : String} {field : Option String} {captures : List String}
  {items : List (Bool × Pattern)} {ss rest : List Spot} {here : List Capture}

theorem accepts_construct_iff {s : Spot} :
    Head.accepts { test := .kind kind true, field, captures } s = true ↔ Stands kind field s := by
  simp only [Head.accepts, Test.accepts, List.all_nil, Bool.and_true, Bool.and_eq_true,
    decide_eq_true_eq]
  constructor
  · rintro ⟨⟨hkind, hnamed⟩, hfield⟩
    refine ⟨hkind, hnamed, ?_⟩
    rintro name rfl
    simpa using hfield
  · rintro ⟨hkind, hnamed, hfield⟩
    refine ⟨⟨hkind, hnamed⟩, ?_⟩
    cases field with
    | none => rfl
    | some name => simpa using hfield name rfl

theorem takes_construct_iff :
    (Pattern.construct kind field captures items).Takes ss here rest ↔
      ∃ s, ss = s :: rest ∧ Stands kind field s ∧
        ∃ below after, ItemsTake items s.children below after ∧
          here = captures.map (fun name => ⟨name, s⟩) ++ below := by
  simp only [Pattern.construct, takes_node_iff, accepts_construct_iff]
  rfl

theorem takes_leaf_iff :
    (Pattern.construct kind field captures []).Takes ss here rest ↔
      ∃ s, ss = s :: rest ∧ Stands kind field s ∧
        here = captures.map (fun name => ⟨name, s⟩) := by
  simp only [takes_construct_iff, itemsTake_nil_iff]
  constructor
  · rintro ⟨s, rfl, hs, below, after, ⟨rfl, -⟩, rfl⟩
    exact ⟨s, rfl, hs, List.append_nil _⟩
  · rintro ⟨s, rfl, hs, rfl⟩
    exact ⟨s, rfl, hs, [], s.children, ⟨rfl, rfl⟩, (List.append_nil _).symm⟩

end

/-! ## Predicates -/

/-- The texts of what is captured decide about a predicate. -/
theorem Predicate.holds_congr {m m' : Match} (h : m.found.captures = m'.found.captures)
    (source : List UInt8) (condition : Predicate) :
    condition.holds source m = condition.holds source m' := by
  have hnodes (name : String) : m.nodes name = m'.nodes name := by rw [Match.nodes, h, Match.nodes]
  cases condition <;> simp only [Predicate.holds, hnodes]

/-! ## Clauses -/

/-- The levels of a tree, the root being the only node of its own. -/
def levels (root : Node) : List (Bool × List Spot) :=
  Spot.levelsOf false [Spot.ofRoot root]

/-- A match with nothing but its captures. -/
def Match.ofCaptures (captures : List Capture) : Match := ⟨0, 0, { captures }⟩

/-- The clause matches in a tree with these captures. -/
def Clause.Matches (c : Clause) (root : Node) (source : List UInt8) (captures : List Capture) :
    Prop :=
  ∃ p, c.pattern = some p ∧ (∃ m ∈ p.allMatches 0 (levels root), m.found.captures = captures) ∧
    ∀ condition ∈ c.predicates, condition.holds source (.ofCaptures captures) = true

/-- The ways to match a pattern at some levels, before those are dropped in which a repetition takes
less than it can. -/
def Pattern.ways (i : Nat) (p : Pattern) (ls : List (Bool × List Spot)) : List Match :=
  ls.flatMap fun level =>
    if level.1 && !p.rooted then []
    else (p.matchAt level.2).map fun x => ⟨i, (level.2.head?.map Spot.index).getD 0, x.1⟩

theorem allMatches_eq (i : Nat) (p : Pattern) (ls : List (Bool × List Spot)) :
    p.allMatches i ls =
      if p.hasQuantifier then (p.ways i ls).filter fun m => !(p.ways i ls).any m.within
      else p.ways i ls := rfl

theorem ways_eq_map (i : Nat) (p : Pattern) (ls : List (Bool × List Spot)) :
    p.ways i ls = (p.ways 0 ls).map fun m => { m with clause := i } := by
  rw [Pattern.ways, Pattern.ways, List.map_flatMap]
  refine List.flatMap_congr fun level _ => ?_
  split
  · rfl
  · rw [List.map_map]
    rfl

/-- The number of a clause is only told with its matches. -/
theorem allMatches_eq_map (i : Nat) (p : Pattern) (ls : List (Bool × List Spot)) :
    p.allMatches i ls = (p.allMatches 0 ls).map fun m => { m with clause := i } := by
  rw [allMatches_eq, allMatches_eq, ways_eq_map i]
  split
  · rw [List.filter_map]
    refine congrArg _ (List.filter_congr fun m _ => ?_)
    simp only [Function.comp, List.any_map]
    rfl
  · rfl

theorem mem_ways_of_mem_allMatches {i : Nat} {p : Pattern} {ls : List (Bool × List Spot)}
    {m : Match} (h : m ∈ p.allMatches i ls) : m ∈ p.ways i ls := by
  rw [allMatches_eq] at h
  split at h
  · exact List.mem_of_mem_filter h
  · exact h

theorem mem_ways_iff {i : Nat} {p : Pattern} {ls : List (Bool × List Spot)} {m : Match} :
    m ∈ p.ways i ls ↔ ∃ level ∈ ls, (level.1 && !p.rooted) = false ∧
      ∃ x ∈ p.matchAt level.2, ⟨i, (level.2.head?.map Spot.index).getD 0, x.1⟩ = m := by
  simp only [Pattern.ways, List.mem_flatMap]
  refine exists_congr fun level => and_congr_right fun _ => ?_
  cases level.1 && !p.rooted <;> simp

/-- The node of every capture is one of the tree. -/
theorem mem_preorder_of_mem_ways {i : Nat} {p : Pattern} {root : Node} {m : Match}
    (h : m ∈ p.ways i (levels root)) :
    ∀ c ∈ m.found.captures, c.node ∈ (Spot.ofRoot root).preorder := by
  obtain ⟨level, hlevel, -, x, hx, rfl⟩ := mem_ways_iff.mp h
  intro c hc
  have hbelow := (p.within_matchAt level.2 x hx).1 c hc
  have htop := Spot.preorderAll_subset_of_mem_levelsOf false _ level hlevel hbelow
  simpa [Spot.preorderAll] using htop

/-- Without quantifiers a node pattern matches wherever it takes a node of the tree. -/
theorem matches_node_iff {head : Head} {items : List (Bool × Pattern)} {conditions : List Predicate}
    (h : Pattern.anyQuantifier items = false) {root : Node} {source : List UInt8}
    {captures : List Capture} :
    Clause.Matches ⟨some (.node head items false), conditions⟩ root source captures ↔
      (∃ s ∈ (Spot.ofRoot root).preorder, head.accepts s = true ∧
        ∃ below after, ItemsTake items s.children below after ∧
          captures = head.captured s ++ below) ∧
      ∀ condition ∈ conditions, condition.holds source (.ofCaptures captures) = true := by
  have hplain : (Pattern.node head items false).hasQuantifier = false := h
  have hrooted : (Pattern.node head items false).rooted = true := by rw [Pattern.rooted]
  have hways : (∃ m ∈ (Pattern.node head items false).allMatches 0 (levels root),
      m.found.captures = captures) ↔
      ∃ level ∈ levels root, ∃ rest,
        (Pattern.node head items false).Takes level.2 captures rest := by
    simp only [allMatches_eq, hplain, Bool.false_eq_true, if_false, mem_ways_iff, hrooted]
    constructor
    · rintro ⟨m, ⟨level, hlevel, -, x, hx, rfl⟩, rfl⟩
      exact ⟨level, hlevel, x.2, x, hx, rfl, rfl⟩
    · rintro ⟨level, hlevel, rest, x, hx, rfl, rfl⟩
      exact ⟨_, ⟨level, hlevel, by simp, x, hx, rfl⟩, rfl⟩
  have hheads (s : Spot) : (∃ level ∈ levels root, ∃ rest, level.2 = s :: rest) ↔
      s ∈ (Spot.ofRoot root).preorder := by
    have hmem := congrArg (some s ∈ ·) (Spot.heads_levelsOf false [Spot.ofRoot root])
    simpa [levels, Spot.preorderAll, List.head?_eq_some_iff] using hmem
  simp only [Clause.Matches, Option.some.injEq, exists_eq_left', hways, takes_node_iff, ← hheads]
  refine and_congr_left fun _ => ⟨?_, ?_⟩
  · rintro ⟨level, hlevel, rest, s, hs, haccepts, hitems⟩
    exact ⟨s, ⟨level, hlevel, rest, hs⟩, haccepts, hitems⟩
  · rintro ⟨s, ⟨level, hlevel, rest, hs⟩, haccepts, hitems⟩
    exact ⟨level, hlevel, rest, s, hs, haccepts, hitems⟩

theorem matches_construct_iff {kind : String} {captures : List String}
    {items : List (Bool × Pattern)} {conditions : List Predicate}
    (h : Pattern.anyQuantifier items = false) {root : Node} {source : List UInt8}
    {found : List Capture} :
    Clause.Matches ⟨some (.construct kind none captures items), conditions⟩ root source found ↔
      (∃ s ∈ (Spot.ofRoot root).preorder, Stands kind none s ∧
        ∃ below after, ItemsTake items s.children below after ∧
          found = captures.map (fun name => ⟨name, s⟩) ++ below) ∧
      ∀ condition ∈ conditions, condition.holds source (.ofCaptures found) = true := by
  simp only [Pattern.construct, matches_node_iff h, accepts_construct_iff]
  rfl

/-! ## Queries -/

/-- The matches of the clauses before they are put in order. -/
def found (q : Query) (root : Node) : List Match :=
  q.clauses.zipIdx.flatMap fun (c, i) =>
    match c.pattern with
    | some p => p.allMatches i (levels root)
    | none => []

theorem shapes_eq (q : Query) (root : Node) :
    q.shapes root = distinct [] ((q.found root).mergeSort Match.before) := rfl

theorem mem_found_iff {q : Query} {root : Node} {m : Match} :
    m ∈ q.found root ↔ ∃ c p, q.clauses[m.clause]? = some c ∧ c.pattern = some p ∧
      m ∈ p.allMatches m.clause (levels root) := by
  simp only [found, List.mem_flatMap, Prod.exists, List.mem_zipIdx_iff_getElem?]
  constructor
  · rintro ⟨c, i, hc, hm⟩
    cases hp : c.pattern with
    | none => simp [hp] at hm
    | some p =>
      simp only [hp] at hm
      have hclause : m.clause = i := by
        obtain ⟨-, -, -, x, -, rfl⟩ := mem_ways_iff.mp (mem_ways_of_mem_allMatches hm)
        rfl
      subst hclause
      exact ⟨c, p, hc, hp, hm⟩
  · rintro ⟨c, p, hc, hp, hm⟩
    exact ⟨c, m.clause, hc, by simpa only [hp] using hm⟩

theorem distinct_sublist (seen : List (Nat × List (String × Nat))) (ms : List Match) :
    (distinct seen ms).Sublist ms := by
  induction ms generalizing seen with
  | nil => exact .slnil
  | cons m ms ih =>
    rw [distinct]
    split
    · exact (ih _).cons m
    · exact (ih _).cons_cons m

/-- What is dropped has the clause and the captures of what is kept. -/
theorem exists_mem_distinct {seen : List (Nat × List (String × Nat))} {ms : List Match} {m : Match}
    (h : m ∈ ms) (hseen : (m.clause, m.key) ∉ seen) :
    ∃ m' ∈ distinct seen ms, m'.clause = m.clause ∧ m'.key = m.key := by
  induction ms generalizing seen with
  | nil => cases h
  | cons first ms ih =>
    rw [distinct]
    by_cases hfirst : (first.clause, first.key) = (m.clause, m.key)
    · have hnew : ¬ seen.contains (first.clause, first.key) = true := by
        rwa [hfirst, List.contains_iff_mem]
      rw [if_neg hnew]
      obtain ⟨hclause, hkey⟩ := Prod.mk.inj hfirst
      exact ⟨first, List.mem_cons_self, hclause, hkey⟩
    · have hm : m ∈ ms := by
        rcases List.mem_cons.mp h with rfl | h
        · exact absurd rfl hfirst
        · exact h
      split
      · exact ih hm hseen
      · have hlater : (m.clause, m.key) ∉ (first.clause, first.key) :: seen := by
          rw [List.mem_cons, not_or]
          exact ⟨Ne.symm hfirst, hseen⟩
        obtain ⟨m', hm', hsame⟩ := ih hm hlater
        exact ⟨m', List.mem_cons_of_mem first hm', hsame⟩

/-- Captures of nodes of one tree are told apart by the numbers of the nodes. -/
theorem captures_eq_of_key_eq {root : Node} {m m' : Match}
    (h : ∀ c ∈ m.found.captures, c.node ∈ (Spot.ofRoot root).preorder)
    (h' : ∀ c ∈ m'.found.captures, c.node ∈ (Spot.ofRoot root).preorder) (hkey : m.key = m'.key) :
    m.found.captures = m'.found.captures := by
  unfold Match.key at hkey
  generalize m.found.captures = captures at h hkey
  generalize m'.found.captures = captures' at h' hkey
  induction captures generalizing captures' with
  | nil => exact (List.map_eq_nil_iff.mp hkey.symm).symm
  | cons c captures ih =>
    cases captures' with
    | nil => cases hkey
    | cons c' captures' =>
      obtain ⟨hhead, htail⟩ := List.cons.inj hkey
      obtain ⟨hname, hindex⟩ := Prod.mk.inj hhead
      obtain ⟨hc, hcaptures⟩ := List.forall_mem_cons.mp h
      obtain ⟨hc', hcaptures'⟩ := List.forall_mem_cons.mp h'
      have hnode := Spot.eq_of_index_eq hc hc' hindex
      cases c
      cases c'
      cases hname
      cases hnode
      rw [ih hcaptures captures' hcaptures' htail]

/-- **What the matches of a query capture** is what its clauses match with, each clause by its
place. -/
theorem exists_mem_run_iff {q : Query} {root : Node} {source : List UInt8} {i : Nat}
    {captures : List Capture} :
    (∃ m ∈ q.run root source, m.clause = i ∧ m.found.captures = captures) ↔
      ∃ c, q.clauses[i]? = some c ∧ c.Matches root source captures := by
  constructor
  · rintro ⟨m, hm, rfl, rfl⟩
    obtain ⟨hshape, hholds⟩ := List.mem_filter.mp hm
    have hfound : m ∈ q.found root := by
      rw [shapes_eq] at hshape
      exact List.mem_mergeSort.mp ((distinct_sublist _ _).subset hshape)
    obtain ⟨c, p, hc, hp, hm⟩ := mem_found_iff.mp hfound
    rw [allMatches_eq_map] at hm
    obtain ⟨m₀, hm₀, heq⟩ := List.mem_map.mp hm
    refine ⟨c, hc, p, hp, ⟨m₀, hm₀, by rw [← heq]⟩, fun condition hcondition => ?_⟩
    simp only [hc, List.all_eq_true] at hholds
    rw [← hholds condition hcondition]
    exact Predicate.holds_congr rfl source condition
  · rintro ⟨c, hc, p, hp, ⟨m, hm, rfl⟩, hholds⟩
    -- A match that is dropped leaves one with its clause and its captures.
    have hfound : { m with clause := i } ∈ q.found root :=
      mem_found_iff.mpr ⟨c, p, hc, hp, by
        rw [allMatches_eq_map]
        exact List.mem_map.mpr ⟨m, hm, rfl⟩⟩
    have hsorted : { m with clause := i } ∈ (q.found root).mergeSort Match.before :=
      List.mem_mergeSort.mpr hfound
    obtain ⟨m', hm', hclause, hkey⟩ := exists_mem_distinct hsorted List.not_mem_nil
    have hfound' : m' ∈ q.found root :=
      List.mem_mergeSort.mp ((distinct_sublist _ _).subset hm')
    obtain ⟨-, p', -, -, hm''⟩ := mem_found_iff.mp hfound'
    have hcaptures : m'.found.captures = m.found.captures :=
      captures_eq_of_key_eq (mem_preorder_of_mem_ways (mem_ways_of_mem_allMatches hm''))
        (mem_preorder_of_mem_ways (mem_ways_of_mem_allMatches hm)) hkey
    refine ⟨m', List.mem_filter.mpr ⟨hm', ?_⟩, hclause, hcaptures⟩
    have hclause' : q.clauses[m'.clause]? = some c := hclause ▸ hc
    simp only [hclause', List.all_eq_true]
    intro condition hcondition
    rw [← hholds condition hcondition]
    exact Predicate.holds_congr hcaptures source condition

end CodeAtlas.Query
