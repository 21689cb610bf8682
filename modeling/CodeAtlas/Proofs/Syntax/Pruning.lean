import CodeAtlas.Proofs.Syntax.Projection
import CodeAtlas.Proofs.Syntax.Ranges
import CodeAtlas.Proofs.Syntax.Spots

/-!
# Pruning by range

An outline for a range leaves out a child that the range does not touch, together with everything
below it.  One test stands for a whole subtree, and this is right as long as the children of a node
lie in it: a range that touches something below a node touches the node itself, even if what it
touches is empty or only meets the range at an end (`Node.Enclosing.overlaps_of_mem`).

So where no other bound applies, the outline shows the root and every node that the range touches,
and nothing else (`Outline.rows_ofRoot_range`).
-/

namespace CodeAtlas.Syntax

/-! ## Spans within spans -/

/-- The other span lies within this one, in octets and in rows. -/
structure Span.Encloses (outer inner : Span) : Prop where
  startByte : outer.startByte ≤ inner.startByte
  endByte : inner.endByte ≤ outer.endByte
  startRow : outer.startRow ≤ inner.startRow
  endRow : inner.endRow ≤ outer.endRow

namespace Span.Encloses

variable {s t u : Span}

theorem refl (s : Span) : s.Encloses s :=
  ⟨Nat.le_refl _, Nat.le_refl _, Nat.le_refl _, Nat.le_refl _⟩

theorem trans (h : s.Encloses t) (h' : t.Encloses u) : s.Encloses u where
  startByte := Nat.le_trans h.startByte h'.startByte
  endByte := Nat.le_trans h'.endByte h.endByte
  startRow := Nat.le_trans h.startRow h'.startRow
  endRow := Nat.le_trans h'.endRow h.endRow

/-- What touches a span touches every span around it. -/
theorem overlaps {range : Range} (h : s.Encloses t) (ht : range.overlaps t = true) :
    range.overlaps s = true := by
  have hstartByte := h.startByte
  have hendByte := h.endByte
  have hstartRow := h.startRow
  have hendRow := h.endRow
  cases range with
  | bytes start stop =>
    simp only [Range.overlaps, Bool.and_eq_true, decide_eq_true_eq] at ht ⊢
    omega
  | lines first last =>
    simp only [Range.overlaps, Bool.and_eq_true, decide_eq_true_eq] at ht ⊢
    omega

end Span.Encloses

instance (outer inner : Span) : Decidable (outer.Encloses inner) :=
  decidable_of_iff (outer.startByte ≤ inner.startByte ∧ inner.endByte ≤ outer.endByte ∧
      outer.startRow ≤ inner.startRow ∧ inner.endRow ≤ outer.endRow)
    ⟨fun h => ⟨h.1, h.2.1, h.2.2.1, h.2.2.2⟩,
      fun h => ⟨h.startByte, h.endByte, h.startRow, h.endRow⟩⟩

/-! ## Trees -/

namespace Node

mutual

/-- The number of levels below a node. -/
def height : Node → Nat
  | mk _ children => heightAll children

/-- The number of levels that some siblings take up. -/
def heightAll : List Node → Nat
  | [] => 0
  | n :: rest => max (n.height + 1) (heightAll rest)

end

theorem height_lt_heightAll {n : Node} {ns : List Node} (h : n ∈ ns) : n.height < heightAll ns := by
  induction ns with
  | nil => cases h
  | cons m rest ih =>
    rw [heightAll]
    rcases List.mem_cons.mp h with rfl | h
    · exact Nat.lt_of_lt_of_le (Nat.lt_succ_self _) (Nat.le_max_left _ _)
    · exact Nat.lt_of_lt_of_le (ih h) (Nat.le_max_right _ _)

theorem height_lt_of_child {child n : Node} (h : child ∈ n.children) : child.height < n.height := by
  cases n
  rw [height]
  exact height_lt_heightAll h

/-- The children of every node of the tree lie within it. -/
def Enclosing (root : Node) : Prop :=
  ∀ n ∈ root.preorder, ∀ child ∈ n.children, n.span.Encloses child.span

instance (root : Node) : Decidable root.Enclosing :=
  inferInstanceAs (Decidable (∀ n ∈ root.preorder, ∀ child ∈ n.children, _))

theorem Enclosing.of_child {child n : Node} (h : n.Enclosing) (hchild : child ∈ n.children) :
    child.Enclosing :=
  fun m hm => h m (mem_preorder_of_child hchild hm)

theorem Enclosing.of_mem {m root : Node} (h : root.Enclosing) (hm : m ∈ root.preorder) :
    m.Enclosing := by
  induction root using Node.induction with
  | step n ih =>
    rw [preorder_eq, List.mem_cons] at hm
    rcases hm with rfl | hm
    · exact h
    · obtain ⟨child, hchild, hm⟩ := mem_preorderAll.mp hm
      exact ih child hchild (h.of_child hchild) hm

/-- All nodes of such a tree lie within its root. -/
theorem Enclosing.encloses {n : Node} (h : n.Enclosing) :
    ∀ m ∈ n.preorder, n.span.Encloses m.span := by
  induction n using Node.induction with
  | step n ih =>
    intro m hm
    rw [preorder_eq, List.mem_cons] at hm
    rcases hm with rfl | hm
    · exact .refl _
    · obtain ⟨child, hchild, hm⟩ := mem_preorderAll.mp hm
      have hn := h n n.self_mem_preorder child hchild
      exact hn.trans (ih child hchild (h.of_child hchild) m hm)

/-- In a tree over a source, nested spans are enough. -/
theorem LiesIn.enclosing {source : List UInt8} {root : Node} (h : root.LiesIn source)
    (hnested : root.nested = true) : root.Enclosing := by
  induction root using Node.induction with
  | step n ih =>
    intro m hm child hchild
    rw [preorder_eq, List.mem_cons] at hm
    rcases hm with rfl | hm
    · obtain ⟨hstart, hstop, -⟩ := within_of_nested hnested hchild
      have hm := h m m.self_mem_preorder
      have hspan := h child (mem_preorder_of_child hchild child.self_mem_preorder)
      refine ⟨hstart, hstop, ?_, ?_⟩
      · rw [hm.startRow, hspan.startRow]
        exact row_ofOffset_mono source hstart
      · rw [hm.endRow, hspan.endRow]
        exact row_ofOffset_mono source hstop
    · obtain ⟨first, hfirst, hm⟩ := mem_preorderAll.mp hm
      have hbelow := (within_of_nested hnested hfirst).2.2
      exact ih first hfirst (h.of_child hfirst) hbelow m hm child hchild

/-- What is below a spot of such a tree lies within it. -/
theorem Enclosing.encloses_spot {root : Node} (h : root.Enclosing) {s t : Spot}
    (hs : s ∈ (Spot.ofRoot root).preorder) (ht : t ∈ s.preorder) :
    s.label.span.Encloses t.label.span := by
  obtain ⟨i, m, hm, rfl⟩ := Spot.exists_node_of_mem_ofNode 0 root s hs
  obtain ⟨j, m', hm', rfl⟩ := Spot.exists_node_of_mem_ofNode i m t ht
  cases m
  cases m'
  exact (h.of_mem hm).encloses _ hm'

/-- A range that touches something in a tree touches the root. -/
theorem Enclosing.overlaps_of_mem {range : Range} {m n : Node} (h : n.Enclosing)
    (hm : m ∈ n.preorder) (hover : range.overlaps m.span = true) :
    range.overlaps n.span = true :=
  (h.encloses m hm).overlaps hover

end Node

namespace Outline

variable {source : List UInt8} {options : Options} {range : Range}

theorem wants_of_range (hrange : options.range = some range) :
    options.wants = fun n => range.overlaps n.span := by
  funext n
  rw [Options.wants, hrange]

/-- Skipping the subtrees whose top the range does not touch skips nothing that it touches. -/
theorem filter_preorder_of_not_wants {n : Node} (hrange : options.range = some range)
    (henc : n.Enclosing) (h : ¬ options.wants n) : n.preorder.filter options.wants = [] := by
  rw [wants_of_range hrange] at h ⊢
  rw [List.filter_eq_nil_iff]
  exact fun m hm hover => h (henc.overlaps_of_mem hm hover)

/-- With levels enough and no bound on children, a node is shown together with all nodes below it
that the range touches. -/
theorem rows_projection_range (hrange : options.range = some range)
    (hall : options.maxChildren = 0) (levels depth : Nat) (field : Option String) (n : Node)
    (henc : n.Enclosing) (hheight : n.height ≤ levels) :
    ((projection source options levels field n).rows depth).map Prod.snd =
      Label.ofNode source options.includeText field false n ::
        ((Node.preorderAll n.children).filter options.wants).map fun m =>
          Label.ofNode source options.includeText m.label.field false m := by
  induction levels generalizing depth field n with
  | zero =>
    obtain ⟨label, children⟩ := n
    cases children with
    | nil => rw [ofNode_eq]; rfl
    | cons child rest =>
      have hchild : child ∈ (Node.mk label (child :: rest)).children := List.mem_cons_self
      have hlt := Node.height_lt_of_child hchild
      omega
  | succ levels ih =>
    have hbelow (ns : List Node) (hns : ∀ child ∈ ns, child ∈ n.children) :
        (rowsAll (depth + 1) ((ns.filter options.wants).map fun child =>
            projection source options levels child.label.field child)).map Prod.snd =
          ((Node.preorderAll ns).filter options.wants).map fun m =>
            Label.ofNode source options.includeText m.label.field false m := by
      induction ns with
      | nil => rfl
      | cons child rest ihrest =>
        obtain ⟨hchild, hrest⟩ := List.forall_mem_cons.mp hns
        have hlt := Node.height_lt_of_child hchild
        have hrows := ih (depth + 1) child.label.field child (henc.of_child hchild) (by omega)
        rw [Node.preorderAll, List.filter_append, List.map_append, ← ihrest hrest]
        by_cases hwants : options.wants child
        · rw [List.filter_cons_of_pos hwants, List.map_cons, rowsAll, List.map_append, hrows,
            Node.preorder_eq, List.filter_cons_of_pos hwants, List.map_cons]
        · rw [List.filter_cons_of_neg hwants,
            filter_preorder_of_not_wants hrange (henc.of_child hchild) hwants]
          rfl
    have hfirst : firstOf options.maxChildren (touched options n) = touched options n :=
      firstOf_of_le (.inl hall)
    rw [projection, hfirst, touched_eq, rows, List.map_cons, hbelow n.children fun _ h => h,
      ofNode_eq, decide_eq_false (Nat.lt_irrefl _)]

/-- **Pruning by range loses nothing.**  In a tree whose nodes lie within their parents, an outline
for a range that is deep enough and bounds no children shows the root and all nodes below it that
the range touches, in the order of the tree, and each of them with nothing left out. -/
theorem rows_ofRoot_range {root : Node} (source : List UInt8) (henc : root.Enclosing)
    (hrange : options.range = some range) (hall : options.maxChildren = 0)
    (hlimit : root.height ≤ 256) (hdepth : root.height ≤ options.maxDepth) :
    ((ofRoot root source options).rows 0).map Prod.snd =
      Label.ofNode source options.includeText none false root ::
        ((Node.preorderAll root.children).filter fun n => range.overlaps n.span).map fun n =>
          Label.ofNode source options.includeText n.label.field false n := by
  have hlevels : root.height ≤ min options.maxDepth depthLimit := Nat.le_min.mpr ⟨hdepth, hlimit⟩
  rw [ofRoot_eq, rows_projection_range hrange hall _ _ _ root henc hlevels,
    wants_of_range hrange]

/-- One octet of a function, which the name before it and the parenthesis after it do not touch. -/
theorem rows_ofRoot_range_noted :
    let options : Options := { range := some (.bytes 10 11) }
    noted.Enclosing ∧ options.maxChildren = 0 ∧ noted.height ≤ 256 ∧
    noted.height ≤ options.maxDepth ∧
    ((ofRoot noted notedSource options).rows 0).map (fun row => row.2.kind) =
      ["source_file", "function_item", "parameters", "("] := by
  intro options
  have hrange : options.range = some (.bytes 10 11) := rfl
  have hall : options.maxChildren = 0 := rfl
  have henc : noted.Enclosing := noted_liesIn.enclosing rfl
  have hheight : noted.height = 3 := rfl
  have hlimit : noted.height ≤ 256 := by omega
  have hdepth : noted.height ≤ options.maxDepth := by
    rw [hheight]
    decide
  have hrows := rows_ofRoot_range notedSource henc hrange hall hlimit hdepth
  have hkinds := congrArg (List.map Label.kind) hrows
  rw [List.map_map] at hkinds
  exact ⟨henc, hall, hlimit, hdepth, hkinds.trans rfl⟩

end Outline

end CodeAtlas.Syntax
