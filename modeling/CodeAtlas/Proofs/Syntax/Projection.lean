import CodeAtlas.Syntax.Outline

/-!
# An outline is a projection of its tree

One cursor is used for the whole of an outline, and the loop along some siblings may end in the
middle of them.  What comes of this is the same as of a recursion over the tree, `projection`, in
which nothing moves.

The invariant that carries both inductions is that the cursor is back where it was.  For a node this
is an equation (`walk_eq`).  Along siblings the cursor does move on, but it stays below the same
nodes (`walkAlong_eq`), which is all that going up depends on.
-/

namespace CodeAtlas.Syntax.Outline

variable {source : List UInt8} {options : Options}

/-! ## The projection -/

/-- The children of a node that the range touches; without a range these are all. -/
def touched (options : Options) (n : Node) : List Node :=
  n.children.filter fun child => options.range.all fun range => range.overlaps child.span

/-- The first of some items, or all of them if the bound is zero. -/
def firstOf {α : Type} (bound : Nat) (items : List α) : List α :=
  if bound = 0 then items else items.take bound

/-- The text of a node, of which 200 characters are kept and an ellipsis marks the cut. -/
def excerpt (source : List UInt8) (n : Node) : String :=
  let text := n.text source
  if text.length ≤ 200 then text else String.ofList (text.toList.take 200 ++ ['…'])

/-- A node with so many levels below it. -/
def projection (source : List UInt8) (options : Options) (levels : Nat) (field : Option String)
    (n : Node) : Outline :=
  let label (truncated : Bool) : Label := {
    kind := n.kind
    named := n.named
    field := field
    span := n.span
    text := if options.includeText && n.children.isEmpty then some (excerpt source n) else none
    childCount := n.children.length
    truncated := truncated }
  match levels with
  | 0 => mk (label (0 < n.children.length)) []
  | levels + 1 =>
    let shown := firstOf options.maxChildren (touched options n)
    mk (label (shown.length < (touched options n).length))
      (shown.map fun child => projection source options levels child.label.field child)

/-! ## The first of some items -/

section FirstOf

variable {α β : Type} {bound : Nat} {items more : List α}

theorem firstOf_of_le (h : bound = 0 ∨ items.length ≤ bound) : firstOf bound items = items := by
  rw [firstOf]
  split
  · rfl
  · rename_i hne
    exact List.take_of_length_le (h.resolve_left hne)

theorem firstOf_append (hpos : 0 < bound) (h : items.length = bound) :
    firstOf bound (items ++ more) = items := by
  rw [firstOf, if_neg (Nat.ne_of_gt hpos), List.take_left' h]

theorem map_firstOf (f : α → β) (bound : Nat) (items : List α) :
    (firstOf bound items).map f = firstOf bound (items.map f) := by
  rw [firstOf, firstOf]
  split
  · rfl
  · exact List.map_take

end FirstOf

/-! ## Single nodes -/

theorem excerpt_eq (source : List UInt8) (n : Node) :
    String.ofList (Text.truncate textLimit (n.text source).toList).1 = excerpt source n := by
  simp only [Text.truncate, excerpt, textLimit, List.isEmpty_iff, List.drop_eq_nil_iff,
    String.length_toList]
  split
  · exact String.ofList_toList
  · rfl

theorem ofNode_eq (source : List UInt8) (includeText : Bool) (field : Option String)
    (truncated : Bool) (n : Node) :
    Label.ofNode source includeText field truncated n = {
      kind := n.kind, named := n.named, field, span := n.span
      text := if includeText && n.children.isEmpty then some (excerpt source n) else none
      childCount := n.children.length, truncated } := by
  rw [Label.ofNode, excerpt_eq]

theorem wants_eq (options : Options) (n : Node) :
    options.wants n = options.range.all fun range => range.overlaps n.span := by
  rw [Options.wants]
  cases options.range <;> rfl

theorem touched_eq (options : Options) (n : Node) :
    touched options n = n.children.filter options.wants := by
  simp only [touched, ← wants_eq]

/-! ## Along siblings -/

/-- The cursor that stands on a node under some others. -/
abbrev under (up : Node × List Node) (above : List (Node × List Node)) (n : Node)
    (after : List Node) : Cursor :=
  ⟨n, after, up :: above⟩

variable {up : Node × List Node} {above : List (Node × List Node)}

/-- If a visit to a sibling shows something and leaves the cursor there, going along the siblings
shows the first of those wanted, together with those shown before, tells whether there are more, and
leaves the cursor below the same nodes. -/
theorem walkAlong_eq (options : Options) (visit : Cursor → Outline × Cursor)
    (image : Node → Outline)
    (hvisit : ∀ n after, visit (under up above n after) = (image n, under up above n after))
    (turns : Nat) (n : Node) (after : List Node) (hturns : after.length < turns)
    (shown : List Outline)
    (hshown : options.maxChildren = 0 ∨ shown.length ≤ options.maxChildren) :
    let all := shown.reverse ++ ((n :: after).filter options.wants).map image
    let first := firstOf options.maxChildren all
    ∃ c, c.above = up :: above ∧
      walkAlong options visit turns shown (under up above n after) =
        (first, decide (first.length < all.length), c) := by
  induction turns generalizing n after shown with
  | zero => omega
  | succ turns ih =>
    have hlast (l : List Outline) (hl : options.maxChildren = 0 ∨ l.length ≤ options.maxChildren) :
        (l.reverse, false) = (firstOf options.maxChildren l.reverse,
          decide ((firstOf options.maxChildren l.reverse).length < l.reverse.length)) := by
      rw [firstOf_of_le (by simpa using hl)]
      simp
    rw [walkAlong]
    by_cases hwants : options.wants n
    · rw [if_pos hwants]
      by_cases hfull : options.full shown
      · -- The bound is reached, and this node is one more.
        rw [if_pos hfull]
        simp only [Options.full, Bool.and_eq_true, decide_eq_true_eq] at hfull
        refine ⟨under up above n after, rfl, ?_⟩
        rw [firstOf_append hfull.1 (by simpa using hfull.2)]
        simp [hwants]
      · rw [if_neg hfull, hvisit]
        have hroom : options.maxChildren = 0 ∨ shown.length + 1 ≤ options.maxChildren := by
          simp only [Options.full, Bool.and_eq_true, decide_eq_true_eq] at hfull
          omega
        cases after with
        | nil =>
          refine ⟨under up above n [], rfl, ?_⟩
          have hl := hlast (image n :: shown) hroom
          rw [List.reverse_cons] at hl
          simp only [Cursor.nextSibling?, List.filter_cons_of_pos hwants, List.filter_nil,
            List.map_cons, List.map_nil, List.reverse_cons]
          exact congrArg (fun r : List Outline × Bool => (r.1, r.2, under up above n [])) hl
        | cons m after =>
          obtain ⟨c, hc, hw⟩ := ih m after (by simpa using hturns) (image n :: shown) hroom
          refine ⟨c, hc, hw.trans ?_⟩
          simp only [List.filter_cons_of_pos hwants, List.map_cons, List.reverse_cons,
            List.append_assoc, List.singleton_append]
    · rw [if_neg hwants]
      cases after with
      | nil =>
        refine ⟨under up above n [], rfl, ?_⟩
        have hl := hlast shown hshown
        simp only [Cursor.nextSibling?, List.filter_cons_of_neg hwants, List.filter_nil,
          List.map_nil, List.append_nil]
        exact congrArg (fun r : List Outline × Bool => (r.1, r.2, under up above n [])) hl
      | cons m after =>
        obtain ⟨c, hc, hw⟩ := ih m after (by simpa using hturns) shown hshown
        refine ⟨c, hc, hw.trans ?_⟩
        rw [List.filter_cons_of_neg hwants]

/-! ## Whole trees -/

theorem walk_of_leaf {c : Cursor} (h : c.firstChild? = none) (levels : Nat)
    (field : Option String) :
    walk source options levels field c =
      (mk (.ofNode source options.includeText field false c.node) [], c) := by
  unfold walk
  rw [h]

theorem walk_zero {c first : Cursor} (h : c.firstChild? = some first) (field : Option String) :
    walk source options 0 field c =
      (mk (.ofNode source options.includeText field true c.node) [], c) := by
  unfold walk
  rw [h]

theorem walk_succ {c first : Cursor} (h : c.firstChild? = some first) (levels : Nat)
    (field : Option String) :
    walk source options (levels + 1) field c =
      let r := walkAlong options (fun c => walk source options levels c.field c)
        c.node.children.length [] first
      (mk (.ofNode source options.includeText field r.2.1 c.node) r.1,
        r.2.2.parent?.getD r.2.2) := by
  conv => lhs; unfold walk
  rw [h]

/-- The walk from a node gives its projection and brings the cursor back. -/
theorem walk_eq (levels : Nat) (field : Option String) (c : Cursor) :
    walk source options levels field c = (projection source options levels field c.node, c) := by
  induction levels generalizing field c with
  | zero =>
    obtain ⟨⟨label, children⟩, after, above⟩ := c
    cases children with
    | nil => rw [walk_of_leaf rfl, ofNode_eq]; rfl
    | cons n rest => rw [walk_zero rfl, ofNode_eq]; rfl
  | succ levels ih =>
    obtain ⟨⟨label, children⟩, after, above⟩ := c
    cases children with
    | nil =>
      rw [walk_of_leaf rfl, ofNode_eq]
      simp [projection, touched, Node.children, firstOf]
    | cons n rest =>
      have hvisit (m : Node) (later : List Node) :
          walk source options levels (under (.mk label (n :: rest), after) above m later).field
              (under (.mk label (n :: rest), after) above m later) =
            (projection source options levels m.label.field m,
              under (.mk label (n :: rest), after) above m later) := ih _ _
      obtain ⟨c, hc, hw⟩ := walkAlong_eq options
        (fun c => walk source options levels c.field c)
        (fun m => projection source options levels m.label.field m)
        hvisit (n :: rest).length n rest (Nat.lt_succ_self _) [] (.inr (Nat.zero_le _))
      have hback : c.parent?.getD c = ⟨.mk label (n :: rest), after, above⟩ := by
        rw [Cursor.parent?, hc]
        rfl
      have htouched : touched options (.mk label (n :: rest)) =
          (n :: rest).filter options.wants := touched_eq options _
      rw [List.reverse_nil, List.nil_append, ← htouched, ← map_firstOf, List.length_map,
        List.length_map] at hw
      have hfirst : Cursor.firstChild? ⟨.mk label (n :: rest), after, above⟩ =
          some (under (.mk label (n :: rest), after) above n rest) := rfl
      rw [walk_succ hfirst]
      simp only [Node.children, hw, hback, ofNode_eq, projection]

/-- Every row of a projection is about a node of the tree, which is the top itself or is touched by
the range, and lies no deeper than there are levels. -/
theorem rows_projection (levels depth : Nat) (field : Option String) (n : Node) :
    ∀ row ∈ (projection source options levels field n).rows depth,
      row.1 ≤ depth + levels ∧ ∃ m ∈ n.preorder, row.2.span = m.span ∧
        (row.1 = depth ∧ m = n ∨ options.wants m = true) := by
  induction levels generalizing depth field n with
  | zero =>
    intro row hrow
    obtain rfl := List.mem_singleton.mp hrow
    exact ⟨Nat.le_refl _, n, n.self_mem_preorder, rfl, .inl ⟨rfl, rfl⟩⟩
  | succ levels ih =>
    have hall (ns : List Node) (hns : ∀ child ∈ ns, child ∈ touched options n) :
        ∀ row ∈ rowsAll (depth + 1)
          (ns.map fun child => projection source options levels child.label.field child),
        row.1 ≤ depth + (levels + 1) ∧ ∃ m ∈ n.preorder, row.2.span = m.span ∧
          (row.1 = depth ∧ m = n ∨ options.wants m = true) := by
      induction ns with
      | nil => exact fun _ hrow => nomatch hrow
      | cons child rest ihrest =>
        obtain ⟨hchild, hrest⟩ := List.forall_mem_cons.mp hns
        rw [touched_eq, List.mem_filter] at hchild
        intro row hrow
        rcases List.mem_append.mp hrow with hrow | hrow
        · obtain ⟨hle, m, hm, hspan, hwants⟩ := ih (depth + 1) child.label.field child row hrow
          refine ⟨by omega, m, Node.mem_preorder_of_child hchild.1 hm, hspan, .inr ?_⟩
          rcases hwants with ⟨-, rfl⟩ | hwants
          · exact hchild.2
          · exact hwants
        · exact ihrest hrest row hrow
    intro row hrow
    rcases List.mem_cons.mp hrow with rfl | hrow
    · exact ⟨Nat.le_add_right _ _, n, n.self_mem_preorder, rfl, .inl ⟨rfl, rfl⟩⟩
    · refine hall _ (fun child hchild => ?_) row hrow
      rw [firstOf] at hchild
      split at hchild
      · exact hchild
      · exact List.mem_of_mem_take hchild

theorem ofRoot_eq (root : Node) (source : List UInt8) (options : Options) :
    ofRoot root source options =
      projection source options (min options.maxDepth depthLimit) none root := by
  rw [ofRoot, walk_eq]

/-- **An outline is the projection of its tree.**  Whatever the tree, the source and the options, the
walk with one cursor shows what the recursion over the tree shows, and nothing deeper than the depth
asked for or than 256. -/
theorem ofRoot_eq_projection (root : Node) (source : List UInt8) (options : Options) :
    ofRoot root source options =
        projection source options (min options.maxDepth 256) none root ∧
      ∀ row ∈ (ofRoot root source options).rows 0, row.1 ≤ min options.maxDepth 256 := by
  refine ⟨ofRoot_eq root source options, fun row hrow => ?_⟩
  rw [ofRoot_eq] at hrow
  have hle := (rows_projection _ 0 _ _ row hrow).1
  rwa [Nat.zero_add] at hle

end CodeAtlas.Syntax.Outline
