import CodeAtlas.Syntax.Position
import CodeAtlas.Proofs.Syntax.Ranges
import CodeAtlas.Proofs.Syntax.Routes
import CodeAtlas.Proofs.Syntax.Spots
import Mathlib.Data.List.Chain
import Mathlib.Data.List.Induction

/-!
# The nodes at a position

The rows and columns at which something can be found are those of the offsets of the source, from
the first one up to its end (`inSource_iff`).  Offsets and their points come in the same order
(`before_ofOffset_iff`), so what is asked of the points of a span can be told from its octets.

How the smallest node at a position is looked for is left open, as far as it is found
(`FindsSmallest`): in a tree with nested spans no child of it covers the position then, and all nodes
above it hold the position as well.

A search that goes down from the root finds it (`findsSmallest_routeTo`).  The children that end too
early are passed by.  What is left is the child that the offset lies in, or an empty child right
there, or a child that starts too late; and since the children follow each other, none that was
passed by or comes later covers the position either, unless the child gone to is empty
(`routeAmong_cases`).
-/

namespace CodeAtlas.Syntax

variable {source : List UInt8} {p : Point} {o q : Nat}

/-! ## The order of points -/

theorem Point.before_iff (p q : Point) :
    p.before q = true ↔ p.row < q.row ∨ p.row = q.row ∧ p.column < q.column := by
  simp [Point.before]

/-- Points come in the order of their offsets. -/
theorem before_ofOffset_iff (ho : o ≤ source.length) (hq : q ≤ source.length) :
    (Point.ofOffset source o).before (Point.ofOffset source q) = true ↔ o < q := by
  have hcolumnO := rowStart_add_column ho
  have hcolumnQ := rowStart_add_column hq
  rw [Point.before_iff]
  constructor
  · rintro (hrow | ⟨hrow, hcolumn⟩)
    · by_contra hle
      have hmono := row_ofOffset_mono source (Nat.le_of_not_lt hle)
      omega
    · rw [hrow] at hcolumnO
      omega
  · intro hlt
    have hmono := row_ofOffset_mono source (Nat.le_of_lt hlt)
    rcases Nat.lt_or_eq_of_le hmono with hrow | hrow
    · exact .inl hrow
    · rw [hrow] at hcolumnO
      exact .inr ⟨hrow, by omega⟩

theorem ofOffset_inj (ho : o ≤ source.length) (hq : q ≤ source.length) :
    Point.ofOffset source o = Point.ofOffset source q ↔ o = q := by
  refine ⟨fun h => ?_, fun h => h ▸ rfl⟩
  rw [← rowStart_add_column ho, h, rowStart_add_column hq]

theorem before_ofOffset_eq_false_iff (ho : o ≤ source.length) (hq : q ≤ source.length) :
    (Point.ofOffset source o).before (Point.ofOffset source q) = false ↔ q ≤ o := by
  rw [← Bool.not_eq_true, before_ofOffset_iff ho hq, Nat.not_lt]

/-! ## The points of a source -/

theorem ofOffset_append (hle : o ≤ source.length) (rest : List UInt8) :
    Point.ofOffset (source ++ rest) o = Point.ofOffset source o := by
  rw [Point.ofOffset, List.take_append_of_le_length hle]
  rfl

theorem ofOffset_length_concat (source : List UInt8) (octet : UInt8) :
    Point.ofOffset (source ++ [octet]) (source.length + 1) =
      (Point.ofOffset source source.length).advance octet := by
  rw [Point.ofOffset, Point.ofOffset, List.take_length, List.take_of_length_le (by simp),
    List.foldl_append]
  rfl

theorem rowLengths_newline (source : List UInt8) :
    rowLengths (source ++ [10]) = rowLengths source ++ [0] := by
  simp [rowLengths]

theorem rowLengths_concat {octet : UInt8} (h : octet ≠ 10) {done : List Nat} {n : Nat}
    (hrows : rowLengths source = done ++ [n]) :
    rowLengths (source ++ [octet]) = done ++ [n + 1] := by
  rw [rowLengths] at hrows ⊢
  rw [List.foldl_append]
  generalize List.foldl _ _ source = state at hrows ⊢
  obtain ⟨done', n'⟩ := state
  simp only [List.foldl_cons, List.foldl_nil, if_neg h, List.reverse_cons] at hrows ⊢
  obtain ⟨hdone, hn⟩ := List.append_inj' hrows rfl
  cases hn
  rw [hdone]

/-- The last row is the one that the end of the source is in, and ends there. -/
theorem rowLengths_eq (source : List UInt8) :
    ∃ done : List Nat, done.length = (Point.ofOffset source source.length).row ∧
      rowLengths source = done ++ [(Point.ofOffset source source.length).column] := by
  induction source using List.reverseRecOn with
  | nil => exact ⟨[], rfl, rfl⟩
  | append_singleton source octet ih =>
    obtain ⟨done, hlength, hrows⟩ := ih
    rw [List.length_append, List.length_singleton, ofOffset_length_concat, Point.advance]
    by_cases ho : octet = 10
    · rw [if_pos ho, ho, rowLengths_newline]
      refine ⟨rowLengths source, ?_, rfl⟩
      rw [hrows, List.length_append, hlength]
      rfl
    · rw [if_neg ho]
      exact ⟨done, hlength, rowLengths_concat ho hrows⟩

theorem inSource_iff_exists (p : Point) (source : List UInt8) :
    p.inSource source = true ↔ ∃ n, (rowLengths source)[p.row]? = some n ∧ p.column ≤ n := by
  rw [Point.inSource]
  cases (rowLengths source)[p.row]? <;> simp

/-- A point is in one of the rows before the last one, or in the last one. -/
theorem inSource_iff_of_rowLengths {done : List Nat} {n : Nat} (p : Point)
    (hrows : rowLengths source = done ++ [n]) :
    p.inSource source = true ↔
      (∃ m, done[p.row]? = some m ∧ p.column ≤ m) ∨ p.row = done.length ∧ p.column ≤ n := by
  rw [inSource_iff_exists, hrows]
  rcases Nat.lt_trichotomy p.row done.length with hlt | heq | hgt
  · simp [List.getElem?_append_left hlt, List.getElem?_eq_getElem hlt, Nat.ne_of_lt hlt]
  · simp [heq]
  · have hnone : (done ++ [n])[p.row]? = none := by
      rw [List.getElem?_eq_none_iff, List.length_append, List.length_singleton]
      omega
    simp [hnone, List.getElem?_eq_none (Nat.le_of_lt hgt), Nat.ne_of_gt hgt]

/-- One more octet adds one more point, which is the one after it. -/
theorem inSource_concat (p : Point) (source : List UInt8) (octet : UInt8) :
    p.inSource (source ++ [octet]) = true ↔
      p.inSource source = true ∨ (Point.ofOffset source source.length).advance octet = p := by
  obtain ⟨done, hlength, hrows⟩ := rowLengths_eq source
  obtain ⟨row, column⟩ := p
  rw [Point.advance]
  by_cases ho : octet = 10
  · have hlast : (rowLengths source).length = done.length + 1 := by
      rw [hrows, List.length_append, List.length_singleton]
    rw [if_pos ho, ho, inSource_iff_of_rowLengths _ (rowLengths_newline source),
      inSource_iff_exists, Point.mk.injEq, hlast, hlength]
    refine or_congr_right ?_
    dsimp only
    omega
  · rw [if_neg ho, inSource_iff_of_rowLengths _ (rowLengths_concat ho hrows),
      inSource_iff_of_rowLengths _ hrows, Point.mk.injEq, hlength, or_assoc]
    refine or_congr_right ?_
    dsimp only
    omega

/-- The points of a source are those of its offsets. -/
theorem inSource_iff (p : Point) (source : List UInt8) :
    p.inSource source = true ↔ ∃ offset ≤ source.length, Point.ofOffset source offset = p := by
  induction source using List.reverseRecOn with
  | nil =>
    obtain ⟨row, column⟩ := p
    have hrows : rowLengths [] = [] ++ [0] := rfl
    rw [inSource_iff_of_rowLengths _ hrows]
    simp [Point.ofOffset, eq_comm]
  | append_singleton source octet ih =>
    rw [inSource_concat, ih, List.length_append, List.length_singleton]
    constructor
    · rintro (⟨offset, hle, hp⟩ | hp)
      · exact ⟨offset, Nat.le_succ_of_le hle, (ofOffset_append hle _).trans hp⟩
      · exact ⟨source.length + 1, Nat.le_refl _, (ofOffset_length_concat source octet).trans hp⟩
    · rintro ⟨offset, hle, hp⟩
      rcases Nat.le_succ_iff.mp hle with hle | rfl
      · exact .inl ⟨offset, hle, (ofOffset_append hle _).symm.trans hp⟩
      · exact .inr ((ofOffset_length_concat source octet).symm.trans hp)

/-! ## Points in spans -/

/-- The span holds the point, and does not end there. -/
def Span.Covers (s : Span) (p : Point) : Prop :=
  p.before s.startPoint = false ∧ p.before s.endPoint = true

namespace Span.LiesIn

variable {s : Span}

theorem startByte_le (h : s.LiesIn source) : s.startByte ≤ source.length :=
  Nat.le_trans h.ordered h.inside

theorem contains_iff (h : s.LiesIn source) (ho : o ≤ source.length) :
    s.contains (.ofOffset source o) = true ↔ s.startByte ≤ o ∧ o ≤ s.endByte := by
  rw [contains, Bool.and_eq_true, Bool.not_eq_true', Bool.not_eq_true', h.startPoint, h.endPoint,
    before_ofOffset_eq_false_iff ho h.startByte_le, before_ofOffset_eq_false_iff h.inside ho]

theorem covers_iff (h : s.LiesIn source) (ho : o ≤ source.length) :
    s.Covers (.ofOffset source o) ↔ s.startByte ≤ o ∧ o < s.endByte := by
  rw [Covers, h.startPoint, h.endPoint, before_ofOffset_eq_false_iff ho h.startByte_le,
    before_ofOffset_iff ho h.inside]

/-- An empty span ends before an offset only if it is another one. -/
theorem endsBefore_iff (h : s.LiesIn source) (ho : o ≤ source.length) :
    s.endsBefore (.ofOffset source o) = true ↔ s.startByte < o ∧ s.endByte ≤ o := by
  have hordered := h.ordered
  rw [endsBefore, h.startPoint, h.endPoint]
  split
  · rename_i hempty
    rw [ofOffset_inj h.startByte_le h.inside] at hempty
    rw [before_ofOffset_iff h.inside ho]
    omega
  · rename_i hfilled
    rw [ofOffset_inj h.startByte_le h.inside] at hfilled
    rw [Bool.not_eq_true', before_ofOffset_eq_false_iff ho h.inside]
    omega

end Span.LiesIn

/-! ## The way to a node -/

/-- One node leads to another that is its child and lies in it, by its octets and its points. -/
structure Node.LeadsTo (n child : Node) : Prop where
  mem : child ∈ n.children
  octets : n.span.startByte ≤ child.span.startByte ∧ child.span.endByte ≤ n.span.endByte
  points : child.span.startPoint.before n.span.startPoint = false ∧
    n.span.endPoint.before child.span.endPoint = false

/-- The nodes of a path lead from a root downwards. -/
structure Descent (root : Node) (path : List Node) : Prop where
  head : path.head? = some root
  chain : path.IsChain Node.LeadsTo

/-- All nodes of a path hold a point, and no child of the last one covers it. -/
structure Surrounds (p : Point) (path : List Node) : Prop where
  contains : ∀ n ∈ path, n.span.contains p = true
  innermost : ∀ last ∈ path.getLast?, ∀ child ∈ last.children, ¬ child.span.Covers p

theorem Node.LeadsTo.contains {n child : Node} (h : n.LeadsTo child)
    (hp : child.span.contains p = true) : n.span.contains p = true := by
  obtain ⟨hstart, hstop⟩ := h.points
  simp only [Span.contains, Bool.and_eq_true, Bool.not_eq_true'] at hp ⊢
  simp only [← Bool.not_eq_true, Point.before_iff] at hp hstart hstop ⊢
  omega

theorem Descent.singleton (root : Node) : Descent root [root] :=
  ⟨rfl, .singleton root⟩

theorem Descent.cons {n child : Node} {path : List Node} (h : Descent child path)
    (hlead : n.LeadsTo child) : Descent n (n :: path) where
  head := rfl
  chain := h.chain.cons fun m hm => by
    rw [h.head, Option.mem_some_iff] at hm
    exact hm ▸ hlead

theorem Surrounds.cons {n child : Node} {path : List Node} (h : Surrounds p path)
    (hpath : Descent child path) (hn : n.span.contains p = true) : Surrounds p (n :: path) where
  contains := List.forall_mem_cons.mpr ⟨hn, h.contains⟩
  innermost := by
    obtain ⟨first, rest, rfl⟩ := List.exists_cons_of_ne_nil (l := path) fun hnil => by
      cases hpath.head.symm.trans (congrArg List.head? hnil)
    rw [List.getLast?_cons_cons]
    exact h.innermost

theorem Node.leadsTo_of_child {n child : Node} (hn : n.LiesIn source) (hnested : n.nested = true)
    (hchild : child ∈ n.children) : n.LeadsTo child := by
  obtain ⟨hstart, hstop, -⟩ := within_of_nested hnested hchild
  have hspan := hn n n.self_mem_preorder
  have hspan' := hn child (mem_preorder_of_child hchild child.self_mem_preorder)
  refine ⟨hchild, ⟨hstart, hstop⟩, ?_, ?_⟩
  · rw [hspan.startPoint, hspan'.startPoint,
      before_ofOffset_eq_false_iff hspan'.startByte_le hspan.startByte_le]
    exact hstart
  · rw [hspan.endPoint, hspan'.endPoint, before_ofOffset_eq_false_iff hspan.inside hspan'.inside]
    exact hstop

/-! ## The smallest node -/

/-- The number of octets from the start of a span to its end. -/
def Span.size (s : Span) : Nat := s.endByte - s.startByte

/-- The node holds the point.  No node that covers it is smaller, and none that does is as small and
further down. -/
structure Node.IsSmallest (root : Node) (p : Point) (n : Node) : Prop where
  holds : n.span.contains p = true
  least : ∀ m ∈ root.preorder, m.span.Covers p → n.span.size ≤ m.span.size
  lowest : ∀ m ∈ Node.preorderAll n.children, m.span.Covers p → m.span.size ≠ n.span.size

/-- What the search for the smallest node is to do.  Wherever the root holds a position of the
source, it finds a node of the tree that is the smallest there.

A search may also look into parts of the source for which the tree shows no nodes.  One that stops
there, with the node around that part, may miss a smaller one, and nothing is said of it. -/
def FindsSmallest (root : Node) (source : List UInt8) (smallest : Point → Option (List Nat)) :
    Prop :=
  ∀ offset ≤ source.length, root.span.contains (.ofOffset source offset) = true →
    ∃ route above n, smallest (.ofOffset source offset) = some route ∧
      root.reach? route = some (above, n) ∧ root.IsSmallest (.ofOffset source offset) n

/-- A child of the smallest node would be as small, if it covered the point. -/
theorem Node.IsSmallest.not_covers_child {root n : Node} (h : root.IsSmallest p n)
    (hn : n ∈ root.preorder) (hnested : root.nested = true) :
    ∀ child ∈ n.children, ¬ child.span.Covers p := by
  intro child hchild hcovers
  obtain ⟨hstart, hstop, -⟩ :=
    Node.within_of_nested (Node.within_of_mem_preorder hnested hn).2.2 hchild
  have hleast := h.least child (preorder_subset_of_mem hn
    (mem_preorder_of_child hchild child.self_mem_preorder)) hcovers
  refine h.lowest child (mem_preorderAll.mpr ⟨child, hchild, child.self_mem_preorder⟩) hcovers ?_
  rw [Span.size, Span.size] at hleast ⊢
  omega

/-- A route leads down, and if nothing below its end covers a point that the end holds, then all
nodes on the way surround the point. -/
theorem Node.surrounds_of_reach? {n m : Node} {route : List Nat} {above : List Node}
    (hn : n.LiesIn source) (hnested : n.nested = true) (h : n.reach? route = some (above, m))
    (hholds : m.span.contains p = true) (hlast : ∀ child ∈ m.children, ¬ child.span.Covers p) :
    Descent n (above ++ [m]) ∧ Surrounds p (above ++ [m]) := by
  induction route generalizing n above with
  | nil =>
    obtain ⟨rfl, rfl⟩ := Prod.mk.inj (Option.some.inj h)
    exact ⟨.singleton n, by simpa using hholds, by simpa using hlast⟩
  | cons i route ih =>
    rw [Node.reach?, Option.bind_eq_some_iff] at h
    obtain ⟨child, hget, hreach⟩ := h
    obtain ⟨⟨above', m'⟩, hreach, ⟨⟩⟩ := Option.map_eq_some_iff.mp hreach
    have hchild := List.mem_of_getElem? hget
    obtain ⟨hdown, haround⟩ :=
      ih (hn.of_child hchild) (Node.within_of_nested hnested hchild).2.2 hreach
    have hlead := leadsTo_of_child hn hnested hchild
    have hholds' := haround.contains child (List.mem_of_head? hdown.head)
    exact ⟨hdown.cons hlead, haround.cons hdown (hlead.contains hholds')⟩

/-! ## A search -/

/-- Among siblings the search goes on with one that holds the position, which is empty unless it is
the only one that covers it.  If the search does not go on then none of them covers it. -/
theorem routeAmong_cases {i start stop : Nat} {ns : List Node} (ho : o ≤ source.length)
    (hns : ∀ n ∈ ns, n.LiesIn source) (hnested : nestedFrom start stop ns = true) :
    (routeAmong (.ofOffset source o) i ns = [] ∧
        ∀ n ∈ ns, ¬ n.span.Covers (.ofOffset source o)) ∨
      ∃ j n, ns[j]? = some n ∧
        routeAmong (.ofOffset source o) i ns = (i + j) :: n.routeTo (.ofOffset source o) ∧
        n.span.contains (.ofOffset source o) = true ∧
        ∀ m ∈ ns, m.span.Covers (.ofOffset source o) →
          m = n ∨ n.span.startByte = n.span.endByte := by
  induction ns generalizing i start with
  | nil => exact .inl ⟨rfl, fun _ hn => absurd hn List.not_mem_nil⟩
  | cons n rest ih =>
    obtain ⟨hn, hrest⟩ := List.forall_mem_cons.mp hns
    obtain ⟨-, -, hafter⟩ := nestedFrom_cons.mp hnested
    have hspan := hn n n.self_mem_preorder
    have hordered := hspan.ordered
    rw [routeAmong]
    split
    · -- This sibling ends too early.
      rename_i hends
      rw [hspan.endsBefore_iff ho] at hends
      have hpassed : ¬ n.span.Covers (.ofOffset source o) := by
        rw [hspan.covers_iff ho]
        omega
      rcases ih (i := i + 1) hrest hafter with ⟨hnil, hnone⟩ | ⟨j, m, hm, hroute, hholds, honly⟩
      · exact .inl ⟨hnil, List.forall_mem_cons.mpr ⟨hpassed, hnone⟩⟩
      · refine .inr ⟨j + 1, m, hm, by rw [hroute, Nat.add_right_comm, Nat.add_assoc], hholds, ?_⟩
        exact List.forall_mem_cons.mpr ⟨fun hcovers => absurd hcovers hpassed, honly⟩
    · rename_i hends
      rw [hspan.endsBefore_iff ho] at hends
      split
      · -- This sibling starts too late, and so do all that follow it.
        rename_i hbefore
        rw [hspan.startPoint, before_ofOffset_iff ho hspan.startByte_le] at hbefore
        refine .inl ⟨rfl, fun m hm hcovers => ?_⟩
        rw [(hns m hm m m.self_mem_preorder).covers_iff ho] at hcovers
        rcases List.mem_cons.mp hm with rfl | hm
        · omega
        · have hfrom := (within_of_nestedFrom hafter m hm).1
          omega
      · rename_i hbefore
        rw [hspan.startPoint, before_ofOffset_iff ho hspan.startByte_le] at hbefore
        refine .inr ⟨0, n, rfl, rfl, ?_, fun m hm hcovers => ?_⟩
        · rw [hspan.contains_iff ho]
          omega
        · -- One that covers the position and comes later leaves no room for this one.
          rcases List.mem_cons.mp hm with rfl | hm
          · exact .inl rfl
          · rw [(hrest m hm m m.self_mem_preorder).covers_iff ho] at hcovers
            have hfrom := (within_of_nestedFrom hafter m hm).1
            exact .inr (by omega)

theorem Node.routeTo_eq (p : Point) (n : Node) : n.routeTo p = routeAmong p 0 n.children := by
  cases n
  rw [Node.routeTo]
  rfl

/-- What covers a position below a node is below a child that covers it as well. -/
theorem Node.exists_child_covers {n m : Node} (ho : o ≤ source.length) (hn : n.LiesIn source)
    (hnested : n.nested = true) (hm : m ∈ preorderAll n.children)
    (hcovers : m.span.Covers (.ofOffset source o)) :
    ∃ child ∈ n.children, m ∈ child.preorder ∧ child.span.Covers (.ofOffset source o) := by
  obtain ⟨child, hchild, hm⟩ := mem_preorderAll.mp hm
  have hwithin := within_of_mem_preorder (within_of_nested hnested hchild).2.2 hm
  have hlies := hn.of_child hchild
  rw [(hlies m hm).covers_iff ho] at hcovers
  refine ⟨child, hchild, hm, ?_⟩
  rw [(hlies child child.self_mem_preorder).covers_iff ho]
  omega

/-- From a node that holds the position, the way down ends at the smallest one. -/
theorem Node.reach?_routeTo {n : Node} (ho : o ≤ source.length) (hn : n.LiesIn source)
    (hnested : n.nested = true) (hholds : n.span.contains (.ofOffset source o) = true) :
    ∃ above m, n.reach? (n.routeTo (.ofOffset source o)) = some (above, m) ∧
      n.IsSmallest (.ofOffset source o) m := by
  induction n using Node.induction with
  | step n ih =>
    have hchildren := hnested
    rw [Node.nested_eq] at hchildren
    rw [routeTo_eq]
    rcases routeAmong_cases (i := 0) ho (fun child hchild => hn.of_child hchild) hchildren with
      ⟨hnil, hnone⟩ | ⟨j, child, hget, hroute, hholds', honly⟩
    · have hbelow : ∀ m ∈ preorderAll n.children, ¬ m.span.Covers (.ofOffset source o) := by
        intro m hm hcovers
        obtain ⟨child, hchild, -, hcovers⟩ := exists_child_covers ho hn hnested hm hcovers
        exact hnone child hchild hcovers
      rw [hnil]
      refine ⟨[], n, rfl, hholds, fun m hm hcovers => ?_, fun m hm hcovers => ?_⟩
      · rw [preorder_eq, List.mem_cons] at hm
        rcases hm with rfl | hm
        · exact Nat.le_refl _
        · exact absurd hcovers (hbelow m hm)
      · exact absurd hcovers (hbelow m hm)
    · have hchild := List.mem_of_getElem? hget
      obtain ⟨hstart, hstop, hnested'⟩ := within_of_nested hnested hchild
      obtain ⟨above, m, hreach, hsmallest⟩ := ih child hchild (hn.of_child hchild) hnested' hholds'
      have hwithin := within_of_mem_preorder hnested' (mem_preorder_of_reach? hreach)
      have hsize : m.span.size ≤ child.span.size := by
        rw [Span.size, Span.size]
        omega
      rw [hroute, Nat.zero_add, reach?, hget, Option.bind_some, hreach]
      refine ⟨n :: above, m, rfl, hsmallest.holds, fun k hk hcovers => ?_, hsmallest.lowest⟩
      rw [preorder_eq, List.mem_cons] at hk
      rcases hk with rfl | hk
      · rw [Span.size, Span.size] at hsize ⊢
        omega
      · obtain ⟨other, hother, hk, hcovers'⟩ := exists_child_covers ho hn hnested hk hcovers
        rcases honly other hother hcovers' with rfl | hempty
        · exact hsmallest.least k hk hcovers
        · rw [Span.size, Span.size] at hsize ⊢
          omega

/-- The search by `Node.routeTo` finds the smallest node. -/
theorem findsSmallest_routeTo {root : Node} (hroot : root.LiesIn source)
    (hnested : root.nested = true) :
    FindsSmallest root source fun p => some (root.routeTo p) := by
  intro offset hle hholds
  obtain ⟨above, n, hreach, hsmallest⟩ := root.reach?_routeTo hle hroot hnested hholds
  exact ⟨_, above, n, rfl, hreach, hsmallest⟩

/-! ## The answer -/

/-- What is answered at a position of the source. -/
theorem nodesAt_ofOffset {root : Node} {smallest : Point → Option (List Nat)}
    (hroot : root.LiesIn source) (hnested : root.nested = true)
    (hsmallest : FindsSmallest root source smallest) (ho : o ≤ source.length) :
    ∃ path, nodesAt root source (.ofOffset source o) smallest = some path ∧ Descent root path ∧
      (root.span.contains (.ofOffset source o) = false → path = [root]) ∧
      (root.span.contains (.ofOffset source o) = true → Surrounds (.ofOffset source o) path) := by
  rw [nodesAt, if_pos ((inSource_iff _ _).mpr ⟨o, ho, rfl⟩)]
  by_cases hholds : root.span.contains (.ofOffset source o) = true
  · obtain ⟨route, above, n, hfound, hreach, hn⟩ := hsmallest o ho hholds
    have hlast := hn.not_covers_child (Node.mem_preorder_of_reach? hreach) hnested
    obtain ⟨hdown, haround⟩ := Node.surrounds_of_reach? hroot hnested hreach hn.holds hlast
    rw [if_pos hholds, hfound, Option.bind_some, hreach]
    exact ⟨_, rfl, hdown, fun hout => absurd hholds (by simp [hout]), fun _ => haround⟩
  · rw [if_neg hholds]
    exact ⟨_, rfl, .singleton root, fun _ => rfl, fun h => absurd h hholds⟩

end CodeAtlas.Syntax
