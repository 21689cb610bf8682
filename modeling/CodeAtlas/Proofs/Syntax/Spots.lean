import CodeAtlas.Proofs.Syntax.Rows
import CodeAtlas.Syntax.Spot
import Mathlib.Data.List.Basic
import Mathlib.Data.List.Nodup

/-!
# The order of a tree

Spots number the nodes of a tree.  This file ties them to the list of all nodes, each one before its
children: the levels of a tree have its spots at their heads, in this order, and the numbers are the
places in the list (`Spot.places_ofRoot`).  Where the spans of a tree are nested, its nodes start in
this order too (`Node.startsWithin_preorder`).
-/

namespace CodeAtlas.Syntax

/-! ## Numbers -/

namespace Node

mutual

theorem length_preorder : ∀ n : Node, n.preorder.length = n.size
  | mk _ children => by rw [preorder, List.length_cons, length_preorderAll, size]

theorem length_preorderAll : ∀ ns : List Node, (preorderAll ns).length = sizeAll ns
  | [] => rfl
  | n :: rest => by
    rw [preorderAll, List.length_append, length_preorder, length_preorderAll, sizeAll]

end

end Node

namespace Spot

mutual

/-- The spot and all spots below it, each one before its children. -/
def preorder : Spot → List Spot
  | mk index label children => mk index label children :: preorderAll children

def preorderAll : List Spot → List Spot
  | [] => []
  | s :: rest => s.preorder ++ preorderAll rest

end

theorem preorder_eq (s : Spot) : s.preorder = s :: preorderAll s.children := by
  cases s
  rw [preorder]
  rfl

theorem mem_preorderAll {t : Spot} {ss : List Spot} :
    t ∈ preorderAll ss ↔ ∃ s ∈ ss, t ∈ s.preorder := by
  induction ss with
  | nil => simp [preorderAll]
  | cons s rest ih => simp [preorderAll, ih]

theorem preorderAll_subset_of_suffix {ss rest : List Spot} (h : rest <:+ ss) :
    preorderAll rest ⊆ preorderAll ss := by
  intro t ht
  obtain ⟨s, hs, ht⟩ := mem_preorderAll.mp ht
  exact mem_preorderAll.mpr ⟨s, h.mem hs, ht⟩

theorem self_mem_preorder (s : Spot) : s ∈ s.preorder := by
  rw [preorder_eq]
  exact List.mem_cons_self

theorem mem_preorder_of_child {c s t : Spot} (hchild : c ∈ s.children) (h : t ∈ c.preorder) :
    t ∈ s.preorder := by
  rw [preorder_eq]
  exact List.mem_cons_of_mem _ (mem_preorderAll.mpr ⟨c, hchild, h⟩)

mutual

theorem preorder_subset_of_mem : ∀ (s : Spot), ∀ t ∈ s.preorder, t.preorder ⊆ s.preorder
  | mk index label children => by
    intro t ht
    rw [preorder] at ht
    rcases List.mem_cons.mp ht with rfl | ht
    · exact List.Subset.refl _
    · rw [preorder]
      exact List.Subset.trans (preorder_subset_of_mem_all children t ht) (List.subset_cons_self _ _)

/-- What is below something below some siblings is below them. -/
theorem preorder_subset_of_mem_all : ∀ (ss : List Spot), ∀ t ∈ preorderAll ss,
    t.preorder ⊆ preorderAll ss
  | [] => fun _ ht => absurd ht List.not_mem_nil
  | s :: rest => by
    intro t ht
    rw [preorderAll, List.mem_append] at ht
    rw [preorderAll]
    rcases ht with ht | ht
    · exact List.Subset.trans (preorder_subset_of_mem s t ht) (List.subset_append_left _ _)
    · exact List.Subset.trans (preorder_subset_of_mem_all rest t ht) (List.subset_append_right _ _)

end

mutual

theorem heads_levels : ∀ s : Spot,
    s.levels.map (fun level => level.2.head?) = (preorderAll s.children).map some
  | mk _ label children => by
    rw [levels, heads_levelsOf]
    rfl

theorem heads_levelsOf (error : Bool) : ∀ ss : List Spot,
    (levelsOf error ss).map (fun level => level.2.head?) = (preorderAll ss).map some
  | [] => rfl
  | s :: rest => by
    rw [levelsOf, List.map_cons, List.map_append, heads_levels, heads_levelsOf error rest,
      preorderAll, preorder_eq, List.cons_append, List.map_cons, List.map_append]
    rfl

end

mutual

theorem preorderAll_subset_of_mem_levels : ∀ (s : Spot), ∀ level ∈ s.levels,
    preorderAll level.2 ⊆ preorderAll s.children
  | mk _ label children => by
    rw [levels]
    exact preorderAll_subset_of_mem_levelsOf label.error children

/-- All that is at a level of some siblings is at or below them. -/
theorem preorderAll_subset_of_mem_levelsOf (error : Bool) : ∀ (ss : List Spot),
    ∀ level ∈ levelsOf error ss, preorderAll level.2 ⊆ preorderAll ss
  | [] => fun _ h => absurd h List.not_mem_nil
  | s :: rest => by
    intro level hlevel t ht
    rw [levelsOf, List.mem_cons, List.mem_append] at hlevel
    rw [preorderAll, preorder_eq]
    rcases hlevel with rfl | hlevel | hlevel
    · rwa [preorderAll, preorder_eq] at ht
    · have hmem := preorderAll_subset_of_mem_levels s level hlevel ht
      exact List.mem_append_left _ (List.mem_cons_of_mem s hmem)
    · have hmem := preorderAll_subset_of_mem_levelsOf error rest level hlevel ht
      exact List.mem_append_right _ hmem

end

/-- What only asks for the first of some siblings asks for every spot, one after the other. -/
theorem flatMap_levelsOf {β : Type} {g : List Spot → List β} {f : Spot → List β}
    (h : ∀ s rest, g (s :: rest) = f s) (error : Bool) (ss : List Spot) :
    ((levelsOf error ss).flatMap fun level => g level.2) = (preorderAll ss).flatMap f := by
  have hheads : ∀ level ∈ levelsOf error ss,
      g level.2 = (level.2.head?.map f).getD [] := by
    intro level hlevel
    have hmem := List.mem_map_of_mem (f := fun level : Bool × List Spot => level.2.head?) hlevel
    rw [heads_levelsOf] at hmem
    obtain ⟨s, -, hs⟩ := List.mem_map.mp hmem
    obtain ⟨rest, hrest⟩ := List.head?_eq_some_iff.mp hs.symm
    rw [hrest, h]
    rfl
  rw [List.flatMap_congr hheads, ← List.flatMap_map (f := fun level : Bool × List Spot =>
    level.2.head?) (g := fun head => (head.map f).getD []), heads_levelsOf, List.flatMap_map]
  rfl

mutual

theorem places_ofNode (i : Nat) : ∀ n : Node,
    (ofNode i n).preorder.map (fun s => (s.label, s.index)) = (n.preorder.map Node.label).zipIdx i
  | .mk label children => by
    rw [ofNode, preorder, List.map_cons, places_ofNodes (i + 1) children, Node.preorder,
      List.map_cons, List.zipIdx_cons]
    rfl

theorem places_ofNodes (i : Nat) : ∀ ns : List Node,
    (preorderAll (ofNodes i ns)).map (fun s => (s.label, s.index)) =
      ((Node.preorderAll ns).map Node.label).zipIdx i
  | [] => rfl
  | n :: rest => by
    rw [ofNodes, preorderAll, List.map_append, places_ofNode i n, places_ofNodes _ rest,
      Node.preorderAll, List.map_append, List.zipIdx_append, List.length_map,
      Node.length_preorder]

end

mutual

theorem exists_node_of_mem_ofNode (i : Nat) : ∀ (n : Node), ∀ s ∈ (ofNode i n).preorder,
    ∃ j, ∃ m ∈ n.preorder, s = ofNode j m
  | .mk label children => by
    intro s hs
    rw [ofNode, preorder] at hs
    rcases List.mem_cons.mp hs with rfl | hs
    · exact ⟨i, .mk label children, Node.self_mem_preorder _, rfl⟩
    · obtain ⟨j, m, hm, rfl⟩ := exists_node_of_mem_ofNodes (i + 1) children s hs
      rw [Node.preorder]
      exact ⟨j, m, List.mem_cons_of_mem _ hm, rfl⟩

/-- A spot of a tree is a node of it with all that is below. -/
theorem exists_node_of_mem_ofNodes (i : Nat) : ∀ (ns : List Node),
    ∀ s ∈ preorderAll (ofNodes i ns), ∃ j, ∃ m ∈ Node.preorderAll ns, s = ofNode j m
  | [] => fun _ hs => absurd hs List.not_mem_nil
  | n :: rest => by
    intro s hs
    rw [ofNodes, preorderAll, List.mem_append] at hs
    rw [Node.preorderAll]
    rcases hs with hs | hs
    · obtain ⟨j, m, hm, rfl⟩ := exists_node_of_mem_ofNode i n s hs
      exact ⟨j, m, List.mem_append_left _ hm, rfl⟩
    · obtain ⟨j, m, hm, rfl⟩ := exists_node_of_mem_ofNodes _ rest s hs
      exact ⟨j, m, List.mem_append_right _ hm, rfl⟩

end

/-- The spots of a tree are its nodes with their places. -/
theorem places_ofRoot (root : Node) :
    (ofRoot root).preorder.map (fun s => (s.label, s.index)) =
      root.preorder.zipIdx.map fun x => (x.1.label, x.2) := by
  rw [ofRoot, places_ofNode, List.zipIdx_map]
  rfl

theorem indices_ofRoot (root : Node) :
    (ofRoot root).preorder.map index = List.range' 0 root.preorder.length := by
  have h := congrArg (List.map Prod.snd) (places_ofRoot root)
  rw [List.map_map, List.map_map] at h
  exact h.trans (List.zipIdx_map_snd 0 root.preorder)

/-- No two spots of a tree have the same number. -/
theorem eq_of_index_eq {root : Node} {s t : Spot} (hs : s ∈ (ofRoot root).preorder)
    (ht : t ∈ (ofRoot root).preorder) (h : s.index = t.index) : s = t := by
  have hnodup : ((ofRoot root).preorder.map index).Nodup := by
    rw [indices_ofRoot]
    exact List.nodup_range'
  exact List.inj_on_of_nodup_map hnodup hs ht h

end Spot

/-! ## Starts -/

/-- The nodes start one after the other, from one offset on and up to another one. -/
structure StartsWithin (start stop : Nat) (ns : List Node) : Prop where
  le : start ≤ stop
  between : ∀ n ∈ ns, start ≤ n.span.startByte ∧ n.span.startByte ≤ stop
  inOrder : ns.Pairwise fun a b => a.span.startByte ≤ b.span.startByte

namespace StartsWithin

variable {start mid stop : Nat} {ns ms : List Node}

theorem append (h : StartsWithin start mid ns) (h' : StartsWithin mid stop ms) :
    StartsWithin start stop (ns ++ ms) where
  le := Nat.le_trans h.le h'.le
  between n hn := by
    rcases List.mem_append.mp hn with hn | hn
    · exact ⟨(h.between n hn).1, Nat.le_trans (h.between n hn).2 h'.le⟩
    · exact ⟨Nat.le_trans h.le (h'.between n hn).1, (h'.between n hn).2⟩
  inOrder := List.pairwise_append.mpr ⟨h.inOrder, h'.inOrder,
    fun a ha b hb => Nat.le_trans (h.between a ha).2 (h'.between b hb).1⟩

theorem mono (h : StartsWithin mid stop ns) (hle : start ≤ mid) : StartsWithin start stop ns where
  le := Nat.le_trans hle h.le
  between n hn := ⟨Nat.le_trans hle (h.between n hn).1, (h.between n hn).2⟩
  inOrder := h.inOrder

theorem cons {n : Node} (h : StartsWithin n.span.startByte stop ns) :
    StartsWithin n.span.startByte stop (n :: ns) where
  le := h.le
  between m hm := by
    rcases List.mem_cons.mp hm with rfl | hm
    · exact ⟨Nat.le_refl _, h.le⟩
    · exact h.between m hm
  inOrder := List.pairwise_cons.mpr ⟨fun m hm => (h.between m hm).1, h.inOrder⟩

end StartsWithin

theorem Node.nested_eq (n : Node) :
    n.nested = nestedFrom n.span.startByte n.span.endByte n.children := by
  cases n
  rw [Node.nested]
  rfl

theorem nestedFrom_cons {start stop : Nat} {n : Node} {rest : List Node} :
    nestedFrom start stop (n :: rest) = true ↔
      start ≤ n.span.startByte ∧ n.nested = true ∧ nestedFrom n.span.endByte stop rest = true := by
  rw [nestedFrom, Bool.and_eq_true, Bool.and_eq_true, decide_eq_true_eq, and_assoc]

mutual

/-- Nodes with nested spans start in the order of the tree. -/
theorem Node.startsWithin_preorder : ∀ n : Node, n.nested = true →
    StartsWithin n.span.startByte n.span.endByte n.preorder
  | .mk label children, h => by
    rw [Node.nested] at h
    have hchildren := startsWithin_preorderAll _ _ children h
    rw [Node.preorder]
    exact .cons hchildren

theorem startsWithin_preorderAll (start stop : Nat) : ∀ ns : List Node,
    nestedFrom start stop ns = true → StartsWithin start stop (Node.preorderAll ns)
  | [], h => by
    rw [nestedFrom, decide_eq_true_eq] at h
    exact ⟨h, fun _ hn => (nomatch hn), .nil⟩
  | n :: rest, h => by
    obtain ⟨hstart, hn, hrest⟩ := nestedFrom_cons.mp h
    have hfirst := (n.startsWithin_preorder hn).mono hstart
    rw [Node.preorderAll]
    exact hfirst.append (startsWithin_preorderAll _ _ rest hrest)

end

/-! ## Children of nested nodes -/

theorem within_of_nestedFrom {start stop : Nat} {ns : List Node}
    (h : nestedFrom start stop ns = true) : ∀ n ∈ ns,
      start ≤ n.span.startByte ∧ n.span.endByte ≤ stop ∧ n.nested = true := by
  induction ns generalizing start with
  | nil => exact fun _ hn => absurd hn List.not_mem_nil
  | cons first rest ih =>
    obtain ⟨hstart, hfirst, hrest⟩ := nestedFrom_cons.mp h
    have hle := (first.startsWithin_preorder hfirst).le
    have hstop := (startsWithin_preorderAll _ _ rest hrest).le
    intro n hn
    rcases List.mem_cons.mp hn with rfl | hn
    · exact ⟨hstart, hstop, hfirst⟩
    · obtain ⟨hfrom, hto, hnested⟩ := ih hrest n hn
      exact ⟨by omega, hto, hnested⟩

/-- The children of a node with nested spans lie in it, and their spans are nested too. -/
theorem Node.within_of_nested {n child : Node} (h : n.nested = true) (hchild : child ∈ n.children) :
    n.span.startByte ≤ child.span.startByte ∧ child.span.endByte ≤ n.span.endByte ∧
      child.nested = true := by
  rw [Node.nested_eq] at h
  exact within_of_nestedFrom h child hchild

theorem Node.within_of_mem_preorder {n m : Node} (h : n.nested = true) (hm : m ∈ n.preorder) :
    n.span.startByte ≤ m.span.startByte ∧ m.span.endByte ≤ n.span.endByte ∧ m.nested = true := by
  induction n using Node.induction with
  | step n ih =>
    rw [Node.preorder_eq, List.mem_cons] at hm
    rcases hm with rfl | hm
    · exact ⟨Nat.le_refl _, Nat.le_refl _, h⟩
    · obtain ⟨child, hchild, hm⟩ := Node.mem_preorderAll.mp hm
      obtain ⟨hstart, hstop, hnested⟩ := Node.within_of_nested h hchild
      obtain ⟨hstart', hstop', hnested'⟩ := ih child hchild hnested hm
      exact ⟨by omega, by omega, hnested'⟩

end CodeAtlas.Syntax
