import CodeAtlas.Syntax.Span

/-! # Syntax trees

A node has a label and its children in source order.  A tree is its root, with a flag that tells
of defects in the source.

Trees come from a library, which also looks for the smallest node that spans a point.  How it does
so is its own affair, so that a tree carries the answers. -/

namespace CodeAtlas.Syntax

structure Label where
  kind : String
  named : Bool
  /-- The node stands for something that the source lacks. -/
  missing : Bool
  /-- The node holds source that fits no construct. -/
  error : Bool
  /-- What the node is to its parent. -/
  field : Option String
  span : Span
deriving DecidableEq, Repr, Inhabited

inductive Node where
  | mk (label : Label) (children : List Node)
deriving Repr

structure Tree where
  root : Node
  hasErrors : Bool
  /-- The route from the root to the smallest node that spans a point, if the search finds one. -/
  smallest : Point → Option (List Nat)

namespace Node

instance : Inhabited Node := ⟨mk default []⟩

def label : Node → Label
  | mk label _ => label

def children : Node → List Node
  | mk _ children => children

def kind (n : Node) : String := n.label.kind

def named (n : Node) : Bool := n.label.named

def span (n : Node) : Span := n.label.span

def text (source : List UInt8) (n : Node) : String := n.span.text source

/-- The node where a route ends, after the nodes above it on the way, unless there is no such child.
A route says which child to go to at each step down. -/
def reach? (n : Node) : List Nat → Option (List Node × Node)
  | [] => some ([], n)
  | i :: route =>
    n.children[i]?.bind fun child => (child.reach? route).map fun (above, m) => (n :: above, m)

mutual

/-- The node and all nodes below it, each one before its children. -/
def preorder : Node → List Node
  | mk label children => mk label children :: preorderAll children

def preorderAll : List Node → List Node
  | [] => []
  | n :: rest => n.preorder ++ preorderAll rest

end

theorem preorder_eq (n : Node) : n.preorder = n :: preorderAll n.children := by
  cases n
  rw [preorder]
  rfl

theorem mem_preorderAll {m : Node} {ns : List Node} :
    m ∈ preorderAll ns ↔ ∃ n ∈ ns, m ∈ n.preorder := by
  induction ns with
  | nil => simp [preorderAll]
  | cons n rest ih => simp [preorderAll, ih]

theorem self_mem_preorder (n : Node) : n ∈ n.preorder := by
  rw [preorder_eq]
  exact List.mem_cons_self

theorem mem_preorder_of_child {m child n : Node} (hchild : child ∈ n.children)
    (h : m ∈ child.preorder) : m ∈ n.preorder := by
  rw [preorder_eq]
  exact List.mem_cons_of_mem _ (mem_preorderAll.mpr ⟨child, hchild, h⟩)

mutual

/-- What holds of a node whenever it holds of its children holds of every node. -/
@[elab_as_elim]
theorem induction {motive : Node → Prop}
    (step : ∀ n : Node, (∀ child ∈ n.children, motive child) → motive n) : ∀ n, motive n
  | mk label children => step (mk label children) (inductionAll step children)

theorem inductionAll {motive : Node → Prop}
    (step : ∀ n : Node, (∀ child ∈ n.children, motive child) → motive n) :
    ∀ ns : List Node, ∀ n ∈ ns, motive n
  | [], _, h => nomatch h
  | first :: rest, n, h => by
    rcases List.mem_cons.mp h with h | h
    · rw [h]
      exact induction step first
    · exact inductionAll step rest n h

end

/-- What is below a node in the tree is below all that are above it. -/
theorem preorder_subset_of_mem {m n : Node} (hm : m ∈ n.preorder) : m.preorder ⊆ n.preorder := by
  induction n using Node.induction with
  | step n ih =>
    rw [preorder_eq, List.mem_cons] at hm
    rcases hm with rfl | hm
    · exact List.Subset.refl _
    · obtain ⟨child, hchild, hm⟩ := mem_preorderAll.mp hm
      exact fun k hk => mem_preorder_of_child hchild (ih child hchild hm hk)

mutual

/-- The number of nodes from here down. -/
def size : Node → Nat
  | mk _ children => sizeAll children + 1

def sizeAll : List Node → Nat
  | [] => 0
  | n :: rest => n.size + sizeAll rest

end

theorem size_pos (n : Node) : 0 < n.size := by
  cases n
  exact Nat.succ_pos _

end Node

/-- Whether a child ends too early to hold the point.  An empty child holds its own place. -/
def Span.endsBefore (s : Span) (p : Point) : Bool :=
  if s.startPoint = s.endPoint then s.endPoint.before p else !p.before s.endPoint

mutual

/-- The route down to the smallest node that spans the point. -/
def Node.routeTo (p : Point) : Node → List Nat
  | .mk _ children => routeAmong p 0 children

/-- Go on through the first child that reaches beyond the point, if it starts no later.  The
children are numbered from `i` on. -/
def routeAmong (p : Point) (i : Nat) : List Node → List Nat
  | [] => []
  | n :: rest =>
    if n.span.endsBefore p then routeAmong p (i + 1) rest
    else if p.before n.span.startPoint then []
    else i :: n.routeTo p

end

/-- A tree in which the smallest node is looked for by `Node.routeTo`, as the library does where all
nodes are shown. -/
def Tree.ofRoot (root : Node) (hasErrors : Bool) : Tree where
  root
  hasErrors
  smallest p := some (root.routeTo p)

@[simp]
theorem Tree.root_ofRoot (root : Node) (hasErrors : Bool) : (ofRoot root hasErrors).root = root :=
  rfl

/-- The number of nodes. -/
def Tree.size (t : Tree) : Nat := t.root.size

/-- What stands for reading a source in a language. -/
abbrev Parser (Language : Type) := Language → List UInt8 → Option Tree

end CodeAtlas.Syntax
