import CodeAtlas.Syntax.Node

/-! # Cursors

A cursor stands on a node of a tree and knows its way on and its way back: the siblings that come
after the node, and the same of each node above it.  It never leaves the node that it was set on,
which counts as having neither siblings nor a parent. -/

namespace CodeAtlas.Syntax

structure Cursor where
  node : Node
  /-- The siblings that come after the node. -/
  after : List Node := []
  /-- The nodes above, the nearest one first, each with the siblings that come after it. -/
  above : List (Node × List Node) := []
deriving Repr

namespace Cursor

/-- What the node is to its parent, if the cursor may go there. -/
def field (c : Cursor) : Option String :=
  if c.above.isEmpty then none else c.node.label.field

def firstChild? (c : Cursor) : Option Cursor :=
  match c.node.children with
  | [] => none
  | n :: rest => some ⟨n, rest, (c.node, c.after) :: c.above⟩

def nextSibling? (c : Cursor) : Option Cursor :=
  match c.after with
  | [] => none
  | n :: rest => some ⟨n, rest, c.above⟩

def parent? (c : Cursor) : Option Cursor :=
  match c.above with
  | [] => none
  | (n, after) :: rest => some ⟨n, after, rest⟩

/-- A new cursor that is set on the node where this one stands. -/
def anew (c : Cursor) : Cursor :=
  { node := c.node }

/-- Whether as many siblings come after each node above. -/
def sameAbove : List (Node × List Node) → List (Node × List Node) → Bool
  | [], [] => true
  | (_, after) :: above, (_, after') :: above' =>
    sameAbove above above' && after.length = after'.length
  | _, _ => false

/-- Whether two cursors on one tree stand on the same node. -/
def samePlace (c d : Cursor) : Bool :=
  sameAbove c.above d.above && c.after.length = d.after.length

end Cursor

end CodeAtlas.Syntax
