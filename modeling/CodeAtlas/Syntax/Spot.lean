import CodeAtlas.Syntax.Node

/-! # Places in a tree

A spot is a node with the number of nodes that come before it in the tree, so that two nodes with
equal labels can be told apart and nodes can be ordered. -/

namespace CodeAtlas.Syntax

inductive Spot where
  | mk (index : Nat) (label : Label) (children : List Spot)
deriving Repr

namespace Spot

instance : Inhabited Spot := ⟨mk 0 default []⟩

def index : Spot → Nat
  | mk index _ _ => index

def label : Spot → Label
  | mk _ label _ => label

def children : Spot → List Spot
  | mk _ _ children => children

mutual

/-- Number a node and those below it, starting from a number. -/
def ofNode (index : Nat) : Node → Spot
  | .mk label children => mk index label (ofNodes (index + 1) children)

def ofNodes (index : Nat) : List Node → List Spot
  | [] => []
  | n :: rest => ofNode index n :: ofNodes (index + n.size) rest

end

def ofRoot (root : Node) : Spot := ofNode 0 root

/-- All ends of a list of siblings that are not empty. -/
def suffixes : List Spot → List (List Spot)
  | [] => []
  | s :: rest => (s :: rest) :: suffixes rest

mutual

/-- Each node below a spot with the siblings after it, a node before those below it.  The flag
tells of a defective parent. -/
def levels : Spot → List (Bool × List Spot)
  | mk _ label children => levelsOf label.error children

def levelsOf (error : Bool) : List Spot → List (Bool × List Spot)
  | [] => []
  | s :: rest => (error, s :: rest) :: (s.levels ++ levelsOf error rest)

end

mutual

/-- The spots on the way down to the one with a number, from the root to it. -/
def wayTo (target : Nat) : Spot → List Spot
  | mk index label children =>
    mk index label children :: (if target = index then [] else wayAmong target children)

/-- The last child that does not come after the target is the one to go through. -/
def wayAmong (target : Nat) : List Spot → List Spot
  | [] => []
  | [s] => s.wayTo target
  | s :: t :: rest =>
    if t.index ≤ target then wayAmong target (t :: rest) else s.wayTo target

end

end Spot

end CodeAtlas.Syntax
