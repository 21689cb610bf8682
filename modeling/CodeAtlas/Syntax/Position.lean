import CodeAtlas.Syntax.Outline

/-! # The nodes at a position

The path to a position leads from the root through ever smaller nodes around it.  A position of
the source that the root does not cover has the root alone. -/

namespace CodeAtlas.Syntax

/-- The lengths of the rows of a source, the last one included. -/
def rowLengths (source : List UInt8) : List Nat :=
  let (done, current) := source.foldl
    (fun (done, n) octet => if octet = 10 then (n :: done, 0) else (done, n + 1))
    (([] : List Nat), 0)
  (current :: done).reverse

/-- A column may lie right after the last octet of its row. -/
def Point.inSource (p : Point) (source : List UInt8) : Bool :=
  match (rowLengths source)[p.row]? with
  | some n => p.column ≤ n
  | none => false

/-- The nodes around a position of the source, from the root inwards, by a search for the smallest
one. -/
def nodesAt (root : Node) (source : List UInt8) (p : Point)
    (smallest : Point → Option (List Nat)) : Option (List Node) :=
  if p.inSource source then
    if root.span.contains p then
      ((smallest p).bind root.reach?).map fun (above, n) => above ++ [n]
    else some [root]
  else none

/-- What is shown of each node of a path: the text only of the last one. -/
def describePath (source : List UInt8) (includeText : Bool) : List Node → List Outline.Label
  | [] => []
  | [n] => [.ofNode source includeText none (!n.children.isEmpty) n]
  | n :: rest =>
    .ofNode source false none (!n.children.isEmpty) n :: describePath source includeText rest

def pathAt (root : Node) (source : List UInt8) (p : Point) (includeText : Bool)
    (smallest : Point → Option (List Nat) := fun p => some (root.routeTo p)) :
    Option (List Outline.Label) :=
  (nodesAt root source p smallest).map (describePath source includeText)

end CodeAtlas.Syntax
