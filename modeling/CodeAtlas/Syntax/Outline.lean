import CodeAtlas.Syntax.Cursor
import CodeAtlas.Text.Line

/-! # Outlines

An outline is a projection of a tree, bounded in depth, in the number of children of each node and
to a range of the source.  Every node of it tells how many children there are in the tree, and
whether some of them are left out because of a bound.

One cursor is used for the whole of an outline, so that what is remembered on the way is no more
than the nodes above. -/

namespace CodeAtlas.Syntax

/-- A part of the source: octets with the end left out, or lines counted from one with both ends. -/
inductive Range where
  | bytes (start stop : Nat)
  | lines (first last : Nat)
deriving DecidableEq, Repr

/-- Whether a stretch of source has something in common with the range. -/
def Range.overlaps (s : Span) : Range → Bool
  | bytes start stop => s.startByte < stop && s.endByte > start
  | lines first last => s.startRow ≤ last - 1 && s.endRow ≥ first - 1

namespace Outline

structure Label where
  kind : String
  named : Bool
  field : Option String
  span : Span
  /-- The text of a leaf, if it was asked for. -/
  text : Option String
  /-- The children in the tree, shown or not. -/
  childCount : Nat
  /-- Some children are left out because of a bound. -/
  truncated : Bool
deriving DecidableEq, Repr

structure Options where
  maxDepth : Nat := 5
  /-- Zero sets no bound. -/
  maxChildren : Nat := 0
  includeText : Bool := false
  range : Option Range := none
deriving Repr

/-- No outline is deeper, whatever depth is asked for. -/
def depthLimit : Nat := 256

/-- The characters that are kept of a leaf's text. -/
def textLimit : Nat := 200

end Outline

inductive Outline where
  | mk (label : Outline.Label) (children : List Outline)
deriving Repr

namespace Outline

def label : Outline → Label
  | mk label _ => label

def children : Outline → List Outline
  | mk _ children => children

/-- What is shown of a node by itself. -/
def Label.ofNode (source : List UInt8) (includeText : Bool) (field : Option String)
    (truncated : Bool) (n : Node) : Label where
  kind := n.kind
  named := n.named
  field := field
  span := n.span
  text :=
    if includeText && n.children.isEmpty then
      some (String.ofList (Text.truncate textLimit (n.text source).toList).1)
    else none
  childCount := n.children.length
  truncated := truncated

def Options.wants (options : Options) (n : Node) : Bool :=
  match options.range with
  | some range => range.overlaps n.span
  | none => true

/-- Whether no more children may be shown beside some that are. -/
def Options.full (options : Options) (shown : List Outline) : Bool :=
  options.maxChildren > 0 && shown.length = options.maxChildren

/-- Go along the siblings from where a cursor stands and show those that the range touches, with
those shown before in reverse order.  The flag tells that the bound left one out; the cursor is then
on that one, and else on the last sibling.  There are no more turns than siblings. -/
def walkAlong (options : Options) (visit : Cursor → Outline × Cursor) :
    Nat → List Outline → Cursor → List Outline × Bool × Cursor
  | 0, shown, c => (shown.reverse, false, c)
  | turns + 1, shown, c =>
    if options.wants c.node then
      if options.full shown then (shown.reverse, true, c)
      else
        let (o, c) := visit c
        match c.nextSibling? with
        | some next => walkAlong options visit turns (o :: shown) next
        | none => ((o :: shown).reverse, false, c)
    else
      match c.nextSibling? with
      | some next => walkAlong options visit turns shown next
      | none => (shown.reverse, false, c)

/-- The outline of the node that a cursor stands on, with so many levels below it, and where the
cursor is afterwards. -/
def walk (source : List UInt8) (options : Options) (levels : Nat) (field : Option String)
    (c : Cursor) : Outline × Cursor :=
  let describe (truncated : Bool) : Label :=
    .ofNode source options.includeText field truncated c.node
  match c.firstChild?, levels with
  | none, _ => (mk (describe false) [], c)
  | some _, 0 => (mk (describe true) [], c)
  | some first, levels + 1 =>
    let (shown, truncated, c) :=
      walkAlong options (fun c => walk source options levels c.field c) c.node.children.length []
        first
    (mk (describe truncated) shown, c.parent?.getD c)

/-- The outline of a tree. -/
def ofRoot (root : Node) (source : List UInt8) (options : Options) : Outline :=
  (walk source options (min options.maxDepth depthLimit) none { node := root }).1

mutual

/-- The labels of an outline with their depth, each before those below it. -/
def rows (depth : Nat) : Outline → List (Nat × Label)
  | mk label children => (depth, label) :: rowsAll (depth + 1) children

def rowsAll (depth : Nat) : List Outline → List (Nat × Label)
  | [] => []
  | o :: rest => o.rows depth ++ rowsAll depth rest

end

/-- The number of nodes shown. -/
def size (o : Outline) : Nat := (o.rows 0).length

def Label.members (l : Label) : List (String × Json.Value) :=
  [("kind", .text l.kind), ("named", .bool l.named)] ++
    (l.field.map fun name => ("field", Json.Value.text name)).toList ++
    [("span", l.span.toValue)] ++
    (l.text.map fun text => ("text", Json.Value.text text)).toList ++
    [("child_count", .nat l.childCount), ("truncated", .bool l.truncated)]

mutual

/-- A node without shown children does not mention them. -/
def toValue : Outline → Json.Value
  | mk label [] => .object label.members
  | mk label children => .object (label.members ++ [("children", .array (toValues children))])

def toValues : List Outline → List Json.Value
  | [] => []
  | o :: rest => o.toValue :: toValues rest

end

end Outline

end CodeAtlas.Syntax
