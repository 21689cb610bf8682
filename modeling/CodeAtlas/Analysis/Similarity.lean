import CodeAtlas.Query.Hit
import CodeAtlas.Syntax.Traversal

/-! # Structural similarity

Two nodes are compared by the kinds of the named nodes in them, taken as pairs of neighbours.  The
score is twice the number of shared pairs over the number of all pairs. -/

namespace CodeAtlas.Analysis

open Syntax (Node)

/-- What is compared of a node. -/
structure Profile where
  kind : String
  pairs : List (String × String)
deriving DecidableEq, Repr

namespace Profile

/-- The pairs of neighbours; a single kind is paired with nothing. -/
def pairsOf : List String → List (String × String)
  | [kind] => [(kind, "")]
  | kinds => kinds.zip kinds.tail

def of (n : Node) : Profile where
  kind := n.kind
  pairs := pairsOf n.kindSequence

/-- The number of pairs of one list that can be matched with equal ones of another. -/
def sharedCount : List (String × String) → List (String × String) → Nat
  | [], _ => 0
  | p :: rest, others =>
    if others.contains p then sharedCount rest (others.erase p) + 1 else sharedCount rest others

def shared (a b : Profile) : Nat := sharedCount a.pairs b.pairs

def total (a b : Profile) : Nat := a.pairs.length + b.pairs.length

/-- The score as a ratio. -/
def score (a b : Profile) : Nat × Nat :=
  if total a b = 0 then (0, 1) else (2 * shared a b, total a b)

/-- The score in thousandths, a half going up. -/
def thousandths (a b : Profile) : Nat :=
  let (num, den) := score a b
  (2 * 1000 * num + den) / (2 * den)

/-- Whether the score is at least a ratio. -/
def reaches (threshold : Nat × Nat) (a b : Profile) : Bool :=
  let (num, den) := score a b
  threshold.1 * den ≤ num * threshold.2

end Profile

/-- The kinds of node at which the search for the construct of a snippet ends. -/
def constructKinds : List String :=
  ["function_definition", "class_definition", "function_item", "function_declaration",
    "method_definition", "method_declaration", "class_declaration"]

/-- The construct that a snippet stands for: what is inside nodes with one named child each. -/
def construct (n : Node) : Node :=
  match n with
  | .mk label children =>
    match children.attach.filter fun c => c.1.named with
    | [⟨c, below⟩] =>
      if label.kind = "block" then n
      else if constructKinds.contains c.kind then c
      else
        have := List.sizeOf_lt_of_mem below
        construct c
    | _ => n
termination_by sizeOf n
decreasing_by
  simp only [Node.mk.sizeOf_spec]
  omega

structure Similar where
  path : String
  kind : String
  span : Syntax.Span
  /-- The score in thousandths. -/
  score : Nat
  preview : String
deriving DecidableEq, Repr

namespace Similar

/-- The characters that are shown of the first line. -/
def previewLimit : Nat := 120

def ofNode (d : Document) (profile : Profile) (n : Node) : Similar where
  path := d.displayPath
  kind := n.kind
  span := n.span
  score := profile.thousandths (.of n)
  preview :=
    String.ofList (Text.truncate previewLimit (Text.firstLineTrimmed (n.text d.source).toList)).1

/-- The nodes of a document of the profile's kind whose score is at least the threshold. -/
def within (d : Document) (profile : Profile) (threshold : Nat × Nat) : List Similar :=
  (d.root.preorder.filter fun n =>
    n.kind = profile.kind && profile.reaches threshold (.of n)).map (ofNode d profile)

/-- A higher score comes first, then the path, then the start. -/
def before (a b : Similar) : Bool :=
  if a.score ≠ b.score then a.score > b.score
  else if a.path ≠ b.path then a.path < b.path
  else a.span.startByte ≤ b.span.startByte

def rank (found : List Similar) (limit : Nat) : List Similar :=
  (found.mergeSort before).take limit

def toValue (s : Similar) : Json.Value :=
  .object [
    ("path", .text s.path), ("kind", .text s.kind), ("span", s.span.toValue),
    ("score", .number (.real (.ofRatio s.score 1000))), ("preview", .text s.preview)]

end Similar

end CodeAtlas.Analysis
