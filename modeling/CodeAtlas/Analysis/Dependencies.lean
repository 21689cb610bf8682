import CodeAtlas.Query.Hit
import CodeAtlas.Query.Template

/-! # Dependencies

The modules that a document imports, each with the statement that does so and its line. -/

namespace CodeAtlas.Analysis

open Syntax (Spot)

structure Dependency where
  module : String
  /-- The kind of the statement. -/
  kind : String
  /-- Counted from one. -/
  line : Nat
deriving DecidableEq, Repr

structure Dependencies where
  path : String
  language : Language
  edges : List Dependency
deriving DecidableEq, Repr

namespace Dependencies

/-- The kinds of statement that import. -/
def statementKinds : List String :=
  ["import_statement", "import_from_statement", "use_declaration", "extern_crate_declaration",
    "import_spec", "call_expression"]

/-- The nearest statement around a node that imports, or else the root. -/
def statement (root node : Spot) : Spot :=
  let around := (root.wayTo node.index).dropLast.reverse
  match around.find? fun s => statementKinds.contains s.label.kind with
  | some s => s
  | none => around.getLast?.getD node

def isQuote (c : Char) : Bool :=
  c = '"' || c = '\'' || c = '\x60'

/-- The text without the quotes around it. -/
def unquote (cs : List Char) : List Char :=
  ((cs.dropWhile isQuote).reverse.dropWhile isQuote).reverse

def ofSpot (root : Spot) (source : List UInt8) (node : Spot) : Dependency where
  module := String.ofList (unquote (node.label.span.text source).toList)
  kind := (statement root node).label.kind
  line := node.label.span.startLine

def lineNoLater (a b : Dependency) : Bool :=
  a.line ≤ b.line

def of (d : Document) : Except Error Dependencies := do
  let query ← Query.Template.query d.language "dependencies"
  let root := Spot.ofRoot d.root
  let found := (query.run d.root d.source).flatMap fun m =>
    (m.nodes "module").map (ofSpot root d.source)
  return {
    path := d.displayPath
    language := d.language
    edges := found.mergeSort lineNoLater }

end Dependencies

def Dependency.toValue (e : Dependency) : Json.Value :=
  .object [("module", .text e.module), ("kind", .text e.kind), ("line", .nat e.line)]

def Dependencies.toValue (d : Dependencies) : Json.Value :=
  .object [
    ("path", .text d.path), ("language", .text d.language.id),
    ("dependencies", .array (d.edges.map Dependency.toValue))]

/-- The modules that a document imports, as hits. -/
def dependencyHits (d : Document) : Except Error (List Query.Hit) := do
  let query ← Query.Template.query d.language "dependencies"
  return Query.Hit.all query d

end CodeAtlas.Analysis
