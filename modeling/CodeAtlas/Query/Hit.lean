import CodeAtlas.Document
import CodeAtlas.Query.Match
import CodeAtlas.Text.Line

/-! # Hits

What a query captures, told apart from the tree.  Captures whose name starts with a low line only
help the query and are not told. -/

namespace CodeAtlas.Query

structure Hit where
  path : String
  capture : String
  kind : String
  span : Syntax.Span
  text : String
deriving DecidableEq, Repr

namespace Hit

/-- The characters that are told of a captured text. -/
def textLimit : Nat := 500

def isHelper (name : String) : Bool :=
  name.toList.head? = some '_'

def ofCapture (d : Document) (c : Capture) : Hit where
  path := d.displayPath
  capture := c.name
  kind := c.node.label.kind
  span := c.node.label.span
  text :=
    String.ofList (Text.truncate textLimit (c.node.label.span.text d.source).toList).1

/-- The hits of one match. -/
def ofMatch (d : Document) (m : Match) : List Hit :=
  (m.found.captures.filter fun c => !isHelper c.name).map (ofCapture d)

/-- All hits of a query, in the order of the matches. -/
def all (query : Query) (d : Document) : List Hit :=
  (query.run d.root d.source).flatMap (ofMatch d)

/-- The first hits of a query. -/
def collect (query : Query) (d : Document) (limit : Nat) : List Hit :=
  (all query d).take limit

def toValue (h : Hit) : Json.Value :=
  .object [
    ("path", .text h.path), ("capture", .text h.capture), ("kind", .text h.kind),
    ("span", h.span.toValue), ("text", .text h.text)]

end Hit

end CodeAtlas.Query
