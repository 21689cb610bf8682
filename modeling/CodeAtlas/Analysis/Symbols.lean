import CodeAtlas.Query.Hit
import CodeAtlas.Query.Template

/-! # Symbols

The functions, classes and imports of a document, found by the templates of its language.  A
definition is listed once, with the name that stands in it. -/

namespace CodeAtlas.Analysis

structure Symbol where
  name : String
  kind : String
  span : Syntax.Span
deriving DecidableEq, Repr

structure Symbols where
  path : String
  language : Language
  functions : List Symbol
  classes : List Symbol
  imports : List Symbol
deriving DecidableEq, Repr

namespace Symbols

/-- The definition that a match finds: its node and, as its name, the text of the node inside. -/
def ofMatch? (family : String) (source : List UInt8) (m : Query.Match) : Option Symbol := do
  let name ← (m.nodes (family ++ ".name")).getLast?
  let node ← (m.nodes (family ++ ".def")).getLast?
  return ⟨name.label.span.text source, node.label.kind, node.label.span⟩

/-- Drop every symbol that starts where the one before it does. -/
def distinctStarts : List Symbol → List Symbol
  | [] => []
  | [s] => [s]
  | s :: t :: rest =>
    if s.span.startByte = t.span.startByte then distinctStarts (s :: rest)
    else s :: distinctStarts (t :: rest)
termination_by symbols => symbols.length

def startsNoLater (s t : Symbol) : Bool :=
  s.span.startByte ≤ t.span.startByte

/-- The definitions that a template finds, in source order. -/
def definitions (template family : String) (d : Document) : Except Error (List Symbol) := do
  let query ← Query.Template.query d.language template
  let found := (query.run d.root d.source).filterMap (ofMatch? family d.source)
  return distinctStarts (found.mergeSort startsNoLater)

/-- An import is named by its first line. -/
def ofImport (h : Query.Hit) : Symbol :=
  ⟨String.ofList (Text.firstLineTrimmed h.text.toList), h.kind, h.span⟩

def of (d : Document) : Except Error Symbols := do
  let functions ← definitions "functions" "function" d
  let classes ← definitions "classes" "class" d
  let imports ← Query.Template.query d.language "imports"
  return {
    path := d.displayPath
    language := d.language
    functions, classes
    imports := (Query.Hit.all imports d).map ofImport }

end Symbols

def Symbol.toValue (s : Symbol) : Json.Value :=
  .object [("name", .text s.name), ("kind", .text s.kind), ("span", s.span.toValue)]

def Symbols.toValue (s : Symbols) : Json.Value :=
  .object [
    ("path", .text s.path), ("language", .text s.language.id),
    ("functions", .array (s.functions.map Symbol.toValue)),
    ("classes", .array (s.classes.map Symbol.toValue)),
    ("imports", .array (s.imports.map Symbol.toValue))]

end CodeAtlas.Analysis
