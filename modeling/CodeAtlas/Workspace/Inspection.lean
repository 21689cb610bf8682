import CodeAtlas.Analysis.Complexity
import CodeAtlas.Analysis.Dependencies
import CodeAtlas.Analysis.Overview
import CodeAtlas.Analysis.Similarity
import CodeAtlas.Syntax.Position
import CodeAtlas.Workspace.Basic

/-! # Looking into the files of a project -/

namespace CodeAtlas.Workspace

/-! ## Outlines and positions -/

/-- What is asked of an outline; what is not said is taken from the configuration. -/
structure OutlineRequest where
  maxDepth : Option Nat := none
  maxChildren : Option Nat := none
  includeText : Bool := false
  range : Option Syntax.Range := none
  language : Option String := none

structure OutlineReport where
  document : Document
  maxDepth : Nat
  root : Syntax.Outline

def outlineOptions (config : Config) (r : OutlineRequest) : Syntax.Outline.Options where
  maxDepth := min (r.maxDepth.getD config.language.defaultMaxDepth) Syntax.Outline.depthLimit
  maxChildren := r.maxChildren.getD config.language.maxChildren
  includeText := r.includeText
  range := r.range

def outline (name path : String) (r : OutlineRequest) : Work OutlineReport := do
  let d ← document name path r.language
  let options := outlineOptions (← get).config r
  return { document := d, maxDepth := options.maxDepth, root := .ofRoot d.root d.source options }

def OutlineReport.toValue (r : OutlineReport) : Json.Value :=
  .object [
    ("project", .text r.document.project), ("path", .text r.document.displayPath),
    ("language", .text r.document.language.id), ("has_errors", .bool r.document.hasErrors),
    ("max_depth", .nat r.maxDepth), ("root", r.root.toValue)]

structure PositionReport where
  document : Document
  position : Syntax.Point
  /-- The nodes from the root inwards. -/
  nodes : List Syntax.Outline.Label

def nodesAt (name path : String) (position : Syntax.Point) (asked : Option String) :
    Work PositionReport := do
  let d ← document name path asked
  match Syntax.pathAt d.root d.source position true d.tree.smallest with
  | some nodes => return { document := d, position, nodes }
  | none =>
    throw (.invalidArgument
      s!"position {position.row}:{position.column} is outside {d.displayPath}")

def PositionReport.toValue (r : PositionReport) : Json.Value :=
  .object [
    ("project", .text r.document.project), ("path", .text r.document.displayPath),
    ("language", .text r.document.language.id), ("row", .nat r.position.row),
    ("column", .nat r.position.column),
    ("nodes", .array (r.nodes.map fun l => .object l.members))]

/-! ## Reports on one file -/

def symbols (name path : String) : Work Analysis.Symbols := do
  Analysis.Symbols.of (← document name path none)

def complexity (name path : String) : Work Analysis.Complexity := do
  let d ← document name path none
  match Analysis.Complexity.of? d (← Analysis.Symbols.of d) with
  | some report => return report
  | none => throw .overflow

def dependencies (name path : String) : Work Analysis.Dependencies := do
  Analysis.Dependencies.of (← document name path none)

/-! ## Reports on a project -/

def overview (name : String) : Work Analysis.Overview := do
  let p ← project name
  return Analysis.Overview.of p.name p.root.render (← list p {})

/-- The profile of the construct that a snippet stands for.  The snippet is no document of the
project, and nothing is kept of it. -/
def snippetProfile (l : Language) (snippet : String) : Work Analysis.Profile := do
  match (← read).parser l (Text.Utf8.encode snippet.toList) with
  | some tree => return Analysis.Profile.of (Analysis.construct tree.root)
  | none => throw (.parseFailure "<snippet>" "parser produced no tree")

/-- The nodes of a project's files that are like a profile, those most like it first. -/
def similarTo (p : Project) (l : Language) (profile : Analysis.Profile) (threshold : Nat × Nat)
    (limit : Nat) : Work (List Analysis.Similar) := do
  let paths ← listLanguage p l
  let found ← inDocuments p l (fun d => Analysis.Similar.within d profile threshold) paths
  return Analysis.Similar.rank found limit

/-- The nodes of a project's files that are like a snippet. -/
def findSimilar (name snippet asked : String) (threshold : Number.Decimal) (count : Option Nat) :
    Work (List Analysis.Similar) := do
  let p ← project name
  unless threshold.inUnit do
    throw (.invalidArgument s!"threshold {threshold.plain} is outside 0.0..=1.0")
  let l ← language asked
  let profile ← snippetProfile l snippet
  similarTo p l profile threshold.lowerEnd ((← get).limit count)

/-! ## The state of the workspace -/

def version : String := "0.4.0"

structure Diagnosis where
  config : Config
  cache : Cache.Stats
  languages : Language.Registry
  projectCount : Nat

def diagnose (w : Workspace) : Diagnosis where
  config := w.config
  cache := w.cache.stats
  languages := w.languages
  projectCount := w.projects.items.length

def Diagnosis.toValue (d : Diagnosis) : Json.Value :=
  .object [
    ("version", .text version), ("config", d.config.toValue), ("cache", d.cache.toValue),
    ("languages", d.languages.toValue), ("project_count", .nat d.projectCount)]

end CodeAtlas.Workspace
