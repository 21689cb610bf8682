import CodeAtlas.Query.Adapt
import CodeAtlas.Query.Hit
import CodeAtlas.Query.Template
import CodeAtlas.Query.Usage
import CodeAtlas.Search.Files
import CodeAtlas.Workspace.Basic

/-! # Searches and queries over a project

Whatever can be wrong with a call is found before the first document is read.  Hits of a whole
project are ordered by path and start, and those that start together keep their order. -/

namespace CodeAtlas.Workspace

/-! ## Text -/

/-- The first places in a project's files where a text occurs. -/
def findText (name : String) (options : Search.Options) (pattern : Option String)
    (asked : Option Nat) : Work (List Search.Match) := do
  let p ← project name
  let search ← Search.of options
  let paths ← list p { pattern }
  let w ← get
  match search.inFiles? w.policy (← read).files p paths (w.limit asked) with
  | some found => return found
  | none => throw .overflow

/-! ## Queries -/

def hitNoLater (a b : Query.Hit) : Bool :=
  if a.path ≠ b.path then a.path < b.path else a.span.startByte ≤ b.span.startByte

/-- The first hits in the order of paths and starts. -/
def firstHits (hits : List Query.Hit) (limit : Nat) : List Query.Hit :=
  (hits.mergeSort hitNoLater).take limit

/-- The hits of a query in the documents of some files, from each at most so many. -/
def hitsIn (p : Project) (l : Language) (q : Query) (limit : Nat) (paths : List String) :
    Work (List Query.Hit) :=
  inDocuments p l (fun d => Query.Hit.collect q d limit) paths

/-- The language of a query: the one that was asked for, or else the one of the path. -/
def queryLanguage : Option String → Option String → Work Language
  | some name, _ => language name
  | none, some path => languageFor path none
  | none, none => throw (.invalidArgument "either language or path is required")

/-- The hits of a query in one file, or in all files of a language. -/
def runQuery (name source : String) (asked path : Option String) (count : Option Nat) :
    Work (List Query.Hit) := do
  let p ← project name
  let limit := (← get).limit count
  let l ← queryLanguage asked path
  let q ← Query.compile l source
  match path with
  | some path => return Query.Hit.collect q (← documentAt p path (some l.id)) limit
  | none => return firstHits (← hitsIn p l q limit (← listLanguage p l)) limit

/-- The files of each language, in the order of the languages, for those that have any. -/
def byLanguage (only : Option Language) (paths : List String) : List (Language × List String) :=
  let wanted := Language.all.filter fun l => only.all (· = l)
  (wanted.map fun l =>
    (l, paths.filter fun path => Language.ofPath? (Path.ofString path) = some l)).filter
      fun (_, paths) => !paths.isEmpty

/-- The uses of a name in groups of files. -/
def usesIn (p : Project) (symbol : String) (limit : Nat) :
    List (Language × List String) → Work (List Query.Hit)
  | [] => return []
  | (l, paths) :: rest => do
    let l ← language l.id
    let q ← Query.compile l (← Query.Usage.source l symbol)
    let found ← hitsIn p l q limit paths
    return found ++ (← usesIn p symbol limit rest)

/-- The first uses of a name in a project's files, of one language or of all. -/
def findUsage (name symbol : String) (scope asked : Option String) (count : Option Nat) :
    Work (List Query.Hit) := do
  let p ← project name
  let limit := (← get).limit count
  let only ← asked.mapM language
  let paths ← list p { pattern := scope }
  return firstHits (← usesIn p symbol limit (byLanguage only paths)) limit

/-! ## Queries as texts -/

def templates (name : String) : Work (List Query.Template) :=
  return Query.Template.ofLanguage (← language name)

/-- One template.  No language has to be loaded for it. -/
def template (name template : String) : Except Error Query.Template :=
  let id := Language.normalize name
  match Language.ofId? id with
  | some l => Query.Template.find l template
  | none => .error (.templateNotFound id template)

def buildQuery (name : String) (templates : List String) : Work String := do
  Query.Template.join (← language name) templates

def adaptQuery (source first second : String) : Work Query.Adapted :=
  return Query.adapt source (← language first) (← language second)

end CodeAtlas.Workspace
