import CodeAtlas.Cache
import CodeAtlas.Files.Listing
import CodeAtlas.Language.Registry

/-! # Workspaces

A workspace holds what is remembered from one call to the next: the configuration, the registered
projects, the languages asked for, and the documents kept in the cache.

A call is carried out in surroundings that it cannot change: the files, the parser and the time.
A call that fails leaves behind the workspace that it has reached by then. -/

namespace CodeAtlas

structure Workspace where
  config : Config
  projects : Projects
  languages : Language.Registry
  cache : Cache

/-- What a call finds around it. -/
structure Surroundings where
  files : FileSystem
  parser : Syntax.Parser Language
  /-- The time in billionths of a second. -/
  now : Nat
  /-- The time as it is shown. -/
  date : String

/-- A call on a workspace. -/
abbrev Work (α : Type) := ReaderT Surroundings (ExceptT Error (StateM Workspace)) α

namespace Work

def run {α : Type} (work : Work α) (around : Surroundings) (w : Workspace) :
    Except Error α × Workspace :=
  (ExceptT.run (ReaderT.run work around)).run w

/-- Whether a call meets with a number that no word holds. -/
def breaksOff {α : Type} (work : Work α) (around : Surroundings) (w : Workspace) : Bool :=
  match (work.run around w).1 with
  | .error .overflow => true
  | _ => false

end Work

namespace Workspace

/-- The workspace at the start, with the preferred languages asked for. -/
def new (config : Config) : Workspace where
  config := config
  projects := .empty
  languages := Language.Registry.empty.preload config.language.preferred
  cache := .new (.ofConfig config)

def policy (w : Workspace) : Policy :=
  .ofConfig w.config

/-- The number of results to give when so many were asked for. -/
def limit (w : Workspace) (asked : Option Nat) : Nat :=
  asked.getD w.config.maxResultsDefault

/-! ## Projects -/

def project (name : String) : Work Project := do
  (← get).projects.get name

/-- Register a directory, whose documents may be kept from now on. -/
def register (path : String) (name description : Option String) : Work Project := do
  let around ← read
  let w ← get
  let (p, projects) ← w.projects.register around.files around.date path name description
  set { w with projects, cache := w.cache.activate p.name }
  return p

/-- Remove a project and drop its documents, and tell whether there was one. -/
def remove (name : String) : Work Bool := do
  let w ← get
  let (removed, projects) := w.projects.remove name
  set { w with projects, cache := if removed then (w.cache.retire name).2 else w.cache }
  return removed

/-! ## Languages -/

def language (name : String) : Work Language := do
  let w ← get
  let (answer, languages) := w.languages.get name
  set { w with languages }
  answer

/-- The language that was asked for, or else the one of the path. -/
def languageFor (path : String) : Option String → Work Language
  | some name => language name
  | none => do
    let w ← get
    let (answer, languages) := w.languages.forPath path
    set { w with languages }
    answer

/-- Whether a language can be loaded.  To check again is to forget an earlier failure. -/
def available (name : String) (again : Bool) : Work Bool := do
  let w ← get
  if again then
    let (answer, languages) := w.languages.recheck name
    set { w with languages }
    return answer.isOk
  else return w.languages.isAvailable name

/-! ## Files -/

def list (p : Project) (options : Listing.Options) : Work (List String) := do
  (← get).policy.list (← read).files p options

def listLanguage (p : Project) (l : Language) : Work (List String) := do
  (← get).policy.listLanguage (← read).files p l

def listFiles (name : String) (options : Listing.Options) : Work (List String) := do
  list (← project name) options

def readFile (name path : String) (startLine maxLines : Option Nat) : Work FileContent := do
  let p ← project name
  (← get).policy.readText (← read).files p path startLine maxLines

def fileMetadata (name path : String) : Work FileMetadata := do
  let p ← project name
  (← get).policy.metadata (← read).files p path

/-! ## Documents -/

def resolve (p : Project) (path : String) : Work FileRef := do
  (← get).policy.resolve (← read).files p path

/-- The document of a file that was resolved. -/
def documentOf (file : FileRef) (l : Language) : Work Document := do
  let around ← read
  let source ← (← get).policy.readBytes around.files file
  let w ← get
  let (answer, cache) := w.cache.get around.parser around.now file source l
  set { w with cache }
  answer

/-- The document of one file.  The path is checked before a language is looked for. -/
def documentAt (p : Project) (path : String) (asked : Option String) : Work Document := do
  let file ← resolve p path
  let l ← languageFor path asked
  documentOf file l

def document (name path : String) (asked : Option String) : Work Document := do
  documentAt (← project name) path asked

/-- What is found in the documents of some files in turn, without those that cannot be read. -/
def inDocuments {α : Type} (p : Project) (l : Language) (find : Document → List α) :
    List String → Work (List α)
  | [] => return []
  | path :: rest => do
    let found ← tryCatch (return find (← documentOf (← resolve p path) l)) fun _ => return []
    return found ++ (← inDocuments p l find rest)

/-! ## The cache -/

/-- Drop the documents of one project or of all, and tell how many there were. -/
def clearCache (name : Option String) : Work Nat := do
  let dropped ← match name with
    | some name => do pure ((← get).cache.invalidateProject (← project name).name)
    | none => do pure (← get).cache.clear
  modify fun w => { w with cache := dropped.2 }
  return dropped.1

end Workspace

end CodeAtlas
