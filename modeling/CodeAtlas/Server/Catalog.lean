import CodeAtlas.Server.Tool
import CodeAtlas.Workspace.Inspection
import CodeAtlas.Workspace.Queries

/-! # The tools of the server -/

namespace CodeAtlas.Server

/-! ## Common parameters -/

namespace Parameter

def project : Parameter where
  name := "project"
  description := "Project name"
  shape := .text

def path : Parameter where
  name := "path"
  description := "Project-relative path"
  shape := .text

def languageId : Parameter where
  name := "language"
  description := "Language id"
  shape := .text

def override : Parameter where
  name := "language"
  description := "Override language detection"
  shape := .optional .text

def resultLimit : Parameter where
  name := "max_results"
  description := "Result limit"
  shape := .optional .count

/-- A flag that is off unless it is set. -/
def switch (name description : String) : Parameter where
  name := name
  description := description
  shape := .flag
  default := some false

end Parameter

namespace Tool

open Parameter (project path languageId override resultLimit switch)

def values {α : Type} (toValue : α → Json.Value) (items : List α) : Json.Value :=
  .array (items.map toValue)

/-- Show the result of some work. -/
def shown {α : Type} (toValue : α → Json.Value) (work : Work α) :
    Except Refusal (Work Json.Value) :=
  .ok (toValue <$> work)

/-- Show the result of some work, if it can be shown.  If not, what the work has done stays done. -/
def shownIf {α : Type} (toValue : α → Except Error Json.Value) (work : Work α) :
    Except Refusal (Work Json.Value) :=
  .ok do toValue (← work)

/-! ## Projects -/

def registerProject : Tool where
  name := "register_project"
  description := "Register a project directory for analysis. Returns the project record."
  record := "RegisterProjectArgs"
  parameters := [
    ⟨"path", "Project directory (e.g., '/path/to/repo')", .text, none⟩,
    ⟨"name", "Project name; derived from the directory name when omitted", .optional .text, none⟩,
    ⟨"description", "Free-form description", .optional .text, none⟩]
  work := fun (path, name, description, ()) =>
    shownIf Project.toValue (Workspace.register path name description)

def listProjects : Tool where
  name := "list_projects"
  description := "List registered projects ordered by name"
  parameters := []
  work := fun () =>
    shownIf (fun items => return .array (← items.mapM Project.toValue))
      (return (← get).projects.items)

def removeProject : Tool where
  name := "remove_project"
  description := "Remove a project and drop its cached parse trees"
  record := "NameArgs"
  parameters := [⟨"name", "Project name", .text, none⟩]
  work := fun (name, ()) =>
    shown (fun removed => .object [("name", .text name), ("removed", .bool removed)])
      (Workspace.remove name)

/-! ## Languages -/

def listLanguages : Tool where
  name := "list_languages"
  description := "List supported language identifiers"
  parameters := []
  work := fun () => shown Json.Value.texts (return (← get).languages.list)

def checkLanguageAvailable : Tool where
  name := "check_language_available"
  description := "Check whether a grammar for the language can be loaded"
  record := "CheckLanguageArgs"
  parameters := [
    ⟨"language", "Language id (e.g., 'python')", .text, none⟩,
    switch "recheck" "Retry a grammar that failed to load (default: false)"]
  work := fun (language, again, ()) =>
    shown (fun answer => .object [("available", .bool answer), ("language", .text language)])
      (Workspace.available language again)

/-! ## Files -/

def listFiles : Tool where
  name := "list_files"
  description := "List project files, filtered by glob, depth and extension"
  record := "ListFilesArgs"
  parameters := [
    project,
    ⟨"pattern", "Glob over project-relative paths (e.g., 'src/**/*.rs')", .optional .text, none⟩,
    ⟨"max_depth", "Maximum directory depth below the root", .optional .count, none⟩,
    ⟨"extensions", "Extensions without the dot (e.g., ['py', 'rs'])", .optional .texts, none⟩]
  work := fun (project, pattern, maxDepth, extensions, ()) =>
    shown Json.Value.texts (Workspace.listFiles project { pattern, maxDepth, extensions })

def getFile : Tool where
  name := "get_file"
  description := "Read file content, optionally a window of lines"
  record := "GetFileArgs"
  parameters := [
    project, path,
    ⟨"start_line", "First line (1-based)", .optional .count, none⟩,
    ⟨"max_lines", "Maximum lines to return", .optional .count, none⟩]
  work := fun (project, path, startLine, maxLines, ()) =>
    shown FileContent.toValue (Workspace.readFile project path startLine maxLines)

def getFileMetadata : Tool where
  name := "get_file_metadata"
  description := "Size, modification time, language and line count of a file"
  record := "FileArgs"
  parameters := [project, path]
  work := fun (project, path, ()) =>
    shown FileMetadata.toValue (Workspace.fileMetadata project path)

/-! ## Trees -/

/-- The range between the given ends, which are of lines or of octets but not of both. -/
def range (startLine endLine startByte endByte : Option Nat) :
    Except Refusal (Option Syntax.Range) :=
  match startLine.isSome || endLine.isSome, startByte.isSome || endByte.isSome with
  | false, false => .ok none
  | true, false => .ok (some (.lines (startLine.getD 1) (endLine.getD Number.maxWord)))
  | false, true => .ok (some (.bytes (startByte.getD 0) (endByte.getD Number.maxWord)))
  | true, true => .error .mixedRanges

def getAst : Tool where
  name := "get_ast"
  description := "Depth-bounded syntax tree of a file. Nodes cut off by the depth or child limit are flagged truncated."
  record := "GetAstArgs"
  parameters := [
    project, path,
    ⟨"max_depth", "Depth limit; defaults to the configured depth", .optional .count, none⟩,
    ⟨"max_children", "Children kept per node", .optional .count, none⟩,
    switch "include_text" "Attach truncated source text to each node",
    ⟨"start_line", "Only nodes overlapping lines from here (1-based)", .optional .count, none⟩,
    ⟨"end_line", "Only nodes overlapping lines up to here (1-based)", .optional .count, none⟩,
    ⟨"start_byte", "Only nodes overlapping bytes from here", .optional .count, none⟩,
    ⟨"end_byte", "Only nodes overlapping bytes before here", .optional .count, none⟩,
    override]
  work := fun (project, path, maxDepth, maxChildren, includeText, startLine, endLine, startByte,
      endByte, language, ()) => do
    let range ← range startLine endLine startByte endByte
    shown Workspace.OutlineReport.toValue
      (Workspace.outline project path { maxDepth, maxChildren, includeText, range, language })

def getNodeAtPosition : Tool where
  name := "get_node_at_position"
  description := "Nodes from the root down to the smallest node at a position"
  record := "PositionArgs"
  parameters := [
    project, path,
    ⟨"row", "Row (0-based)", .count, none⟩,
    ⟨"column", "Column in bytes (0-based)", .count, none⟩,
    override]
  work := fun (project, path, row, column, language, ()) =>
    shown Workspace.PositionReport.toValue (Workspace.nodesAt project path ⟨row, column⟩ language)

/-! ## Searches and queries -/

def findText : Tool where
  name := "find_text"
  description := "Search project files for text or a regex, with optional context lines"
  record := "FindTextArgs"
  parameters := [
    project,
    ⟨"pattern", "Text or regex to find", .text, none⟩,
    ⟨"file_pattern", "Glob limiting searched files", .optional .text, none⟩,
    switch "use_regex" "Treat pattern as a regex (default: false)",
    ⟨"case_sensitive", "Default: true", .flag, some true⟩,
    switch "whole_word" "Match whole words only",
    ⟨"context_lines", "Lines of context around each match", .count, some (0 : Nat)⟩,
    resultLimit]
  work := fun (project, pattern, filePattern, useRegex, caseSensitive, wholeWord, contextLines,
      count, ()) =>
    shown (values Search.Match.toValue) <|
      Workspace.findText project { pattern, useRegex, caseSensitive, wholeWord, contextLines }
        filePattern count

def runQuery : Tool where
  name := "run_query"
  description := "Run a tree-sitter query on one file, or on every project file of a language. Invalid queries are reported before any file is parsed."
  record := "RunQueryArgs"
  parameters := [
    project,
    ⟨"query", "Query source (e.g., '(function_definition name: (identifier) @name)')", .text, none⟩,
    ⟨"language", "Language id; required when path is omitted", .optional .text, none⟩,
    ⟨"path", "Single file to query", .optional .text, none⟩,
    resultLimit]
  work := fun (project, query, language, path, count, ()) =>
    shown (values Query.Hit.toValue) (Workspace.runQuery project query language path count)

def listQueryTemplates : Tool where
  name := "list_query_templates"
  description := "List the predefined query templates of a language"
  record := "LanguageArgs"
  parameters := [languageId]
  work := fun (language, ()) =>
    shown (values Query.Template.toValue) (Workspace.templates language)

def getQueryTemplate : Tool where
  name := "get_query_template"
  description := "Fetch one predefined query template"
  record := "TemplateArgs"
  parameters := [languageId, ⟨"name", "Template name (e.g., 'functions')", .text, none⟩]
  work := fun (language, name, ()) =>
    shown Query.Template.toValue (Workspace.template language name)

def buildQuery : Tool where
  name := "build_query"
  description := "Combine templates into one validated query"
  record := "BuildQueryArgs"
  parameters := [
    languageId,
    ⟨"templates", "Template names (e.g., ['functions', 'classes'])", .texts, none⟩]
  work := fun (language, templates, ()) =>
    shown (fun query => .object [("language", .text language), ("query", .text query)])
      (Workspace.buildQuery language templates)

def adaptQuery : Tool where
  name := "adapt_query"
  description := "Rewrite node kinds in a query from one language to another"
  record := "AdaptQueryArgs"
  parameters := [
    ⟨"query", "Query source", .text, none⟩,
    ⟨"from_language", "Language the query was written for", .text, none⟩,
    ⟨"to_language", "Target language", .text, none⟩]
  work := fun (query, first, second, ()) =>
    shown Query.Adapted.toValue (Workspace.adaptQuery query first second)

def getNodeTypes : Tool where
  name := "get_node_types"
  description := "Named node kinds of a language grammar"
  record := "LanguageArgs"
  parameters := [languageId]
  work := fun (language, ()) =>
    shown (fun l => .texts l.vocabulary.named) (Workspace.language language)

def getSymbols : Tool where
  name := "get_symbols"
  description := "Functions, classes and imports defined in a file"
  record := "FileArgs"
  parameters := [project, path]
  work := fun (project, path, ()) =>
    shown Analysis.Symbols.toValue (Workspace.symbols project path)

def findUsage : Tool where
  name := "find_usage"
  description := "Identifier occurrences of a symbol across the project"
  record := "FindUsageArgs"
  parameters := [
    project,
    ⟨"symbol", "Identifier to find", .text, none⟩,
    ⟨"scope", "Glob limiting searched files", .optional .text, none⟩,
    ⟨"language", "Only files of this language", .optional .text, none⟩,
    resultLimit]
  work := fun (project, symbol, scope, language, count, ()) =>
    shown (values Query.Hit.toValue) (Workspace.findUsage project symbol scope language count)

/-! ## Analysis -/

def analyzeProject : Tool where
  name := "analyze_project"
  description := "File counts per language, manifests and top-level layout of a project"
  record := "ProjectArgs"
  parameters := [project]
  work := fun (project, ()) => shown Analysis.Overview.toValue (Workspace.overview project)

def analyzeComplexity : Tool where
  name := "analyze_complexity"
  description := "Cyclomatic complexity, nesting depth and size metrics of a file"
  record := "FileArgs"
  parameters := [project, path]
  work := fun (project, path, ()) =>
    shown Analysis.Complexity.toValue (Workspace.complexity project path)

def getDependencies : Tool where
  name := "get_dependencies"
  description := "Imported modules of a file"
  record := "FileArgs"
  parameters := [project, path]
  work := fun (project, path, ()) =>
    shown Analysis.Dependencies.toValue (Workspace.dependencies project path)

/-- The threshold of similarity when none is given. -/
def usualThreshold : Number.Decimal := ⟨false, 8, -1⟩

def findSimilarCode : Tool where
  name := "find_similar_code"
  description := "Project constructs structurally similar to a snippet, ranked by score"
  record := "SimilarArgs"
  parameters := [
    project,
    ⟨"snippet", "Code to compare against", .text, none⟩,
    ⟨"language", "Language of the snippet", .text, none⟩,
    ⟨"threshold", "Minimum similarity in 0.0..=1.0 (default: 0.8)", .fraction,
      some usualThreshold⟩,
    resultLimit]
  work := fun (project, snippet, language, threshold, count, ()) =>
    shown (values Analysis.Similar.toValue)
      (Workspace.findSimilar project snippet language threshold count)

/-! ## The state of the workspace -/

def clearCache : Tool where
  name := "clear_cache"
  description := "Drop cached parse trees, for one project or all"
  record := "ClearCacheArgs"
  parameters := [⟨"project", "Project name; all projects when omitted", .optional .text, none⟩]
  work := fun (project, ()) =>
    shown (fun n => .object [("evicted", .nat n)]) (Workspace.clearCache project)

def diagnoseConfig : Tool where
  name := "diagnose_config"
  description := "Effective configuration, cache statistics and grammar status"
  parameters := []
  work := fun () => shown Workspace.Diagnosis.toValue (return Workspace.diagnose (← get))

/-- The tools in the order in which they are listed. -/
def all : List Tool := [
  registerProject, listProjects, removeProject, listLanguages, checkLanguageAvailable, listFiles,
  getFile, getFileMetadata, getAst, getNodeAtPosition, findText, runQuery, listQueryTemplates,
  getQueryTemplate, buildQuery, adaptQuery, getNodeTypes, getSymbols, findUsage, analyzeProject,
  analyzeComplexity, getDependencies, findSimilarCode, clearCache, diagnoseConfig]

def find? (name : String) : Option Tool :=
  all.find? fun t => t.name = name

end Tool

end CodeAtlas.Server
