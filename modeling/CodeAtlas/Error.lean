/-! # Errors

Every failure names its cause.  The code, the message, the subject and the hint that a caller sees
are functions of the cause. -/

namespace CodeAtlas

inductive Error where
  | invalidPath (path reason : String)
  | securityViolation (path reason : String)
  | projectNotFound (name : String)
  | fileNotFound (path : String)
  | languageNotDetected (path : String)
  | duplicateName (name : String)
  | languageUnavailable (language reason : String)
  | parseFailure (path message : String)
  | query (offset row column : Nat) (message : String)
  | invalidPattern (message : String)
  | templateNotFound (language name : String)
  | invalidArgument (message : String)
  | configuration (message : String)
  | unknownSetting (path : String)
  | io (message : String)
  /-- A result cannot be shown. -/
  | serialization (message : String)
  /-- A number is too large for a word.  Work that meets with this breaks off, and nobody is told. -/
  | overflow
deriving DecidableEq, Repr

namespace Error

def code : Error → String
  | invalidPath .. => "invalid_path"
  | securityViolation .. => "security_violation"
  | projectNotFound _ | fileNotFound _ | languageNotDetected _ | templateNotFound .. => "not_found"
  | duplicateName _ => "duplicate_name"
  | languageUnavailable .. => "language_unavailable"
  | parseFailure .. => "parse_failure"
  | query .. => "query_error"
  | invalidPattern _ => "invalid_pattern"
  | invalidArgument _ => "invalid_argument"
  | configuration _ | unknownSetting _ => "config_error"
  | io _ => "io_error"
  | serialization _ => "serialization_error"
  | overflow => "overflow"

def message : Error → String
  | invalidPath path reason => s!"Invalid path {path}: {reason}"
  | securityViolation path reason => s!"Access denied for {path}: {reason}"
  | projectNotFound name => s!"Project not found: {name}"
  | fileNotFound path => s!"File not found: {path}"
  | languageNotDetected path => s!"Could not detect language for {path}"
  | duplicateName name => s!"Project name already registered: {name}"
  | languageUnavailable language reason => s!"Language '{language}' is unavailable: {reason}"
  | parseFailure path message => s!"Failed to parse {path}: {message}"
  | query offset row column message =>
    s!"Query error at offset {offset} (row {row}, column {column}): {message}"
  | invalidPattern message => s!"Invalid pattern: {message}"
  | templateNotFound language name => s!"No query template '{name}' for {language}"
  | invalidArgument message => s!"Invalid argument: {message}"
  | configuration message => s!"Config parse error: {message}"
  | unknownSetting path => s!"Unknown config setting: {path}"
  | io message => s!"IO error: {message}"
  | serialization message => s!"Serialization error: {message}"
  | overflow => "Number too large"

/-- What the error is about, where that is one thing. -/
def subject : Error → Option String
  | invalidPath path _ | securityViolation path _ | parseFailure path _ => some path
  | fileNotFound path | languageNotDetected path => some path
  | projectNotFound name | duplicateName name => some name
  | languageUnavailable language _ => some language
  | query offset _ _ _ => some (toString offset)
  | invalidPattern pattern => some pattern
  | templateNotFound _ name => some name
  | unknownSetting path => some path
  | invalidArgument _ | configuration _ | io _ | serialization _ | overflow => none

def hint : Error → String
  | invalidPath .. => "Pass an existing directory"
  | securityViolation .. => "Paths must stay inside the project root and pass the security filters"
  | projectNotFound _ => "Call list_projects to see registered projects"
  | fileNotFound _ => "Call list_files to see available files"
  | languageNotDetected _ => "Pass the language explicitly"
  | duplicateName _ => "Choose another name or remove the existing project"
  | languageUnavailable .. => "Call list_languages to see supported languages"
  | parseFailure .. => "Check that the file matches the language grammar"
  | query .. => "Fix the query syntax near the reported offset"
  | invalidPattern _ => "Fix the glob or regex pattern"
  | templateNotFound .. => "Call list_query_templates to see available templates"
  | invalidArgument _ => "Check the request arguments"
  | configuration _ | unknownSetting _ => "Check the configuration file"
  | io _ | serialization _ | overflow => "Check server logs for details"

end Error

end CodeAtlas
