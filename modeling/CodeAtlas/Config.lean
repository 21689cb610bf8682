import CodeAtlas.Error
import CodeAtlas.Json.Value
import CodeAtlas.Number.Unsigned
import CodeAtlas.Text.Line
import CodeAtlas.Text.Unicode.Case
import CodeAtlas.Toml.Reader

/-! # Configuration

A configuration is read from a document, whose missing fields take their defaults, and changed one
setting at a time.  A change is read from a setting's path and a text without looking at the
configuration, and replaces the value of that setting alone. -/

namespace CodeAtlas

namespace Config

structure Cache where
  enabled : Bool := true
  maxSizeMb : Nat := 100
  /-- Zero keeps entries for ever. -/
  ttlSeconds : Nat := 300
deriving DecidableEq, Repr, Inhabited

structure Security where
  maxFileSizeMb : Nat := 5
  excludedDirs : List String := [".git", "node_modules", "__pycache__"]
  /-- No list allows every extension. -/
  allowedExtensions : Option (List String) := none
deriving DecidableEq, Repr, Inhabited

structure Language where
  defaultMaxDepth : Nat := 5
  preferred : List String := []
  maxChildren : Nat := 0
deriving DecidableEq, Repr, Inhabited

end Config

structure Config where
  cache : Config.Cache := {}
  security : Config.Security := {}
  language : Config.Language := {}
  logLevel : String := "INFO"
  maxResultsDefault : Nat := 100
deriving DecidableEq, Repr, Inhabited

namespace Config

/-! ## Sizes and times -/

def bytesPerMb : Nat := 1024 * 1024

def cacheMaxBytes (config : Config) : Nat :=
  Number.saturatingMul config.cache.maxSizeMb bytesPerMb

def maxFileBytes (config : Config) : Nat :=
  Number.saturatingMul config.security.maxFileSizeMb bytesPerMb

def cacheTtl (config : Config) : Option Nat :=
  if config.cache.ttlSeconds > 0 then some config.cache.ttlSeconds else none

/-! ## Changes -/

/-- A new value for one setting. -/
inductive Change where
  | cacheEnabled (on : Bool)
  | cacheMaxSizeMb (n : Nat)
  | cacheTtlSeconds (n : Nat)
  | maxFileSizeMb (n : Nat)
  | excludedDirs (names : List String)
  | allowedExtensions (names : List String)
  | defaultMaxDepth (n : Nat)
  | preferredLanguages (ids : List String)
  | maxChildren (n : Nat)
  | logLevel (level : String)
  | maxResultsDefault (n : Nat)
deriving DecidableEq, Repr

namespace Change

/-- The words that switch a setting on; every other text switches it off. -/
def onWords : List String := ["true", "yes", "1", "y", "t", "on"]

def readSwitch (value : String) : Bool :=
  onWords.contains (Text.Unicode.lowercase value.strip)

/-- The parts between commas, without the blanks around them and without empty parts. -/
def readList (value : String) : List String :=
  ((Text.splitOn ',' value.toList).map fun part => String.ofList (Text.trim part)).filter
    fun part => part ≠ ""

def readCount (path value : String) : Except Error Nat :=
  match Number.readUnsigned (Text.trim value.toList) with
  | .ok n => .ok n
  | .error e => .error (.configuration s!"{path}: {e.message}")

def read (path value : String) : Except Error Change :=
  match path with
  | "cache.enabled" => .ok (cacheEnabled (readSwitch value))
  | "cache.max_size_mb" => (readCount path value).map cacheMaxSizeMb
  | "cache.ttl_seconds" => (readCount path value).map cacheTtlSeconds
  | "security.max_file_size_mb" => (readCount path value).map maxFileSizeMb
  | "security.excluded_dirs" => .ok (excludedDirs (readList value))
  | "security.allowed_extensions" => .ok (allowedExtensions (readList value))
  | "language.default_max_depth" => (readCount path value).map defaultMaxDepth
  | "language.preferred_languages" => .ok (preferredLanguages (readList value))
  | "language.max_children" => (readCount path value).map maxChildren
  | "log_level" => .ok (logLevel (Text.Unicode.uppercase value.strip))
  | "max_results_default" => (readCount path value).map maxResultsDefault
  | _ => .error (.unknownSetting path)

/-- An empty list of extensions allows every extension. -/
def apply (config : Config) : Change → Config
  | cacheEnabled on => { config with cache.enabled := on }
  | cacheMaxSizeMb n => { config with cache.maxSizeMb := n }
  | cacheTtlSeconds n => { config with cache.ttlSeconds := n }
  | maxFileSizeMb n => { config with security.maxFileSizeMb := n }
  | excludedDirs names => { config with security.excludedDirs := names }
  | allowedExtensions names =>
    { config with security.allowedExtensions := if names.isEmpty then none else some names }
  | defaultMaxDepth n => { config with language.defaultMaxDepth := n }
  | preferredLanguages ids => { config with language.preferred := ids }
  | maxChildren n => { config with language.maxChildren := n }
  | logLevel level => { config with logLevel := level }
  | maxResultsDefault n => { config with maxResultsDefault := n }

end Change

/-- A change in place, which may fail on the way. -/
abbrev Edit := ExceptT Error (StateM Config) Unit

/-- Whether an edit succeeds, and the configuration that it leaves behind. -/
def Edit.run (edit : Edit) (config : Config) : Except Error Unit × Config :=
  (ExceptT.run edit).run config

/-- Give the setting at a path a new value. -/
def assign (path value : String) : Edit := do
  let change ← Change.read path value
  modify fun config => change.apply config

/-- Nothing is changed before the text is read. -/
theorem run_assign (config : Config) (path value : String) :
    (assign path value).run config =
      match Change.read path value with
      | .ok change => (.ok (), change.apply config)
      | .error e => (.error e, config) := by
  rw [assign]
  cases Change.read path value <;> rfl

/-- The configuration with a new value for the setting at a path. -/
def set (config : Config) (path value : String) : Except Error Config :=
  let (outcome, left) := (assign path value).run config
  outcome.map fun _ => left

/-! ## The environment -/

def variablePrefix : String := "ARBOR_"

def pathVariable : String := "ARBOR_CONFIG_PATH"

/-- The names after the common beginning that are no settings. -/
def otherVariables : List String := ["LOG", "CONFIG_PATH"]

def sections : List (List Char) := ["cache", "security", "language"].map String.toList

/-- The path of the setting that an environment variable names. -/
def pathOfVariable? (name : String) : Option String := do
  let key ← Text.dropPrefix? variablePrefix.toList name.toList
  guard (!otherVariables.contains (String.ofList key))
  let key := (Text.Unicode.lowercase (String.ofList key)).toList
  let start := key.takeWhile (· ≠ '_')
  match key.dropWhile (· ≠ '_') with
  | _ :: setting =>
    if sections.contains start then some (String.ofList (start ++ '.' :: setting))
    else some (String.ofList key)
  | [] => some (String.ofList key)

/-- Make the change that a variable asks for.  If it fails, that is not told. -/
def applyVariable (config : Config) (name value : String) : Config :=
  match pathOfVariable? name with
  | some path => ((assign path value).run config).2
  | none => config

def applyEnvironment (config : Config) (environment : List (String × String)) : Config :=
  environment.foldl (fun config (name, value) => config.applyVariable name value) config

/-- The file below a home directory that is used when no other is named. -/
def homePath (home : String) : String :=
  let file := ".config/arbor/config.toml"
  if home = "" || home.endsWith "/" then home ++ file else home ++ "/" ++ file

/-- The file to read: one named explicitly, then the one that the environment names, then the one
below the home directory if it is there. -/
def discover (explicit env home : Option String) (isFile : String → Bool) : Option String :=
  explicit <|> env.filter (· ≠ "") <|> (home.map homePath).filter isFile

/-! ## Documents -/

/-- The fields of a record, which may also be written as a list in the order of their names. -/
def fieldsOf? (names : List String) : Json.Value → Option (List (String × Json.Value))
  | .object members => some members
  | .array items => some (names.zip items)
  | _ => none

def asCount? : Json.Value → Option Nat
  | .number (.nat n) => some n
  | _ => none

def asBool? : Json.Value → Option Bool
  | .bool b => some b
  | _ => none

def asTexts? : Json.Value → Option (List String)
  | .array items => items.mapM Json.Value.text?
  | _ => none

def asOptionalTexts? : Json.Value → Option (Option (List String))
  | .null => some none
  | v => (asTexts? v).map some

/-- A field that is missing takes its default; one of the wrong kind spoils the record. -/
def field? {α : Type} (fields : List (String × Json.Value)) (name : String) (default : α)
    (as? : Json.Value → Option α) : Option α :=
  match fields.lookup name with
  | some v => as? v
  | none => some default

def Cache.ofValue? (v : Json.Value) : Option Cache := do
  let fields ← fieldsOf? ["enabled", "max_size_mb", "ttl_seconds"] v
  let d : Cache := {}
  let enabled ← field? fields "enabled" d.enabled asBool?
  let maxSizeMb ← field? fields "max_size_mb" d.maxSizeMb asCount?
  let ttlSeconds ← field? fields "ttl_seconds" d.ttlSeconds asCount?
  return { enabled, maxSizeMb, ttlSeconds }

def Security.ofValue? (v : Json.Value) : Option Security := do
  let fields ← fieldsOf? ["max_file_size_mb", "excluded_dirs", "allowed_extensions"] v
  let d : Security := {}
  let maxFileSizeMb ← field? fields "max_file_size_mb" d.maxFileSizeMb asCount?
  let excludedDirs ← field? fields "excluded_dirs" d.excludedDirs asTexts?
  let allowedExtensions ←
    field? fields "allowed_extensions" d.allowedExtensions asOptionalTexts?
  return { maxFileSizeMb, excludedDirs, allowedExtensions }

def Language.ofValue? (v : Json.Value) : Option Language := do
  let fields ← fieldsOf? ["default_max_depth", "preferred_languages", "max_children"] v
  let d : Language := {}
  let defaultMaxDepth ← field? fields "default_max_depth" d.defaultMaxDepth asCount?
  let preferred ← field? fields "preferred_languages" d.preferred asTexts?
  let maxChildren ← field? fields "max_children" d.maxChildren asCount?
  return { defaultMaxDepth, preferred, maxChildren }

def ofValue? (v : Json.Value) : Option Config := do
  let fields ←
    fieldsOf? ["cache", "security", "language", "log_level", "max_results_default"] v
  let d : Config := {}
  let cache ← field? fields "cache" d.cache Cache.ofValue?
  let security ← field? fields "security" d.security Security.ofValue?
  let language ← field? fields "language" d.language Language.ofValue?
  let logLevel ← field? fields "log_level" d.logLevel Json.Value.text?
  let maxResultsDefault ← field? fields "max_results_default" d.maxResultsDefault asCount?
  return { cache, security, language, logLevel, maxResultsDefault }

def ofText (text : List Char) : Except Error Config :=
  match (Toml.read text).bind ofValue? with
  | some config => .ok config
  | none => .error (.configuration "invalid document")

/-- The fields in the order in which they are shown. -/
def toValue (config : Config) : Json.Value :=
  .object [
    ("cache", .object [
      ("enabled", .bool config.cache.enabled),
      ("max_size_mb", .nat config.cache.maxSizeMb),
      ("ttl_seconds", .nat config.cache.ttlSeconds)]),
    ("security", .object <| [
      ("max_file_size_mb", .nat config.security.maxFileSizeMb),
      ("excluded_dirs", .texts config.security.excludedDirs)] ++
      (config.security.allowedExtensions.map fun names =>
        ("allowed_extensions", Json.Value.texts names)).toList),
    ("language", .object [
      ("default_max_depth", .nat config.language.defaultMaxDepth),
      ("preferred_languages", .texts config.language.preferred),
      ("max_children", .nat config.language.maxChildren)]),
    ("log_level", .text config.logLevel),
    ("max_results_default", .nat config.maxResultsDefault)]

end Config

end CodeAtlas
