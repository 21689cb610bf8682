import CodeAtlas.Config.File
import CodeAtlas.Server.Basic

/-! # Launching the server

The command line is read from left to right, and the first word that asks for help, asks for the
version or is wrong ends the reading.  A setting of the environment wins over a flag, a flag over
the configuration file, and the file over the defaults. -/

namespace CodeAtlas.Launch

structure Options where
  config : Option String := none
  debug : Bool := false
  disableCache : Bool := false
deriving DecidableEq, Repr

/-- Why the server is not started. -/
inductive Halt where
  | help
  | version
  | misuse
deriving DecidableEq, Repr

/-! ## The command line -/

/-- Whether a word can be the value of an option, and is not an option itself. -/
def isValue (word : String) : Bool :=
  word = "-" || (!word.isEmpty && word.toList.head? ≠ some '-')

def Options.named (o : Options) (path : String) : Except Halt Options :=
  if o.config.isSome || path.isEmpty then .error .misuse else .ok { o with config := some path }

/-- What comes of a word that is no long flag and no option with a value. -/
def halt (word : String) : Halt :=
  match word.toList with
  | '-' :: 'h' :: _ => .help
  | '-' :: 'V' :: _ => .version
  | _ => .misuse

def readFrom (o : Options) : List String → Except Halt Options
  | [] => .ok o
  | ["--"] => .ok o
  | "--help" :: _ => .error .help
  | "--version" :: _ => .error .version
  | "--debug" :: rest =>
    if o.debug then .error .misuse else readFrom { o with debug := true } rest
  | "--disable-cache" :: rest =>
    if o.disableCache then .error .misuse else readFrom { o with disableCache := true } rest
  | "--config" :: path :: rest => do
    if !isValue path then throw .misuse
    readFrom (← o.named path) rest
  | word :: rest => do
    match Text.dropPrefix? "--config=".toList word.toList with
    | some path => readFrom (← o.named (String.ofList path)) rest
    | none => throw (halt word)

/-- The environment names the configuration file if the command line does not. -/
def Options.complete (o : Options) (environment : List (String × String)) : Except Halt Options :=
  match o.config, environment.lookup Config.pathVariable with
  | none, some path => o.named path
  | _, _ => .ok o

def read (arguments : List String) (environment : List (String × String)) :
    Except Halt Options := do
  (← readFrom {} arguments).complete environment

/-! ## What is printed -/

def helpText (environment : List (String × String)) : String :=
  let path := (environment.lookup Config.pathVariable).getD ""
  "\n".intercalate [
    "MCP server for tree-sitter code analysis",
    "",
    s!"Usage: {Server.name} [OPTIONS]",
    "",
    "Options:",
    s!"      --config <CONFIG>  Config file (TOML) [env: {Config.pathVariable}={path}]",
    "      --debug            Log at debug level",
    "      --disable-cache    Parse on every request instead of caching trees",
    "  -h, --help             Print help",
    "  -V, --version          Print version",
    ""]

namespace Halt

/-- The exit code. -/
def code : Halt → UInt32
  | help | version => 0
  | misuse => 2

/-- What is written in the place of responses. -/
def output (environment : List (String × String)) : Halt → String
  | help => helpText environment
  | version => s!"{Server.name} {Workspace.version}\n"
  | misuse => ""

end Halt

/-! ## The configuration -/

/-- A file that cannot be read or understood counts as none. -/
def fileConfig (fs : FileSystem) (o : Options) (environment : List (String × String)) : Config :=
  let path := Config.find fs o.config none (environment.lookup "HOME")
  (path.bind fun path => (Config.load fs path).toOption).getD {}

def configuration (fs : FileSystem) (o : Options) (environment : List (String × String)) :
    Config :=
  let config := fileConfig fs o environment
  let config := if o.disableCache then { config with cache.enabled := false } else config
  config.applyEnvironment environment

/-! ## Serving -/

/-- Whether the work that a line asks for breaks off. -/
def breaksOff (line : String) (around : Surroundings) (w : Workspace) : Bool :=
  match Server.Request.read line.toList with
  | some r =>
    r.method = "tools/call" &&
      match Server.toolWork r.parameters with
      | .ok work => work.breaksOff around w
      | .error _ => false
  | none => false

/-- The line that answers a line of input.  Blank lines ask for nothing, and nothing is said of work
that breaks off. -/
def receive (line : String) (around : Surroundings) (w : Workspace) : Option String × Workspace :=
  if Text.allBlank line.toList then (none, w)
  else
    let (answer, left) := Server.answer line around w
    (if breaksOff line around w then none else answer, left)

end CodeAtlas.Launch
