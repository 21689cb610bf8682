import CodeAtlas.Launch
import CodeAtlas.Snapshot
import Std.Time.Format

/-! # The program

Lines of the standard input are answered on the standard output.  The files and syntax trees come
from a snapshot, which is read anew for each line, and the configuration from its own file. -/

namespace CodeAtlas.Program

/-- The variable that names the file with the snapshot. -/
def snapshotVariable : String := "CODE_ATLAS_SNAPSHOT"

/-- The variables that the program looks at. -/
def variableNames : List String := [
  "ARBOR_CACHE_ENABLED", "ARBOR_CACHE_MAX_SIZE_MB", "ARBOR_CACHE_TTL_SECONDS",
  "ARBOR_CONFIG_PATH", "ARBOR_LANGUAGE_DEFAULT_MAX_DEPTH", "ARBOR_LANGUAGE_MAX_CHILDREN",
  "ARBOR_LANGUAGE_PREFERRED_LANGUAGES", "ARBOR_LOG_LEVEL", "ARBOR_MAX_RESULTS_DEFAULT",
  "ARBOR_SECURITY_ALLOWED_EXTENSIONS", "ARBOR_SECURITY_EXCLUDED_DIRS",
  "ARBOR_SECURITY_MAX_FILE_SIZE_MB", snapshotVariable, "HOME"]

def environment : IO (List (String × String)) :=
  variableNames.filterMapM fun name => do
    return (← IO.getEnv name).map fun value => (name, value)

/-- The content of a file, or nothing if it cannot be read. -/
def contentOf (path : String) : IO (Option (List UInt8)) := do
  try
    return some (← IO.FS.readBinFile path).toList
  catch _ => return none

/-- The snapshot that the environment names; without one there are neither files nor trees. -/
def snapshot (environment : List (String × String)) : IO Json.Value := do
  let some path := environment.lookup snapshotVariable | return .null
  let some octets ← contentOf path | return .null
  return ((Text.Utf8.decodeStrict? octets).bind Json.read).getD .null

/-- A file system with nothing but the configuration file. -/
def configurationFiles (options : Launch.Options) (environment : List (String × String)) :
    IO FileSystem := do
  let home := (environment.lookup "HOME").map Config.homePath
  let some path := options.config <|> home | return { items := [] }
  let some octets ← contentOf path | return { items := [] }
  let fs : FileSystem := { items := [] }
  return fs.put (Path.resolve [] (Path.ofString path)) (.file octets 0)

def padded (width n : Nat) : String :=
  let digits := toString n
  String.ofList (List.replicate (width - digits.length) '0') ++ digits

/-- The date and time of day in Greenwich. -/
def date : IO String := do
  let now ← Std.Time.Timestamp.now
  let wall := Std.Time.WallTime.ofTimestamp now Std.Time.TimeZone.UTC.offset
  let t := Std.Time.PlainDateTime.ofWallTime wall
  let day := s!"{t.year}-{padded 2 t.month.val.toNat}-{padded 2 t.day.val.toNat}"
  let time :=
    s!"{padded 2 t.hour.val.toNat}:{padded 2 t.minute.val.toNat}:{padded 2 t.second.val.toNat}"
  return s!"{day}T{time}.{padded 9 t.nanosecond.val.toNat}Z"

def surroundings (environment : List (String × String)) : IO Surroundings := do
  let handed ← snapshot environment
  return {
    files := Snapshot.putFiles { items := [] } [] (Snapshot.member handed "files")
    parser := Snapshot.parser (Snapshot.member handed "trees")
    now := ← IO.monoNanosNow
    date := ← date }

/-- Answer one line after the other until the input ends. -/
partial def serve (environment : List (String × String)) (input output : IO.FS.Stream)
    (w : Workspace) : IO Unit := do
  let line ← input.getLine
  unless line.isEmpty do
    let (response, w) := Launch.receive line (← surroundings environment) w
    if let some response := response then
      output.putStrLn response
      output.flush
    serve environment input output w

def run (arguments : List String) : IO UInt32 := do
  let environment ← environment
  match Launch.read arguments environment with
  | .error halt =>
    IO.print (halt.output environment)
    return halt.code
  | .ok options =>
    let fs ← configurationFiles options environment
    let config := Launch.configuration fs options environment
    serve environment (← IO.getStdin) (← IO.getStdout) (.new config)
    return 0

end CodeAtlas.Program

def main (arguments : List String) : IO UInt32 :=
  CodeAtlas.Program.run arguments
