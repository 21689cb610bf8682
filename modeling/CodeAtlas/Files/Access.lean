import CodeAtlas.Files.Policy
import CodeAtlas.Files.System
import CodeAtlas.Language.Basic
import CodeAtlas.Project

/-! # Access to the files of a project

A path is judged by its steps before the file system is looked at, and the place it leads to is
judged again. -/

namespace CodeAtlas

/-- A file that passed every check. -/
structure FileRef where
  project : String
  /-- The place below the project's root that was asked for. -/
  relative : Place
  /-- The place where the file is, with no links on its way. -/
  absolute : Place
  size : Nat
  modified : Option Nat
deriving DecidableEq, Repr

namespace FileRef

def displayPath (file : FileRef) : String := file.relative.slashed

end FileRef

/-- The lines of a file that were asked for. -/
structure FileContent where
  path : String
  startLine : Nat
  /-- Zero if there are no lines. -/
  endLine : Nat
  totalLines : Nat
  content : String
deriving DecidableEq, Repr

structure FileMetadata where
  path : String
  size : Nat
  modified : Option Nat
  language : Option Language
  extension : Option String
  lineCount : Nat
deriving DecidableEq, Repr

namespace Policy

def escapes (path : String) : Error :=
  .securityViolation path "path escapes project root"

/-- The place below the root that a path leads to by its steps, if the policy accepts it. -/
def accept (policy : Policy) (project : Project) (path : String) : Except Error Place :=
  match project.root.below? (Path.resolve project.root (Path.ofString path)) with
  | none => .error (escapes path)
  | some relative =>
    if relative.isEmpty then .error (.invalidPath path "path is the project root")
    else if policy.excludes relative then
      .error (.securityViolation path "path is inside an excluded directory")
    else if !policy.allowsExtension relative then
      .error (.securityViolation path "file extension is not allowed")
    else .ok relative

/-- The file that a path of a project leads to. -/
def resolve (policy : Policy) (fs : FileSystem) (project : Project) (path : String) :
    Except Error FileRef := do
  let relative ← policy.accept project path
  match fs.locate (FileSystem.pathTo (project.root ++ relative)) with
  | .error _ => throw (.fileNotFound relative.relative)
  | .ok absolute =>
    if (project.root.below? absolute).isNone then
      throw (.securityViolation path "path resolves outside project root")
    match fs.file? absolute with
    | none => throw (.invalidPath path "not a regular file")
    | some (content, modified) =>
      let size := content.length
      if size > policy.maxFileBytes then
        throw (.securityViolation path
          s!"file is {size} bytes, limit is {policy.maxFileBytes}")
      return { project := project.name, relative, absolute, size, modified := some modified }

/-- The octets of a file that was resolved. -/
def readBytes (policy : Policy) (fs : FileSystem) (file : FileRef) :
    Except Error (List UInt8) :=
  match fs.read file.absolute with
  | .error fault => .error (.io fault.message)
  | .ok content =>
    if content.length > policy.maxFileBytes then
      .error (.securityViolation file.relative.relative "file grew past the size limit")
    else .ok content

def joinLines (lines : List (List Char)) : List Char :=
  ['\n'].intercalate lines

/-- The lines of a text from the given one on, at most so many. -/
def window (path : String) (text : List Char) (startLine maxLines : Option Nat) : FileContent :=
  let lines := Text.lines text
  let skipped := min (startLine.getD 1 - 1) lines.length
  let shown := lines.drop skipped
  let shown := match maxLines with
    | some n => shown.take n
    | none => shown
  { path
    startLine := skipped + 1
    endLine := if shown.isEmpty then 0 else skipped + shown.length
    totalLines := lines.length
    content := String.ofList <|
      if startLine.isNone && maxLines.isNone then text else joinLines shown }

/-- The text of a file, or some of its lines. -/
def readText (policy : Policy) (fs : FileSystem) (project : Project) (path : String)
    (startLine maxLines : Option Nat) : Except Error FileContent := do
  let file ← policy.resolve fs project path
  let octets ← policy.readBytes fs file
  return window file.displayPath (Text.Utf8.decodeLossy octets) startLine maxLines

def metadata (policy : Policy) (fs : FileSystem) (project : Project) (path : String) :
    Except Error FileMetadata := do
  let file ← policy.resolve fs project path
  let octets ← policy.readBytes fs file
  return {
    path := file.displayPath
    size := file.size
    modified := file.modified
    language := (file.relative.extension?.bind RawText.text?).bind Language.ofExtension?
    extension := file.relative.extension?.map RawText.shown
    lineCount := (Text.lines (Text.Utf8.decodeLossy octets)).length }

end Policy

def FileContent.toValue (c : FileContent) : Json.Value :=
  .object [
    ("path", .text c.path), ("start_line", .nat c.startLine), ("end_line", .nat c.endLine),
    ("total_lines", .nat c.totalLines), ("content", .text c.content)]

def FileMetadata.toValue (m : FileMetadata) : Json.Value :=
  .object [
    ("path", .text m.path), ("size", .nat m.size), ("modified", .natOr? m.modified),
    ("language", .textOr? (m.language.map Language.id)), ("extension", .textOr? m.extension),
    ("line_count", .nat m.lineCount)]

end CodeAtlas
