import CodeAtlas.Files.Glob
import CodeAtlas.Files.System
import CodeAtlas.Text.Line

/-! # Ignore files

A directory may say which entries at or below it are to be passed over.  Of three files that may
say so the first kind with anything to say decides, and of directories the nearest; within a file
it is the last rule that fits. -/

namespace CodeAtlas.Ignore

structure Rule where
  glob : Glob
  /-- What fits is kept. -/
  keeps : Bool
  directoriesOnly : Bool
deriving Repr

namespace Rule

/-- Drop the blanks at the end of a line, unless the last one is escaped. -/
def trimLine (line : List Char) : List Char :=
  if "\\ ".toList.isSuffixOf line then line else Text.trimEnd line

/-- A line without the marks at its beginning, with whether the rule keeps what fits and whether it
is tied to the directory of its file. -/
def marks : List Char → List Char × Bool × Bool
  | '\\' :: '!' :: rest => ('!' :: rest, false, false)
  | '\\' :: '#' :: rest => ('#' :: rest, false, false)
  | '!' :: '/' :: rest => (rest, true, true)
  | '!' :: rest => (rest, true, false)
  | '/' :: rest => (rest, false, true)
  | line => (line, false, false)

/-- A line without the separator at its end, and whether it had one. -/
def directoryMark (line : List Char) : List Char × Bool :=
  if line.getLast? = some '/' then
    let line := line.dropLast
    (if line.getLast? = some '\\' then line.dropLast else line, true)
  else (line, false)

def startsAnywhere (pattern : List Char) : Bool :=
  "**/".toList.isPrefixOf pattern || pattern = "**".toList

/-- The glob of a rule: one without a separator may fit at any depth, and two stars at the end fit
what is inside a directory alone. -/
def pattern (tied : Bool) (line : List Char) : List Char :=
  let p := if !tied && !line.contains '/' && !startsAnywhere line then "**/".toList ++ line else line
  if "/**".toList.isSuffixOf p then p ++ "/*".toList else p

def ofLine? (line : List Char) : Option Rule :=
  if line.head? = some '#' then none
  else
    let line := trimLine line
    if line.isEmpty then none
    else
      let (line, keeps, tied) := marks line
      let (line, directoriesOnly) := directoryMark line
      match Glob.read ⟨true, true⟩ (String.ofList (pattern tied line)) with
      | .ok glob => some { glob, keeps, directoriesOnly }
      | .error _ => none

end Rule

/-- The rules of a file.  Reading it ends at the first line that is no text. -/
def rules (content : List UInt8) : List Rule :=
  let lines := (splitLines [] [] content).map Text.Utf8.decodeStrict?
  let lines := (lines.takeWhile Option.isSome).filterMap id
  (dropMark lines).filterMap fun line => Rule.ofLine? (dropReturn line)
where
  splitLines (done : List (List UInt8)) (current : List UInt8) : List UInt8 → List (List UInt8)
    | [] => (current.reverse :: done).reverse
    | b :: rest =>
      if b = 10 then splitLines (current.reverse :: done) [] rest
      else splitLines done (b :: current) rest
  dropMark : List (List Char) → List (List Char)
    | line :: rest => line.dropWhile (· = '\uFEFF') :: rest
    | [] => []
  dropReturn (line : List Char) : List Char :=
    if line.getLast? = some '\r' then line.dropLast else line

/-- Whether the rules keep (`true`) or drop (`false`) an entry, if they say anything of it. -/
def verdict? (rs : List Rule) (relative : Place) (isDirectory : Bool) : Option Bool :=
  (rs.reverse.find? fun r =>
    (!r.directoriesOnly || isDirectory) && r.glob.fits relative.joined).map Rule.keeps

/-- What the ignore files of one directory say. -/
structure Level where
  base : Place
  /-- The rules of the three kinds of file, the strongest first. -/
  rules : List (List Rule)

namespace Level

/-- The files with rules, the strongest first.  Left out are the rules that a user may keep for all
directories alike, outside of any of them. -/
def fileNames : List Place :=
  [[".ignore"], [".gitignore"], [".git", "info", "exclude"]]

def of (fs : FileSystem) (base : Place) : Level where
  base := base
  rules := fileNames.map fun name =>
    match fs.readPath (FileSystem.pathTo (base ++ name)) with
    | .ok content => Ignore.rules content
    | .error _ => []

/-- What the file of one kind says of an entry below the level. -/
def verdict? (level : Level) (kind : Nat) (place : Place) (isDirectory : Bool) : Option Bool := do
  let relative ← level.base.below? place
  let rs ← level.rules[kind]?
  Ignore.verdict? rs relative isDirectory

end Level

/-- The levels of the directories from a place up to the root, the nearest first. -/
def levelsFrom (fs : FileSystem) (place : Place) : List Level :=
  (List.range (place.length + 1)).reverse.map fun n => Level.of fs (place.take n)

/-- The levels of the directories above a place, the nearest first. -/
def levelsAbove (fs : FileSystem) : Place → List Level
  | [] => []
  | place => levelsFrom fs place.dropLast

/-- Whether an entry is to be passed over, by the levels around it, the nearest first. -/
def ignored (levels : List Level) (place : Place) (isDirectory : Bool) : Bool :=
  let verdict := (List.range Level.fileNames.length).findSome? fun kind =>
    levels.findSome? fun level => level.verdict? kind place isDirectory
  verdict = some false

end CodeAtlas.Ignore
