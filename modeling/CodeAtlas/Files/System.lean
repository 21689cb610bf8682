import CodeAtlas.Files.Path

/-! # File systems

A file system is a tree of directories, files and links.  Following a path goes through links, at
most forty of them, to a place on whose way there are none.

Everything in it may be read: there are no permissions, and no devices or pipes.  So a file that a
path has led to is there to be read, as long as the file system stays as it is. -/

namespace CodeAtlas

inductive Entry where
  | file (content : List UInt8) (modified : Nat)
  | directory (items : List (RawText × Entry))
  | link (target : RawText)
deriving Repr

structure FileSystem where
  /-- What the root directory holds. -/
  items : List (RawText × Entry)
  /-- Where paths that are not absolute start. -/
  workingDirectory : Place := []
deriving Repr

namespace FileSystem

inductive Fault where
  | notFound
  | notDirectory
  | isDirectory
  | tooManyLinks
  | notText
deriving DecidableEq, Repr

def Fault.message : Fault → String
  | notFound => "No such file or directory (os error 2)"
  | notDirectory => "Not a directory (os error 20)"
  | isDirectory => "Is a directory (os error 21)"
  | tooManyLinks => "Too many levels of symbolic links (os error 40)"
  | notText => "stream did not contain valid UTF-8"

/-- The entry at a place below a directory with these items; links are not followed. -/
def entryBelow? (items : List (RawText × Entry)) : Place → Option Entry
  | [] => some (.directory items)
  | [name] => items.lookup name
  | name :: rest =>
    match items.lookup name with
    | some (.directory items) => entryBelow? items rest
    | _ => none

def entry? (fs : FileSystem) (place : Place) : Option Entry :=
  entryBelow? fs.items place

/-- The links that may be followed on the way to one place. -/
def linkLimit : Nat := 40

/-- Take steps from a directory, with so many links left to follow. -/
def follow (fs : FileSystem) (links : Nat) (here : Place) :
    List Path.Step → Except Fault Place
  | [] => .ok here
  | .parent :: rest => fs.follow links here.dropLast rest
  | .name s :: rest =>
    match fs.entry? (here ++ [s]) with
    | none => .error .notFound
    | some (.directory _) => fs.follow links (here ++ [s]) rest
    | some (.file ..) => if rest.isEmpty then .ok (here ++ [s]) else .error .notDirectory
    | some (.link target) =>
      match links with
      | 0 => .error .tooManyLinks
      | links + 1 =>
        let p := Path.ofRaw target
        fs.follow links (if p.absolute then [] else here) (p.steps ++ rest)
termination_by steps => (links, steps.length)

/-- The place that a path leads to. -/
def locate (fs : FileSystem) (p : Path) : Except Fault Place := do
  if !p.absolute && p.steps.isEmpty && !p.directory then throw .notFound
  let place ← fs.follow linkLimit (if p.absolute then [] else fs.workingDirectory) p.steps
  match fs.entry? place with
  | some (.file ..) => if p.directory then throw .notDirectory else return place
  | _ => return place

/-- The path to a place. -/
def pathTo (place : Place) : Path where
  absolute := true
  steps := place.map .name

/-- The content and the time of change of the file at a place. -/
def file? (fs : FileSystem) (place : Place) : Option (List UInt8 × Nat) :=
  match fs.entry? place with
  | some (.file content modified) => some (content, modified)
  | _ => none

def isDirectory (fs : FileSystem) (place : Place) : Bool :=
  match fs.entry? place with
  | some (.directory _) => true
  | _ => false

/-- The content of the file at a place. -/
def read (fs : FileSystem) (place : Place) : Except Fault (List UInt8) :=
  match fs.entry? place with
  | some (.file content _) => .ok content
  | some (.directory _) => .error .isDirectory
  | _ => .error .notFound

/-- The content of the file that a path leads to. -/
def readPath (fs : FileSystem) (p : Path) : Except Fault (List UInt8) := do
  fs.read (← fs.locate p)

/-- The content of the file that a path leads to, as text. -/
def readText (fs : FileSystem) (p : Path) : Except Fault (List Char) := do
  match Text.Utf8.decodeStrict? (← fs.readPath p) with
  | some text => return text
  | none => throw .notText

/-- Whether a path leads to a file. -/
def isFile (fs : FileSystem) (p : Path) : Bool :=
  match fs.locate p with
  | .ok place => (fs.file? place).isSome
  | .error _ => false

/-! ## Changes -/

def withoutItem (name : RawText) (items : List (RawText × Entry)) : List (RawText × Entry) :=
  items.filter fun item => item.1 ≠ name

/-- Put an entry below a directory with these items, making the directories on the way.  A
directory that is there keeps what it holds when an empty one is put in its place. -/
def putBelow (entry : Entry) : Place → List (RawText × Entry) → List (RawText × Entry)
  | [], items => items
  | [name], items =>
    match entry, items.lookup name with
    | .directory [], some (.directory _) => items
    | entry, _ => withoutItem name items ++ [(name, entry)]
  | name :: rest, items =>
    let inner := match items.lookup name with
      | some (.directory inner) => inner
      | _ => []
    withoutItem name items ++ [(name, .directory (putBelow entry rest inner))]

def put (fs : FileSystem) (place : Place) (entry : Entry) : FileSystem :=
  { fs with items := putBelow entry place fs.items }

/-- Remove the entry at a place, with all that is below it. -/
def removeBelow : Place → List (RawText × Entry) → List (RawText × Entry)
  | [], items => items
  | [name], items => withoutItem name items
  | name :: rest, items =>
    match items.lookup name with
    | some (.directory inner) =>
      withoutItem name items ++ [(name, .directory (removeBelow rest inner))]
    | _ => items

def remove (fs : FileSystem) (place : Place) : FileSystem :=
  { fs with items := removeBelow place fs.items }

end FileSystem

end CodeAtlas
