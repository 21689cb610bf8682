import CodeAtlas.Error
import CodeAtlas.Files.System
import CodeAtlas.Json.Value
import CodeAtlas.Text.Line

/-! # Projects

A project is a named directory.  The registry keeps projects in the order of their names, and a
name belongs to one project at a time. -/

namespace CodeAtlas

structure Project where
  name : String
  /-- A place with no links on its way. -/
  root : Place
  description : Option String
  registeredAt : String
deriving DecidableEq, Repr

namespace Project

/-- The place of a directory that may be the root of a project. -/
def rootAt (fs : FileSystem) (path : String) : Except Error Place :=
  match fs.locate (Path.ofString path) with
  | .error _ => .error (.invalidPath path "path does not exist")
  | .ok place =>
    if fs.isDirectory place then .ok place
    else .error (.invalidPath path "path is not a directory")

/-- The name of a project whose registration gives none. -/
def nameOf (root : Place) : String :=
  ((root.getLast?.map RawText.shown).filter (· ≠ "")).getD "project"

/-- A name with a number after it. -/
def numbered (base : String) (n : Nat) : String :=
  s!"{base}-{n}"

/-- A project is shown with the path to its root, which may not be text. -/
def toValue (p : Project) : Except Error Json.Value :=
  match p.root.text? with
  | none => .error (.serialization "path contains invalid UTF-8 characters")
  | some root =>
    .ok <| .object <| [("name", .text p.name), ("root", .text root)] ++
      (p.description.map fun d => ("description", Json.Value.text d)).toList ++
      [("registered_at", .text p.registeredAt)]

end Project

/-- The registered projects in the order of their names. -/
structure Projects where
  items : List Project
deriving DecidableEq, Repr

namespace Projects

def empty : Projects := ⟨[]⟩

instance : Inhabited Projects := ⟨empty⟩

def get? (projects : Projects) (name : String) : Option Project :=
  projects.items.find? fun p => p.name = name

def get (projects : Projects) (name : String) : Except Error Project :=
  match projects.get? name with
  | some p => .ok p
  | none => .error (.projectNotFound name)

def contains (projects : Projects) (name : String) : Bool :=
  (projects.get? name).isSome

def insertInto (p : Project) : List Project → List Project
  | [] => [p]
  | q :: rest =>
    if p.name < q.name then p :: q :: rest
    else if p.name = q.name then p :: rest
    else q :: insertInto p rest

def insert (projects : Projects) (p : Project) : Projects :=
  ⟨insertInto p projects.items⟩

/-- Remove a project, and tell whether there was one. -/
def remove (projects : Projects) (name : String) : Bool × Projects :=
  (projects.contains name, ⟨projects.items.filter fun p => p.name ≠ name⟩)

/-- The first free name among a base and its numbered forms from the given number on.  There are
more candidates than projects, so one of them is free.

Numbers have no end here.  Where they are signed words of 32 bits, the search would break off once
`2 ^ 31` projects have taken all of them. -/
def firstFree (projects : Projects) (base : String) : Nat → Nat → String
  | 0, n => Project.numbered base n
  | fuel + 1, n =>
    let name := Project.numbered base n
    if projects.contains name then firstFree projects base fuel (n + 1) else name

def freeName (projects : Projects) (base : String) : String :=
  if projects.contains base then projects.firstFree base projects.items.length 2 else base

/-- The name that a registration asks for: blanks around it carry no meaning, and a blank one is
none. -/
def requestedName? (name : Option String) : Option String :=
  (name.map String.strip).filter (· ≠ "")

/-- Register the directory that a path leads to. -/
def register (projects : Projects) (fs : FileSystem) (now : String) (path : String)
    (name description : Option String) : Except Error (Project × Projects) := do
  let root ← Project.rootAt fs path
  let name ← match requestedName? name with
    | some name =>
      if projects.contains name then throw (.duplicateName name) else pure name
    | none => pure (projects.freeName (Project.nameOf root))
  let p : Project := { name, root, description, registeredAt := now }
  return (p, projects.insert p)

end Projects

end CodeAtlas
