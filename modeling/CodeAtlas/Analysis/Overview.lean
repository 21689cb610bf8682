import CodeAtlas.Json.Value
import CodeAtlas.Language.Basic

/-! # Overview of a project

What the list of a project's files tells: the languages, the directories at the top and the files
that describe how the project is built. -/

namespace CodeAtlas.Analysis

structure Overview where
  project : String
  root : String
  totalFiles : Nat
  /-- The languages that occur, in order, with the number of their files. -/
  languages : List (Language × Nat)
  directories : List String
  manifests : List String
deriving DecidableEq, Repr

namespace Overview

/-- The names of files that describe how a project is built. -/
def manifestNames : List String :=
  ["Cargo.toml", "package.json", "tsconfig.json", "pyproject.toml", "setup.py", "setup.cfg",
    "requirements.txt", "go.mod", "Makefile"]

/-- The first part of a path that has more than one. -/
def topDirectory? (file : String) : Option String :=
  match Text.splitOn '/' file.toList with
  | top :: _ :: _ => some (String.ofList top)
  | _ => none

/-- Put a text in its place in an increasing list, unless it is there. -/
def insertText (s : String) : List String → List String
  | [] => [s]
  | t :: rest =>
    if s < t then s :: t :: rest
    else if s = t then t :: rest
    else t :: insertText s rest

def isManifest (file : String) : Bool :=
  manifestNames.contains (((Path.ofString file).fileName?.bind RawText.text?).getD "")

def of (project root : String) (files : List String) : Overview where
  project := project
  root := root
  totalFiles := files.length
  languages :=
    let found := files.filterMap fun file => Language.ofPath? (Path.ofString file)
    (Language.all.map fun language => (language, found.count language)).filter fun (_, n) => n > 0
  directories := (files.filterMap topDirectory?).foldl (fun dirs dir => insertText dir dirs) []
  manifests := files.filter isManifest

def toValue (o : Overview) : Json.Value :=
  .object [
    ("project", .text o.project), ("root", .text o.root), ("total_files", .nat o.totalFiles),
    ("languages", .object (o.languages.map fun (language, n) => (language.id, .nat n))),
    ("directories", .texts o.directories), ("manifests", .texts o.manifests)]

end Overview

end CodeAtlas.Analysis
