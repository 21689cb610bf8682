import CodeAtlas.Error
import CodeAtlas.Json.Value
import CodeAtlas.Language.Basic

/-! # The registry of languages

A language is loaded when it is first asked for, and an identifier without a language is
remembered as failed.  What is answered never depends on what was asked before. -/

namespace CodeAtlas.Language

structure Registry where
  /-- The languages loaded so far. -/
  loaded : List Language
  /-- The identifiers that failed so far, in order. -/
  failed : List String
deriving DecidableEq, Repr

namespace Registry

def empty : Registry := ⟨[], []⟩

instance : Inhabited Registry := ⟨empty⟩

/-- Why an identifier fails. -/
def reason : String := "no grammar bundled for this language"

/-- Put an identifier in its place, unless it is there. -/
def insertId (id : String) : List String → List String
  | [] => [id]
  | other :: rest =>
    if id < other then id :: other :: rest
    else if id = other then other :: rest
    else other :: insertId id rest

/-- Load what an identifier names, without a look at earlier failures. -/
def load (registry : Registry) (id : String) : Except Error Language × Registry :=
  match ofId? id with
  | some language =>
    (.ok language, {
      loaded := if registry.loaded.contains language then registry.loaded
        else language :: registry.loaded
      failed := registry.failed.erase id })
  | none =>
    (.error (.languageUnavailable id reason),
      { registry with failed := insertId id registry.failed })

/-- The loaded language with this identifier. -/
def loaded? (registry : Registry) (id : String) : Option Language :=
  registry.loaded.find? fun language => language.id = id

/-- The language that a name stands for. -/
def get (registry : Registry) (name : String) : Except Error Language × Registry :=
  let id := normalize name
  match registry.loaded? id with
  | some language => (.ok language, registry)
  | none =>
    if registry.failed.contains id then (.error (.languageUnavailable id reason), registry)
    else registry.load id

/-- Forget an earlier failure and try again. -/
def recheck (registry : Registry) (name : String) : Except Error Language × Registry :=
  let id := normalize name
  match registry.loaded? id with
  | some language => (.ok language, registry)
  | none => { registry with failed := registry.failed.erase id }.load id

def forPath (registry : Registry) (path : String) : Except Error Language × Registry :=
  match ofPath? (Path.ofString path) with
  | some language => registry.get language.id
  | none => (.error (.languageNotDetected path), registry)

/-- Ask for each name in turn, and only remember what comes of it. -/
def preload (registry : Registry) (names : List String) : Registry :=
  names.foldl (fun registry name => (registry.get name).2) registry

/-- The languages that have not failed, in order. -/
def list (registry : Registry) : List String :=
  (all.map id).filter fun id => !registry.failed.contains id

/-- Whether a name could be loaded; nothing is loaded by asking. -/
def isAvailable (registry : Registry) (name : String) : Bool :=
  let id := normalize name
  (registry.loaded? id).isSome || (!registry.failed.contains id && (ofId? id).isSome)

/-- The identifiers of the loaded languages, in order. -/
def loadedIds (registry : Registry) : List String :=
  (all.filter registry.loaded.contains).map id

def toValue (registry : Registry) : Json.Value :=
  .object [
    ("supported", .texts registry.list), ("loaded", .texts registry.loadedIds),
    ("failed", .object (registry.failed.map fun id => (id, .text reason)))]

end Registry

end CodeAtlas.Language
