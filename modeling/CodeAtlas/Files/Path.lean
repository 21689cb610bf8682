import CodeAtlas.Text.Line
import CodeAtlas.Text.Raw

/-! # Paths

A written path is absolute or not, and takes steps to a name or to the parent.  A place is a
canonical absolute path, kept as the list of names below the root of the file system.  Names are
raw text: any octets but the slash may stand in them. -/

namespace CodeAtlas

/-- The names on the way from the root of the file system. -/
abbrev Place := List RawText

namespace Path

inductive Step where
  | name (s : RawText)
  | parent
deriving DecidableEq, Repr

end Path

structure Path where
  absolute : Bool
  steps : List Path.Step
  /-- The path is written so that it can only lead to a directory. -/
  directory : Bool := false
deriving DecidableEq, Repr

namespace Path

def slash : UInt8 := 47

def dot : UInt8 := 46

/-- Empty parts and single dots take no step. -/
def stepOf? (part : List UInt8) : Option Step :=
  if part = [] ∨ part = [dot] then none
  else if part = [dot, dot] then some .parent
  else some (.name ⟨part⟩)

/-- The empty path is not written for a directory, and leads nowhere. -/
def ofRaw (r : RawText) : Path :=
  let parts := Text.splitOn slash r.octets
  { absolute := r.octets.head? = some slash
    steps := parts.filterMap stepOf?
    directory := !r.octets.isEmpty && (parts.getLast?.bind stepOf?).isNone }

def ofString (s : String) : Path := ofRaw s

/-- Take one step without looking at the file system.  The root is its own parent. -/
def advance (place : Place) : Step → Place
  | .name s => place ++ [s]
  | .parent => place.dropLast

/-- The place a path leads to from a base, judged by its steps alone. -/
def resolve (base : Place) (p : Path) : Place :=
  p.steps.foldl advance (if p.absolute then [] else base)

def fileName? (p : Path) : Option RawText :=
  match p.steps.getLast? with
  | some (.name s) => some s
  | _ => none

/-- What follows the last dot of a name, unless that dot is its first octet. -/
def extensionOf? (name : RawText) : Option RawText :=
  match (Text.splitOn dot name.octets).reverse with
  | last :: before :: more =>
    if more.isEmpty && before.isEmpty then none else some ⟨last⟩
  | _ => none

def extension? (p : Path) : Option RawText :=
  p.fileName?.bind extensionOf?

end Path

namespace Place

instance : HAppend Place (List String) Place where
  hAppend p names := p ++ names.map RawText.ofString

/-- The place relative to a root above it. -/
def below? : Place → Place → Option Place
  | [], p => some p
  | r :: root, s :: p => if r = s then below? root p else none
  | _ :: _, [] => none

/-- The names with a slash between each two. -/
def joined (p : Place) : RawText where
  octets := [Path.slash].intercalate (p.map RawText.octets)

/-- Names joined by slashes, as they are shown. -/
def relative (p : Place) : String := p.joined.shown

def render (p : Place) : String :=
  "/" ++ p.relative

/-- The absolute path to the place, if it is text. -/
def text? (p : Place) : Option String :=
  p.joined.text?.map ("/" ++ ·)

/-- Names joined by slashes, a backslash inside a name being shown as a slash too. -/
def slashed (p : Place) : String :=
  String.ofList (p.relative.toList.map fun c => if c = '\\' then '/' else c)

def extension? (p : Place) : Option RawText :=
  p.getLast?.bind Path.extensionOf?

/-- The names that a way spelled out in parts goes through.  Behind its first part, empty parts and
single dots take no step. -/
def tidy : Place → Place
  | [] | [⟨[]⟩] => []
  | s :: rest => s :: rest.filter fun t => t.octets ≠ [] && t.octets ≠ [Path.dot]

end Place

end CodeAtlas
