import CodeAtlas.Files.System
import CodeAtlas.Language.Basic
import CodeAtlas.Syntax.Position

/-! # Snapshots

Neither the file system nor the grammars belong to this library.  A snapshot is a document that
hands over both: files with their contents, and the syntax trees of sources.

The content of a file is a text, or an object with the text, with octets in hexadecimal digits, or
with a text and how often it is repeated.  The tree of a source is the list of its nodes, each
before its children, as rows of kind, flags, field, start, end and number of children.  In such a
tree the smallest node at a point is looked for by `Syntax.Node.routeTo`. -/

namespace CodeAtlas.Snapshot

/-! ## Values -/

def member (v : Json.Value) (name : String) : Json.Value :=
  (v.get? name).getD .null

def text (v : Json.Value) : String :=
  v.text?.getD ""

def natD (v : Json.Value) (default : Nat) : Nat :=
  match v with
  | .number (.nat n) => n
  | _ => default

def items : Json.Value → List Json.Value
  | .array items => items
  | _ => []

/-! ## Files -/

def octetsOfText (s : String) : List UInt8 :=
  Text.Utf8.encode s.toList

def hexDigit (c : Char) : Nat :=
  if c.isDigit then c.toNat - 48 else if 'a' ≤ c then c.toNat - 87 else c.toNat - 55

def octetsOfHex : List Char → List UInt8
  | high :: low :: rest => UInt8.ofNat (16 * hexDigit high + hexDigit low) :: octetsOfHex rest
  | _ => []

def content (v : Json.Value) : List UInt8 :=
  match v, member v "text", member v "hex", member v "repeat" with
  | .text s, _, _, _ | _, .text s, _, _ => octetsOfText s
  | _, _, .text digits, _ => octetsOfHex digits.toList
  | _, _, _, .array [s, n] => (List.replicate (natD n 0) (octetsOfText (text s))).flatten
  | _, _, _, _ => []

/-- The time of change of a file that tells none. -/
def usualTime : Nat := 1700000000

def entry (v : Json.Value) : Entry :=
  match member v "dir", member v "link" with
  | .bool true, _ => .directory []
  | _, .text target => .link target
  | _, _ => .file (content v) (natD (member v "mtime") usualTime)

/-- Put the files of a snapshot below a place. -/
def putFiles (fs : FileSystem) (base : Place) (files : Json.Value) : FileSystem :=
  match files with
  | .object members =>
    members.foldl (fun fs (path, v) => fs.put (Path.resolve base (Path.ofString path)) (entry v)) fs
  | _ => fs

/-! ## Trees -/

def flagOf (flags bit : Nat) : Bool :=
  flags / Nat.pow 2 bit % 2 = 1

/-- A row tells a label and how many children follow. -/
def row (source : List UInt8) (v : Json.Value) : Syntax.Label × Nat :=
  match items v with
  | [kind, flags, field, start, stop, count] =>
    let flags := natD flags 0
    ({ kind := text kind
       named := flagOf flags 0
       missing := flagOf flags 1
       error := flagOf flags 3
       field := field.text?
       span := .ofOffsets source (natD start 0) (natD stop 0) }, natD count 0)
  | _ => (default, 0)

/-- Put one more node in front of those that follow it, and take its children from them. -/
def gather (row : Syntax.Label × Nat) (following : List Syntax.Node) : List Syntax.Node :=
  .mk row.1 (following.take row.2) :: following.drop row.2

def tree (v : Json.Value) : Syntax.Tree :=
  let source := content (member v "source")
  let rows := (items (member v "nodes")).map (row source)
  let root := (rows.foldr gather []).head?.getD default
  .ofRoot root <| match member v "has_error" with
    | .bool b => b
    | _ => false

/-- Read a source by looking its tree up. -/
def parser (trees : Json.Value) : Syntax.Parser Language :=
  let table := (items trees).map fun v =>
    (text (member v "language"), content (member v "source"), tree v)
  fun language source =>
    (table.find? fun (id, s, _) => id = language.id && s = source).map fun (_, _, t) => t

end CodeAtlas.Snapshot
