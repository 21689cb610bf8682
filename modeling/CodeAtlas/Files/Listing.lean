import CodeAtlas.Files.Access
import CodeAtlas.Files.Ignore

/-! # Lists of files

The files of a project that neither an ignore file nor the policy holds back, in the order of their
paths.  Links are not followed. -/

namespace CodeAtlas

namespace Listing

structure Options where
  /-- A glob for the relative path. -/
  pattern : Option String := none
  /-- The directories to go down, the root being none. -/
  maxDepth : Option Nat := none
  /-- Extensions, with or without a dot. -/
  extensions : Option (List String) := none
deriving Repr

/-- Whether there is one more directory to go down. -/
def deeper? : Option Nat → Option (Option Nat)
  | none => some none
  | some 0 => none
  | some (n + 1) => some (some n)

mutual

/-- The files at or below an entry whose place passed the rules around it. -/
def walk (fs : FileSystem) (policy : Policy) (levels : List Ignore.Level) (depth : Option Nat)
    (place : Place) : Entry → List Place
  | .file .. => [place]
  | .link _ => []
  | .directory items =>
    match deeper? depth with
    | none => []
    | some depth =>
      walkItems fs policy (Ignore.Level.of fs place :: levels) depth place items

/-- The files at or below the entries of a directory, without excluded directories. -/
def walkItems (fs : FileSystem) (policy : Policy) (levels : List Ignore.Level)
    (depth : Option Nat) (place : Place) : List (RawText × Entry) → List Place
  | [] => []
  | (name, entry) :: rest =>
    let isDirectory := match entry with
      | .directory _ => true
      | _ => false
    let held := Ignore.ignored levels (place ++ [name]) isDirectory ||
      (isDirectory && policy.isExcluded name)
    let found := if held then [] else walk fs policy levels depth (place ++ [name]) entry
    found ++ walkItems fs policy levels depth place rest

end

/-- The files below a root, relative to it and in the order of the tree.  On the way to the root
links are followed. -/
def filesBelow (fs : FileSystem) (policy : Policy) (maxDepth : Option Nat) (root : Place) :
    List Place :=
  match fs.locate (FileSystem.pathTo root) with
  | .error _ => []
  | .ok base =>
    match fs.entry? base with
    | some entry =>
      (walk fs policy (Ignore.levelsAbove fs base) maxDepth base entry).filterMap base.below?
    | none => []

def hasExtension (extensions : List String) (relative : Place) : Bool :=
  let extension := (relative.extension?.bind RawText.text?).getD ""
  extensions.any fun e =>
    Policy.sameLetters (String.ofList (e.toList.dropWhile (· = '.'))) extension

def globOf (pattern : Option String) : Except Error (Option Glob) :=
  match pattern with
  | none => .ok none
  | some p =>
    match Glob.read ⟨false, false⟩ p with
    | .ok glob => .ok (some glob)
    | .error fault =>
      .error (.invalidPattern s!"error parsing glob '{p}': {fault.message}")

/-- Whether a file is in the list, as far as policy and options are concerned. -/
def wants (policy : Policy) (options : Options) (glob : Option Glob) (relative : Place) : Bool :=
  !policy.excludes relative && policy.allowsExtension relative &&
    (match options.extensions with
      | some extensions => hasExtension extensions relative
      | none => true) &&
    (match glob with
      | some glob => glob.fits relative.joined
      | none => true)

end Listing

namespace Policy

/-- The paths of a project's files, in order. -/
def list (policy : Policy) (fs : FileSystem) (project : Project) (options : Listing.Options) :
    Except Error (List String) := do
  let glob ← Listing.globOf options.pattern
  let found := Listing.filesBelow fs policy options.maxDepth project.root
  let shown := (found.filter (Listing.wants policy options glob)).map Place.slashed
  return shown.mergeSort fun a b => decide (a ≤ b)

/-- The paths of a project's files in one language, in order. -/
def listLanguage (policy : Policy) (fs : FileSystem) (project : Project) (language : Language) :
    Except Error (List String) := do
  let files ← policy.list fs project {}
  return files.filter fun file => Language.ofPath? (Path.ofString file) = some language

end Policy

end CodeAtlas
