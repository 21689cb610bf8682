import CodeAtlas.Files.Access
import CodeAtlas.Search.Basic

/-! # Search in files

Files that cannot be read or look binary have no matches.  The matches are ordered by path and
line, so the order in which the files are searched does not matter.  All files are searched, and if
the search breaks off in one of them, it comes to nothing in the others either. -/

namespace CodeAtlas.Search

/-- The octets in which a zero octet makes a file look binary. -/
def sniffed : Nat := 8192

def looksBinary (octets : List UInt8) : Bool :=
  (octets.take sniffed).contains 0

/-- The matches in one file of a project. -/
def inFile? (search : Search) (policy : Policy) (fs : FileSystem) (project : Project)
    (path : String) : Option (List Match) :=
  match policy.resolve fs project path >>= policy.readBytes fs with
  | .ok octets =>
    if looksBinary octets then some [] else search.inText? path (Text.Utf8.decodeLossy octets)
  | .error _ => some []

def Match.noLater (a b : Match) : Bool :=
  if a.path ≠ b.path then a.path < b.path else a.line ≤ b.line

/-- The first matches in some files of a project. -/
def inFiles? (search : Search) (policy : Policy) (fs : FileSystem) (project : Project)
    (paths : List String) (limit : Nat) : Option (List Match) := do
  let found ← paths.mapM (search.inFile? policy fs project)
  return (found.flatten.mergeSort Match.noLater).take limit

end CodeAtlas.Search
