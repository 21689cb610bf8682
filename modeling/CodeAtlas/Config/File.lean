import CodeAtlas.Config
import CodeAtlas.Files.System

/-! # Configuration files -/

namespace CodeAtlas.Config

/-- The configuration in the file that a path leads to. -/
def load (fs : FileSystem) (path : String) : Except Error Config :=
  match fs.readText (Path.ofString path) with
  | .ok text => ofText text
  | .error fault => .error (.io fault.message)

/-- The configuration file to use, if there is one. -/
def find (fs : FileSystem) (explicit env home : Option String) : Option String :=
  discover explicit env home fun path => fs.isFile (Path.ofString path)

end CodeAtlas.Config
