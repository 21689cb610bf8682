import CodeAtlas.Config
import CodeAtlas.Files.Path

/-! # The security policy

What may be read of a project: no file that is too large, none inside an excluded directory, and
none without an allowed extension. -/

namespace CodeAtlas

structure Policy where
  maxFileBytes : Nat
  excludedDirs : List String
  /-- Extensions without their dot; no list allows all. -/
  allowedExtensions : Option (List String)
deriving DecidableEq, Repr

namespace Policy

def ofConfig (config : Config) : Policy where
  maxFileBytes := config.maxFileBytes
  excludedDirs := config.security.excludedDirs
  allowedExtensions := config.security.allowedExtensions.map fun extensions =>
    extensions.map fun e =>
      Text.Unicode.lowercase (String.ofList (e.toList.dropWhile (· = '.')))

/-- Whether a name is that of an excluded directory. -/
def isExcluded (policy : Policy) (name : RawText) : Bool :=
  policy.excludedDirs.any fun dir => name.text? = some dir

/-- Whether a relative place has the name of an excluded directory on its way. -/
def excludes (policy : Policy) (relative : Place) : Bool :=
  relative.any policy.isExcluded

/-- Two texts that differ at most in the case of the basic letters. -/
def sameLetters (a b : String) : Bool :=
  a.toList.map Char.toLower = b.toList.map Char.toLower

def allowsExtension (policy : Policy) (relative : Place) : Bool :=
  match policy.allowedExtensions with
  | none => true
  | some allowed =>
    match relative.extension?.bind RawText.text? with
    | some e => allowed.any fun a => sameLetters a e
    | none => false

end Policy

end CodeAtlas
