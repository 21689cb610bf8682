import CodeAtlas.Files.Path
import CodeAtlas.Language.Basic
import CodeAtlas.Syntax.Node
import CodeAtlas.Text.Digest

/-! # Documents

A document is a file of a project together with what was read from it in one language. -/

namespace CodeAtlas

/-- What tells one state of a file from another. -/
structure Fingerprint where
  size : Nat
  modified : Option Nat
  digest : String
deriving DecidableEq, Repr

def Fingerprint.of (modified : Option Nat) (source : List UInt8) : Fingerprint where
  size := source.length
  modified := modified
  digest := Text.Digest.sha256 source

structure Document where
  project : String
  /-- The names on the way from the project's root. -/
  path : Place
  language : Language
  fingerprint : Fingerprint
  source : List UInt8
  tree : Syntax.Tree

namespace Document

def displayPath (d : Document) : String := d.path.slashed

def root (d : Document) : Syntax.Node := d.tree.root

def hasErrors (d : Document) : Bool := d.tree.hasErrors

/-- What a node is taken to cost in memory. -/
def nodeCost : Nat := 64

/-- What a document is taken to cost beside its source and its nodes. -/
def fixedCost : Nat := 256

def footprint (d : Document) : Nat :=
  d.source.length + d.tree.size * nodeCost + fixedCost

end Document

end CodeAtlas
