import CodeAtlas.Regex.Basic

/-! # Queries

A query is a list of clauses.  A clause has a pattern for a node and what must hold of the texts of
the nodes that the pattern captures. -/

namespace CodeAtlas

namespace Query

/-- What a node must be. -/
inductive Test where
  | any
  | anyNamed
  | kind (name : String) (named : Bool)
  /-- Something that the source lacks, of any kind or of the given one. -/
  | missing (kind : Option (String × Bool))
  /-- A node of a family of kinds.  Trees do not record which kinds are in a family, so no node
  passes, though in a grammar that does record it the kinds of the family would. -/
  | family (name : String)
deriving DecidableEq, Repr

/-- What a pattern asks of one node and what it calls it. -/
structure Head where
  test : Test
  /-- What the node must be to its parent. -/
  field : Option String := none
  /-- No child may be one of these to the node. -/
  absent : List String := []
  captures : List String := []
deriving DecidableEq, Repr

/-- An item of a list of patterns is marked if no named sibling may stand before it. -/
inductive Pattern where
  | node (head : Head) (items : List (Bool × Pattern)) (closed : Bool)
  | choice (patterns : List Pattern)
  | group (items : List (Bool × Pattern))
  | optional (p : Pattern)
  | star (p : Pattern)
  | plus (p : Pattern)
deriving Repr

namespace Pattern

/-- Whether a list of patterns may pass the pattern over. -/
def skippable : Pattern → Bool
  | optional _ | star _ => true
  | _ => false

mutual

/-- Change every head at which the pattern can start. -/
def mapFirst (f : Head → Head) : Pattern → Pattern
  | node head items closed => node (f head) items closed
  | choice patterns => choice (mapFirstEach f patterns)
  | group items => group (mapFirstItem f items)
  | optional p => optional (p.mapFirst f)
  | star p => star (p.mapFirst f)
  | plus p => plus (p.mapFirst f)

def mapFirstEach (f : Head → Head) : List Pattern → List Pattern
  | [] => []
  | p :: rest => p.mapFirst f :: mapFirstEach f rest

def mapFirstItem (f : Head → Head) : List (Bool × Pattern) → List (Bool × Pattern)
  | [] => []
  | (anchored, p) :: rest =>
    (anchored, p.mapFirst f) :: (if p.skippable then mapFirstItem f rest else rest)

end

mutual

def hasQuantifier : Pattern → Bool
  | node _ items _ => anyQuantifier items
  | choice patterns => eachQuantifier patterns
  | group items => anyQuantifier items
  | optional _ | star _ | plus _ => true

def anyQuantifier : List (Bool × Pattern) → Bool
  | [] => false
  | (_, p) :: rest => p.hasQuantifier || anyQuantifier rest

def eachQuantifier : List Pattern → Bool
  | [] => false
  | p :: rest => p.hasQuantifier || eachQuantifier rest

end

/-- Whether a match takes one node of its level only.  The others find nothing among the direct
children of a defective stretch of source. -/
def rooted : Pattern → Bool
  | node .. => true
  | choice patterns => patterns.attach.all fun ⟨p, _⟩ => p.rooted
  | group [(_, p)] => p.rooted
  | group _ => false
  | optional p => p.rooted
  | star _ | plus _ => false

end Pattern

/-- How a condition on the texts of several nodes with one name is read. -/
structure Mode where
  positive : Bool
  /-- The condition is on all nodes, or else on some. -/
  all : Bool
deriving DecidableEq, Repr

inductive Predicate where
  | sameText (mode : Mode) (a b : String)
  | hasText (mode : Mode) (capture text : String)
  | fits (mode : Mode) (capture : String) (regex : Regex)
  | oneOf (positive : Bool) (capture : String) (texts : List String)
deriving Repr

structure Clause where
  /-- There is none if the clause has predicates alone. -/
  pattern : Option Pattern
  predicates : List Predicate
deriving Repr

end Query

structure Query where
  clauses : List Query.Clause
  /-- The names of the captures in the order of their first use. -/
  captures : List String
deriving Repr

end CodeAtlas
