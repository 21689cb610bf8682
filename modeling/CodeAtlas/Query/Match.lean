import CodeAtlas.Query.Basic
import CodeAtlas.Syntax.Spot

/-! # Matching

A pattern matches siblings from a given one on, and every way of matching it counts.  A match tells
what is captured and which node, in the order of the tree, is the last one needed.  Matches are
listed by that node, then by the node where they start, then by clause. -/

namespace CodeAtlas.Query

open Syntax (Spot)

structure Capture where
  name : String
  node : Spot
deriving Repr

/-- What a match has found so far. -/
structure Found where
  captures : List Capture := []
  /-- The number of the last node needed. -/
  last : Nat := 0
deriving Repr

def Found.append (a b : Found) : Found where
  captures := a.captures ++ b.captures
  last := max a.last b.last

/-! ## Nodes -/

/-- Whether a node is what a test asks for.  None is of a family of kinds. -/
def Test.accepts (l : Syntax.Label) : Test → Bool
  | any => !l.error
  | anyNamed => l.named && !l.error
  | kind name named => l.kind = name && l.named = named
  | missing none => l.missing
  | missing (some (name, named)) => l.missing && l.kind = name && l.named = named
  | family _ => false

/-- Whether a node by itself is what a head asks for. -/
def Head.accepts (h : Head) (s : Spot) : Bool :=
  h.test.accepts s.label &&
    (match h.field with
      | some name => s.label.field = some name
      | none => true) &&
    h.absent.all fun name => s.children.all fun c => c.label.field ≠ some name

/-- What the head of a pattern finds at a node. -/
def Head.found (h : Head) (s : Spot) : Found where
  captures := h.captures.map fun name => ⟨name, s⟩
  last := s.index

/-! ## Siblings -/

/-- Where an item may start: anywhere, or with no named sibling passed over. -/
def starts (anchored : Bool) : List Spot → List (List Spot)
  | [] => []
  | s :: rest =>
    (s :: rest) :: (if anchored && s.label.named then [] else starts anchored rest)

/-- Repeat a step as often as it goes, every number of times from one up being a way.  Each step
goes on right where the one before it ended. -/
def runs (step : List Spot → List (Found × List Spot)) :
    Nat → List Spot → List (Found × List Spot)
  | 0, _ => []
  | fuel + 1, ss =>
    (step ss).flatMap fun (f, rest) =>
      (f, rest) :: (runs step fuel rest).map fun (g, rest') => (f.append g, rest')

mutual

/-- The ways to match a pattern with its first node at the head of the siblings, each with the
siblings after the last node taken. -/
def Pattern.matchAt : Pattern → List Spot → List (Found × List Spot)
  | _, [] => []
  | .node head items closed, s :: rest =>
    if head.accepts s then
      ((matchItems items s.children).filter fun (_, after) =>
        !closed || after.all fun c => !c.label.named).map
          fun (f, _) => ((head.found s).append f, rest)
    else []
  | .choice patterns, ss => matchEach patterns ss
  | .group items, ss => matchGroup items ss
  | .optional p, ss => p.matchAt ss
  | .star p, ss => runs (fun ss => p.matchAt ss) ss.length ss
  | .plus p, ss => runs (fun ss => p.matchAt ss) ss.length ss

/-- The ways to match one of several patterns. -/
def matchEach : List Pattern → List Spot → List (Found × List Spot)
  | [], _ => []
  | p :: rest, ss => p.matchAt ss ++ matchEach rest ss

/-- The ways to match a list of items among siblings, in order. -/
def matchItems : List (Bool × Pattern) → List Spot → List (Found × List Spot)
  | [], ss => [({}, ss)]
  | (anchored, p) :: items, ss =>
    let places := starts anchored ss
    -- A repetition starts where it first can.
    let places := match p with
      | .star q | .plus q => (places.find? fun ss => !(q.matchAt ss).isEmpty).toList
      | _ => places
    let found := places.flatMap fun ss => (p.matchAt ss).flatMap fun (f, rest) =>
      (matchItems items rest).map fun (g, rest') => (f.append g, rest')
    if p.skippable then found ++ matchItems items ss else found

/-- The ways to match items of which the first one taken is at the head of the siblings. -/
def matchGroup : List (Bool × Pattern) → List Spot → List (Found × List Spot)
  | [], _ => []
  | (_, p) :: items, ss =>
    let found := (p.matchAt ss).flatMap fun (f, rest) =>
      (matchItems items rest).map fun (g, rest') => (f.append g, rest')
    if p.skippable then found ++ matchGroup items ss else found

end

/-! ## Trees -/

/-- A match of the clause with the given number. -/
structure Match where
  clause : Nat
  /-- The number of the node where the match starts. -/
  start : Nat
  found : Found
deriving Repr

/-- What a match captures, for comparing. -/
def Match.key (m : Match) : List (String × Nat) :=
  m.found.captures.map fun c => (c.name, c.node.index)

/-- Whether the captures of one match are among those of another, and are not all of them. -/
def Match.within (a b : Match) : Bool :=
  a.key.length < b.key.length && a.key.all b.key.contains

/-- All ways to match a pattern at the levels of a tree. -/
def Pattern.allMatches (clause : Nat) (p : Pattern) (levels : List (Bool × List Spot)) :
    List Match :=
  let found := levels.flatMap fun (error, ss) =>
    if error && !p.rooted then []
    else (p.matchAt ss).map fun (f, _) => ⟨clause, (ss.head?.map Spot.index).getD 0, f⟩
  -- A repetition takes as much as it can.
  if p.hasQuantifier then found.filter fun m => !found.any m.within else found

/-- The order in which matches are listed. -/
def Match.before (a b : Match) : Bool :=
  if a.found.last ≠ b.found.last then a.found.last < b.found.last
  else if a.start ≠ b.start then a.start < b.start
  else a.clause ≤ b.clause

/-- Drop every match whose clause and captures an earlier one has. -/
def distinct (seen : List (Nat × List (String × Nat))) : List Match → List Match
  | [] => []
  | m :: rest =>
    let key := (m.clause, m.key)
    if seen.contains key then distinct seen rest else m :: distinct (key :: seen) rest

/-! ## Texts -/

def Match.nodes (m : Match) (name : String) : List Spot :=
  (m.found.captures.filter fun c => c.name = name).map Capture.node

/-- Whether the outcomes for the nodes of a capture meet a mode.  Only the mode for all nodes can
fail. -/
def Mode.holds (mode : Mode) (outcomes : List Bool) : Bool :=
  !mode.all || outcomes.all fun o => o = mode.positive

/-- Two captures of different lengths never have the same texts throughout. -/
def Mode.holdsOfPairs (mode : Mode) (pairs : List (List UInt8 × List UInt8))
    (sameLength : Bool) : Bool :=
  let outcomes := pairs.map fun (s, t) => decide (decide (s = t) = mode.positive)
  if mode.all then outcomes.all id && sameLength else outcomes.any id || sameLength

def Predicate.holds (source : List UInt8) (m : Match) : Predicate → Bool
  | sameText mode a b =>
    let textsA := (m.nodes a).map fun s => s.label.span.octets source
    let textsB := (m.nodes b).map fun s => s.label.span.octets source
    mode.holdsOfPairs (textsA.zip textsB) (textsA.length = textsB.length)
  | hasText mode a text =>
    let octets := Text.Utf8.encode text.toList
    mode.holds ((m.nodes a).map fun s => s.label.span.octets source = octets)
  | fits mode a regex =>
    mode.holds ((m.nodes a).map fun s => regex.isMatch (s.label.span.text source).toList)
  | oneOf positive a texts =>
    let all := texts.map fun text => Text.Utf8.encode text.toList
    (m.nodes a).all fun s => all.contains (s.label.span.octets source) = positive

/-! ## Queries -/

/-- The matches of the patterns of a query, whatever the texts are. -/
def shapes (query : Query) (root : Syntax.Node) : List Match :=
  let levels := Spot.levelsOf false [Spot.ofRoot root]
  let found := query.clauses.zipIdx.flatMap fun (c, i) =>
    match c.pattern with
    | some p => p.allMatches i levels
    | none => []
  distinct [] (found.mergeSort Match.before)

/-- The matches of a query on a tree over a source. -/
def run (query : Query) (root : Syntax.Node) (source : List UInt8) : List Match :=
  (query.shapes root).filter fun m =>
    match query.clauses[m.clause]? with
    | some c => c.predicates.all fun p => p.holds source m
    | none => false

end Query

end CodeAtlas
