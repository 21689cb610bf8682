import CodeAtlas.Regex.CharSet

/-! # Regular expressions

An expression denotes a relation between positions of a text.  `ends` computes its image: from a
set of positions where matches start it gives the set of positions where they can end.  Sets of
positions are increasing lists, so every step is polynomial in the text whatever the expression. -/

namespace CodeAtlas

/-- Conditions on a position that match no character. -/
inductive Regex.Look where
  | textStart | textEnd | lineStart | lineEnd | lineStartAny | lineEndAny
  | wordBoundary | notWordBoundary | wordStart | wordEnd | wordStartHalf | wordEndHalf
deriving DecidableEq, Repr

inductive Regex where
  | empty
  | one (set : Regex.CharSet)
  | look (l : Regex.Look) (kind : Regex.Property)
  | seq (a b : Regex)
  | alt (a b : Regex)
  /-- From `min` repetitions up to `max`, or any number beyond `min`. -/
  | rep (a : Regex) (min : Nat) (max : Option Nat)
deriving Repr

namespace Regex

/-- The union of two increasing lists. -/
def merge : List Nat → List Nat → List Nat
  | [], ys => ys
  | xs, [] => xs
  | x :: xs, y :: ys =>
    if x < y then x :: merge xs (y :: ys)
    else if y < x then y :: merge (x :: xs) ys
    else x :: merge xs ys

/-- The members of the first increasing list that the second one lacks. -/
def without : List Nat → List Nat → List Nat
  | [], _ => []
  | xs, [] => xs
  | x :: xs, y :: ys =>
    if x < y then x :: without xs (y :: ys)
    else if y < x then without (x :: xs) ys
    else without xs ys

def wordAt (text : Array Char) (kind : Property) (i : Nat) : Bool :=
  (text[i]?.map fun c => kind.holds c).getD false

def wordBefore (text : Array Char) (kind : Property) (i : Nat) : Bool :=
  0 < i && wordAt text kind (i - 1)

def newlineBefore (text : Array Char) (i : Nat) : Bool :=
  0 < i && text[i - 1]? = some '\n'

def Look.holds (text : Array Char) (kind : Property) (i : Nat) : Look → Bool
  | textStart => i = 0
  | textEnd => i = text.size
  | lineStart => i = 0 || newlineBefore text i
  | lineEnd => i = text.size || text[i]? = some '\n'
  | lineStartAny =>
    i = 0 || newlineBefore text i ||
      (0 < i && text[i - 1]? = some '\r' && text[i]? ≠ some '\n')
  | lineEndAny =>
    i = text.size || text[i]? = some '\r' ||
      (text[i]? = some '\n' && !(0 < i && text[i - 1]? = some '\r'))
  | wordBoundary => wordBefore text kind i ≠ wordAt text kind i
  | notWordBoundary => wordBefore text kind i = wordAt text kind i
  | wordStart => !wordBefore text kind i && wordAt text kind i
  | wordEnd => wordBefore text kind i && !wordAt text kind i
  | wordStartHalf => !wordBefore text kind i
  | wordEndHalf => !wordAt text kind i

/-- Apply a step a number of times, stopping early once nothing is left. -/
def iterate (step : List Nat → List Nat) : Nat → List Nat → List Nat
  | 0, s => s
  | n + 1, s => if s.isEmpty then s else iterate step n (step s)

/-- Everything reached from the frontier in at most so many steps, together with `seen`. -/
def closure (step : List Nat → List Nat) : Nat → List Nat → List Nat → List Nat
  | 0, seen, _ => seen
  | n + 1, seen, frontier =>
    let new := without (step frontier) seen
    if new.isEmpty then seen else closure step n (merge seen new) new

/-- The positions where a match that starts at one of the given positions can end. -/
def ends (text : Array Char) : Regex → List Nat → List Nat
  | empty, s => s
  | one set, s => s.filterMap fun i =>
    match text[i]? with
    | some c => if set.contains c then some (i + 1) else none
    | none => none
  | look l kind, s => s.filter fun i => l.holds text kind i
  | seq a b, s => ends text b (ends text a s)
  | alt a b, s => merge (ends text a s) (ends text b s)
  | rep a min max, s =>
    let start := iterate (ends text a) min s
    let more := match max with
      | some m => m - min
      | none => text.size + 1
    closure (ends text a) more start start

/-- The first position of at least `i` where a match starts. -/
def findFrom (r : Regex) (text : Array Char) : Nat → Nat → Option Nat
  | 0, _ => none
  | fuel + 1, i =>
    if (r.ends text [i]).isEmpty then findFrom r text fuel (i + 1) else some i

/-- Where the leftmost match starts. -/
def find? (r : Regex) (text : List Char) : Option Nat :=
  findFrom r text.toArray (text.length + 1) 0

def isMatch (r : Regex) (text : List Char) : Bool :=
  (r.find? text).isSome

def ofLiteral (cs : List Char) : Regex :=
  cs.foldr (fun c r => seq (one (.single c)) r) empty

/-- The octets of memory that the states of a matcher take for the expression, with repetitions
written out.  They are exact for characters and marks one after the other, and an estimate where
there are classes, branches or repetitions. -/
def weight : Regex → Nat
  | empty => 0
  | one set => set.weight
  | look _ _ => 32
  | seq a b => a.weight + b.weight
  | alt a b => a.weight + b.weight + 36
  | rep a min none => Nat.max min 1 * a.weight + 40
  | rep a min (some max) => min * a.weight + (max - min) * (a.weight + 40)

end Regex

end CodeAtlas
