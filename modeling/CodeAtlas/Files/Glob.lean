import CodeAtlas.Regex.Basic
import CodeAtlas.Text.Raw

/-! # Globs

A glob is matched against the whole of a path, octet by octet.  Two stars between separators stand
for any number of directories. -/

namespace CodeAtlas

namespace Glob

inductive Token where
  | literal (c : Char)
  | any
  | star
  | anyStart
  | anyEnd
  | anyMiddle
  | oneOf (negated : Bool) (ranges : List (Char × Char))
  | alternatives (branches : List (List Token))
deriving Repr

/-- How a glob is meant. -/
structure Style where
  /-- Single wildcards stop at separators. -/
  separated : Bool
  /-- A bracket that nothing closes stands for itself. -/
  openBrackets : Bool
deriving DecidableEq, Repr

inductive Fault where
  | unclosedClass
  | invalidRange (lo hi : Char)
  | unclosedGroup
  | unopenedGroup
  | danglingEscape
deriving DecidableEq, Repr

def Fault.message : Fault → String
  | unclosedClass => "unclosed character class; missing ']'"
  | invalidRange lo hi => s!"invalid range; '{lo}' > '{hi}'"
  | unclosedGroup =>
    "unclosed alternate group; missing '\x7d' (maybe escape '\x7b' with '[\x7b]'?)"
  | unopenedGroup =>
    "unopened alternate group; missing '\x7b' (maybe escape '\x7d' with '[\x7d]'?)"
  | danglingEscape => "dangling '\\'"

/-! ## Reading -/

/-- A group of alternatives that is being read, everything in reverse order. -/
structure Group where
  branches : List (List Token) := []
  current : List Token := []

/-- The innermost open group first; the last one is the whole glob. -/
structure State where
  outer : List Group
  inner : Group

namespace State

def push (s : State) (t : Token) : State :=
  { s with inner.current := t :: s.inner.current }

/-- Whether a group is open inside the glob. -/
def inGroup (s : State) : Bool := !s.outer.isEmpty

def open_ (s : State) : State where
  outer := s.inner :: s.outer
  inner := {}

def comma (s : State) : State :=
  if s.inGroup then
    { s with inner := ⟨s.inner.current.reverse :: s.inner.branches, []⟩ }
  else s.push (.literal ',')

def close? (s : State) : Option State :=
  match s.outer with
  | g :: outer =>
    let branches := (s.inner.current.reverse :: s.inner.branches).reverse
    some { outer, inner := { g with current := .alternatives branches :: g.current } }
  | [] => none

/-- Put two stars after a separator in the place of that separator. -/
def replaceLast (s : State) (t : Token) : State :=
  match s.inner.current with
  | .anyStart :: _ | .anyEnd :: _ => s
  | _ :: before => { s with inner.current := t :: before }
  | [] => s.push t

end State

/-- The ranges of a class, in reverse order, up to its closing bracket. -/
def classRanges (ranges : List (Char × Char)) (first inRange : Bool) :
    List Char → Except Fault (List (Char × Char) × List Char)
  | [] => .error .unclosedClass
  | c :: rest =>
    if c = ']' && !first then
      .ok ((if inRange then ('-', '-') :: ranges else ranges).reverse, rest)
    else if c = '-' && !first && !inRange then classRanges ranges false true rest
    else
      match inRange, ranges with
      | true, (lo, _) :: others =>
        if c < lo then .error (.invalidRange lo c)
        else classRanges ((lo, c) :: others) false false rest
      | _, _ => classRanges ((c, c) :: ranges) false false rest

def readClass : List Char → Except Fault (Token × List Char)
  | '!' :: rest | '^' :: rest => do
    let (ranges, rest) ← classRanges [] true false rest
    return (.oneOf true ranges, rest)
  | cs => do
    let (ranges, rest) ← classRanges [] true false cs
    return (.oneOf false ranges, rest)

/-- Two stars, with the character before them and the text after them. -/
def readStars (before : Option Char) (s : State) (rest : List Char) :
    State × Option Char × List Char :=
  let twice := ((s.push .star).push .star, some '*', rest)
  if s.inner.current.isEmpty then
    match rest with
    | [] => (s.push .anyStart, some '*', [])
    | '/' :: rest => (s.push .anyStart, some '/', rest)
    | _ => twice
  else if before ≠ some '/' && !(s.inGroup && (before = some ',' || before = some '\x7b')) then
    twice
  else
    match rest with
    | [] => (s.replaceLast .anyEnd, some '*', [])
    | '/' :: rest => (s.replaceLast .anyMiddle, some '/', rest)
    | c :: _ =>
      if s.inGroup && (c = ',' || c = '\x7d') then (s.replaceLast .anyEnd, some '*', rest)
      else twice

def readTokens (style : Style) : Nat → Option Char → State → List Char → Except Fault State
  | 0, _, s, _ => .ok s
  | _, _, s, [] => .ok s
  | fuel + 1, before, s, c :: rest =>
    match c, rest with
    | '?', _ => readTokens style fuel (some c) (s.push .any) rest
    | '*', '*' :: rest =>
      let (s, before, rest) := readStars before s rest
      readTokens style fuel before s rest
    | '*', _ => readTokens style fuel (some c) (s.push .star) rest
    | '[', _ =>
      match readClass rest with
      | .ok (t, rest) => readTokens style fuel (some ']') (s.push t) rest
      | .error fault =>
        if fault = .unclosedClass && style.openBrackets then
          readTokens style fuel (some c) (s.push (.literal c)) rest
        else .error fault
    | '\x7b', _ => readTokens style fuel (some c) s.open_ rest
    | '\x7d', _ =>
      match s.close? with
      | some s => readTokens style fuel (some c) s rest
      | none => .error .unopenedGroup
    | ',', _ => readTokens style fuel (some c) s.comma rest
    | '\\', escaped :: rest => readTokens style fuel (some escaped) (s.push (.literal escaped)) rest
    | '\\', [] => .error .danglingEscape
    | _, _ => readTokens style fuel (some c) (s.push (.literal c)) rest

def tokens (style : Style) (cs : List Char) : Except Fault (List Token) := do
  let s ← readTokens style (cs.length + 1) none ⟨[], {}⟩ cs
  if s.inGroup then throw .unclosedGroup
  return s.inner.current.reverse

/-! ## Matching -/

/-- Octets, each as a character of its own. -/
def ofOctets (octets : List UInt8) : List Char :=
  octets.map fun b => Char.ofNat b.toNat

/-- The octets of a text, each as a character of its own. -/
def octetChars (cs : List Char) : List Char :=
  ofOctets (Text.Utf8.encode cs)

def anyOctet : Regex.CharSet := .outside .nothing

def slash : Regex := .one (.single '/')

/-- Any number of octets. -/
def anything : Regex := .rep (.one anyOctet) 0 none

/-- A range of characters as a set of octets: the ends of the range meet at the last octet of the
first character and the first octet of the last one. -/
def rangeOctets (range : Char × Char) : List (Char × Char) :=
  let single (c : Char) : Char × Char := (c, c)
  let lo := octetChars [range.1]
  let hi := octetChars [range.2]
  if range.1 = range.2 then lo.map single
  else
    match lo.getLast?, hi with
    | some a, b :: rest => lo.dropLast.map single ++ (a, b) :: rest.map single
    | _, _ => []

mutual

/-- Whether a token stands for no text at all: a group without a branch that has anything. -/
def Token.isVoid : Token → Bool
  | .alternatives branches => allVoid branches
  | _ => false

def isVoidAll : List Token → Bool
  | [] => true
  | t :: rest => t.isVoid && isVoidAll rest

def allVoid : List (List Token) → Bool
  | [] => true
  | b :: rest => isVoidAll b && allVoid rest

end

mutual

/-- What a token matches.  Single wildcards stop at separators if `separated` holds. -/
def Token.regex (separated : Bool) : Token → Regex
  | .literal c => Regex.ofLiteral (octetChars [c])
  | .any => .one (if separated then .outside (.single '/') else anyOctet)
  | .star => .rep (.one (if separated then .outside (.single '/') else anyOctet)) 0 none
  | .anyStart => .alt (.rep slash 0 (some 1)) (.seq anything slash)
  | .anyEnd => .seq slash anything
  | .anyMiddle => .alt slash (.seq slash (.seq anything slash))
  | .oneOf negated ranges =>
    let set := Regex.CharSet.ofRanges (ranges.flatMap rangeOctets)
    .one (if negated then .outside set else set)
  | .alternatives branches => (branchesRegex? separated branches).getD .empty

def tokensRegex (separated : Bool) : List Token → Regex
  | [] => .empty
  | t :: rest => .seq (t.regex separated) (tokensRegex separated rest)

/-- The branches that stand for something, if there are any. -/
def branchesRegex? (separated : Bool) : List (List Token) → Option Regex
  | [] => none
  | b :: rest =>
    if isVoidAll b then branchesRegex? separated rest
    else
      match branchesRegex? separated rest with
      | some r => some (.alt (tokensRegex separated b) r)
      | none => some (tokensRegex separated b)

end

end Glob

/-- A glob that can be matched. -/
structure Glob where
  regex : Regex
deriving Repr

namespace Glob

/-- Read a glob. -/
def read (style : Style) (pattern : String) : Except Fault Glob := do
  match ← tokens style pattern.toList with
  | [.anyStart] => return { regex := anything }
  | ts => return { regex := tokensRegex style.separated ts }

/-- Whether the glob matches the whole of a text. -/
def fits (g : Glob) (text : RawText) : Bool :=
  let octets := (ofOctets text.octets).toArray
  (g.regex.ends octets [0]).contains octets.size

end Glob

end CodeAtlas
