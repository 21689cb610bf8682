import CodeAtlas.Regex.Basic

/-! # Reading regular expressions

An expression is read in one pass.  Flags that are set inside a group hold to its end, also past a
bar.  In the verbose mode blanks and comments are passed over wherever a new item may begin. -/

namespace CodeAtlas.Regex

structure Flags where
  ignoreCase : Bool
  multiLine : Bool
  dotAll : Bool
  unicode : Bool
  anyNewline : Bool
  verbose : Bool
deriving DecidableEq, Repr

def Flags.plain (ignoreCase : Bool) : Flags :=
  ⟨ignoreCase, false, false, true, false, false⟩

/-- Pass over the blanks and comments of the verbose mode. -/
def skipVerbose : Bool → List Char → List Char
  | _, [] => []
  | inComment, c :: rest =>
    if inComment then skipVerbose (c ≠ '\n') rest
    else if Text.Unicode.isBlank c then skipVerbose false rest
    else if c = '#' then skipVerbose true rest
    else c :: rest

def Flags.space (f : Flags) (cs : List Char) : List Char :=
  if f.verbose then skipVerbose false cs else cs

def isMeta (c : Char) : Bool :=
  "\\.+*?()|[]\x7b\x7d^$#&-~".toList.contains c

/-- Characters that a backslash leaves as they are. -/
def escapable (c : Char) : Bool :=
  c.toNat < 128 && !Text.Unicode.asciiAlphanumeric c && c ≠ '<' && c ≠ '>'

def hexDigit? (c : Char) : Option Nat :=
  if '0' ≤ c && c ≤ '9' then some (c.toNat - 48)
  else if 'a' ≤ c && c ≤ 'f' then some (c.toNat - 87)
  else if 'A' ≤ c && c ≤ 'F' then some (c.toNat - 55)
  else none

def charOfCode? (n : Nat) : Option Char :=
  if n.isValidChar then some (Char.ofNat n) else none

/-- What stands for itself, for a set, or for a condition. -/
inductive Primitive where
  | literal (c : Char)
  | set (s : CharSet)
  | look (l : Look)

def hexFixed (f : Flags) : Nat → Nat → List Char → Option (Nat × List Char)
  | 0, n, cs => some (n, cs)
  | count + 1, n, cs =>
    match cs with
    | c :: rest => do
      let d ← hexDigit? c
      hexFixed f count (16 * n + d) (f.space rest)
    | [] => none

def hexBraced (f : Flags) : Nat → List Char → Option Nat → Option (Nat × List Char)
  | 0, _, _ => none
  | fuel + 1, cs, n =>
    match f.space cs with
    | '\x7d' :: rest => n.map (·, rest)
    | c :: rest => do
      let d ← hexDigit? c
      let m := 16 * n.getD 0 + d
      if m < Nat.pow 2 32 then hexBraced f fuel rest (some m) else none
    | [] => none

/-- The character after `x`, `u` or `U`, by its code in digits or in braces. -/
def readHex (f : Flags) (count : Nat) (cs : List Char) : Option (Primitive × List Char) := do
  let (n, rest) ← match f.space cs with
    | '\x7b' :: rest => hexBraced f (rest.length + 1) rest none
    | cs => do
      let (n, rest) ← hexFixed f count 0 cs
      -- Two digits outside of Unicode give an octet, which is not to be matched by itself.
      if count = 2 && !f.unicode && n ≥ 128 then none else some (n, rest)
  let c ← charOfCode? n
  some (.literal c, rest)

/-- The characters up to the closing brace. -/
def bracedName (f : Flags) : List Char → List Char → Option (List Char × List Char)
  | _, [] => none
  | done, c :: rest =>
    if c = '\x7d' then some (done.reverse, rest)
    else if f.verbose && Text.Unicode.isBlank c then bracedName f done rest
    else bracedName f (c :: done) rest

/-- Outside of Unicode only the basic letters have two cases. -/
def CharSet.fold (f : Flags) (s : CharSet) : CharSet :=
  if !f.ignoreCase then s
  else if f.unicode then .anyCase s
  else .either s (.both (.anyCase (.both s (.having .ascii))) (.having .ascii))

/-- Outside of Unicode a set is one of octets, and what is outside of it is not to be matched. -/
def CharSet.foldAndNegate? (f : Flags) (negated : Bool) (s : CharSet) : Option CharSet :=
  if !negated then some (s.fold f)
  else if f.unicode then some (.outside (s.fold f))
  else none

/-- The texts before and after the first place where a mark stands. -/
def cutAt (mark : List Char) : List Char → Option (List Char × List Char)
  | [] => none
  | c :: rest =>
    if mark.isPrefixOf (c :: rest) then some ([], (c :: rest).drop mark.length)
    else (cutAt mark rest).map fun (before, after) => (c :: before, after)

/-- The property that is written in braces, and whether to take the characters without it. -/
def propertyOf? (name : List Char) : Option (Property × Bool) :=
  match cutAt ['!', '='] name, cutAt [':'] name, cutAt ['='] name with
  | some (name, value), _, _ => (Property.ofValue? name value).map (·, true)
  | none, some (name, value), _ => (Property.ofValue? name value).map (·, false)
  | none, none, some (name, value) => (Property.ofValue? name value).map (·, false)
  | none, none, none => (Property.ofName? name).map (·, false)

def readProperty (f : Flags) (negated : Bool) (cs : List Char) :
    Option (Primitive × List Char) := do
  let (name, rest) ← match f.space cs with
    | '\x7b' :: rest => bracedName f [] rest
    | c :: rest => if c = '\\' then none else some ([c], rest)
    | [] => none
  let (p, without) ← propertyOf? name
  if !f.unicode then none
  let s ← CharSet.foldAndNegate? f (negated != without) (.having p)
  some (.set s, rest)

def perl (f : Flags) (negated : Bool) (wide narrow : Property) : Option Primitive :=
  if f.unicode then
    some (.set (if negated then .outside (.having wide) else .having wide))
  else if negated then none
  else some (.set (.having narrow))

/-- The special boundaries in braces after `b`.  Braces that cannot hold one are left alone. -/
def boundary (f : Flags) (cs : List Char) : Option (Primitive × List Char) :=
  match cs with
  | '\x7b' :: inner =>
    match f.space inner with
    | [] => none
    | c :: rest =>
      if Text.Unicode.asciiLetter c || c = '-' then do
        let (name, rest) ← bracedName f [] (c :: rest)
        let l ← [("start", Look.wordStart), ("end", .wordEnd), ("start-half", .wordStartHalf),
          ("end-half", .wordEndHalf)].lookup (String.ofList name)
        some (.look l, rest)
      else some (.look .wordBoundary, cs)
  | _ => some (.look .wordBoundary, cs)

/-- The escape after a backslash. -/
def readEscape (f : Flags) : List Char → Option (Primitive × List Char)
  | [] => none
  | c :: rest =>
    let plain (d : Char) := some (Primitive.literal d, rest)
    let look (l : Look) := some (Primitive.look l, rest)
    let klass (negated : Bool) (wide narrow : Property) :=
      (perl f negated wide narrow).map (·, rest)
    match c with
    | 'x' => readHex f 2 rest
    | 'u' => readHex f 4 rest
    | 'U' => readHex f 8 rest
    | 'p' => readProperty f false rest
    | 'P' => readProperty f true rest
    | 'd' => klass false .decimal .asciiDigit
    | 'D' => klass true .decimal .asciiDigit
    | 's' => klass false .blank .asciiBlank
    | 'S' => klass true .blank .asciiBlank
    | 'w' => klass false .word .asciiWord
    | 'W' => klass true .word .asciiWord
    | 'a' => plain '\x07'
    | 'f' => plain '\x0c'
    | 't' => plain '\t'
    | 'n' => plain '\n'
    | 'r' => plain '\r'
    | 'v' => plain '\x0b'
    | 'A' => look .textStart
    | 'z' => look .textEnd
    | 'b' => boundary f rest
    | 'B' => look .notWordBoundary
    | '<' => look .wordStart
    | '>' => look .wordEnd
    | c => if escapable c then plain c else none

/-- An operation between the sets of a bracketed class. -/
inductive SetOp where
  | both | minus | apart

def SetOp.apply (f : Flags) (op : SetOp) (a b : CharSet) : CharSet :=
  let a := a.fold f
  let b := b.fold f
  match op with
  | both => .both a b
  | minus => .minus a b
  | apart => .either (.minus a b) (.minus b a)

/-- A bracketed class that is still open: whether it is negated, what stands left of the last
operation, and the union of the items since. -/
structure OpenClass where
  negated : Bool
  left : Option (CharSet × SetOp)
  items : CharSet

def OpenClass.value (f : Flags) (k : OpenClass) : CharSet :=
  match k.left with
  | none => k.items
  | some (a, op) => op.apply f a k.items

def OpenClass.add (k : OpenClass) (s : CharSet) : OpenClass :=
  { k with items := .either k.items s }

def OpenClass.operate (f : Flags) (op : SetOp) (k : OpenClass) : OpenClass :=
  { k with left := some (k.value f, op), items := .nothing }

/-- Dashes at the start of a class stand for themselves. -/
def leadingDashes (f : Flags) : Nat → OpenClass → List Char → OpenClass × List Char
  | 0, k, cs => (k, cs)
  | fuel + 1, k, cs =>
    match cs with
    | '-' :: rest => leadingDashes f fuel (k.add (.single '-')) (f.space rest)
    | cs => (k, cs)

/-- Open a class after its bracket.  A closing bracket right at its start stands for itself. -/
def openClass (f : Flags) (cs : List Char) : OpenClass × List Char :=
  let (negated, cs) := match f.space cs with
    | '^' :: rest => (true, f.space rest)
    | cs => (false, cs)
  let (k, cs') := leadingDashes f cs.length ⟨negated, none, .nothing⟩ cs
  match cs' with
  | ']' :: rest =>
    if cs'.length = cs.length then (k.add (.single ']'), f.space rest) else (k, cs')
  | cs' => (k, cs')

/-- A class written by name between colons and brackets, after the outer bracket, and whether it is
negated. -/
def posixClass (cs : List Char) : Option (CharSet × Bool × List Char) :=
  match cs with
  | ':' :: rest =>
    let (negated, rest) := match rest with
      | '^' :: r => (true, r)
      | r => (false, r)
    let (name, rest) := rest.span (· ≠ ':')
    match rest with
    | ':' :: ']' :: rest =>
      (CharSet.posix? (String.ofList name)).map (·, negated, rest)
    | _ => none
  | _ => none

/-- Whether a character may be in a class: outside of Unicode only the basic ones may. -/
def Flags.holds (f : Flags) (c : Char) : Bool :=
  f.unicode || c.toNat < 128

def classItem (f : Flags) : List Char → Option (Primitive × List Char)
  | '\\' :: rest => readEscape f rest
  | c :: rest => some (.literal c, rest)
  | [] => none

/-- One item of a class: a range, a character or a set. -/
def classRange (f : Flags) (cs : List Char) : Option (CharSet × List Char) := do
  let (first, rest) ← classItem f cs
  let alone : Option (CharSet × List Char) := match first with
    | .literal c => if f.holds c then some (.single c, f.space rest) else none
    | .set s => some (s, f.space rest)
    | .look _ => none
  match f.space rest with
  | '-' :: more =>
    match f.space more with
    | ']' :: _ => alone
    | '-' :: _ => alone
    | more =>
      let (last, rest) ← classItem f more
      match first, last with
      | .literal lo, .literal hi =>
        if lo ≤ hi && f.holds hi then some (.range lo hi, rest) else none
      | _, _ => none
  | [] => none
  | _ => alone

/-- Read a class to the bracket that closes it, with the classes around it that are open. -/
def readClass (f : Flags) : Nat → List OpenClass → OpenClass → List Char →
    Option (CharSet × List Char)
  | 0, _, _, _ => none
  | fuel + 1, outer, k, cs =>
    match f.space cs with
    | [] => none
    | '[' :: rest =>
      match posixClass rest with
      | some (s, negated, rest) =>
        match s.foldAndNegate? f negated with
        | some s => readClass f fuel outer (k.add s) rest
        | none => none
      | none =>
        let (inner, rest) := openClass f rest
        readClass f fuel (k :: outer) inner rest
    | ']' :: rest =>
      match (k.value f).foldAndNegate? f k.negated, outer with
      | some s, [] => some (s, rest)
      | some s, k' :: outer => readClass f fuel outer (k'.add s) rest
      | none, _ => none
    | '&' :: '&' :: rest => readClass f fuel outer (k.operate f .both) rest
    | '-' :: '-' :: rest => readClass f fuel outer (k.operate f .minus) rest
    | '~' :: '~' :: rest => readClass f fuel outer (k.operate f .apart) rest
    | cs =>
      match classRange f cs with
      | some (s, rest) => readClass f fuel outer (k.add s) rest
      | none => none

/-- The digits at the front; in the verbose mode blanks may stand between them. -/
def countDigits (f : Flags) : Nat → List Char → List Char × List Char
  | 0, cs => ([], cs)
  | fuel + 1, cs =>
    match cs with
    | c :: rest =>
      if Text.Unicode.asciiDigit c then
        let (digits, rest) := countDigits f fuel (f.space rest)
        (c :: digits, rest)
      else ([], cs)
    | [] => ([], [])

/-- A number between blanks, below `2 ^ 32`. -/
def readCount (f : Flags) (cs : List Char) : Option (Option Nat × List Char) :=
  let (digits, rest) := countDigits f cs.length (cs.dropWhile Text.Unicode.isBlank)
  let rest := f.space (rest.dropWhile Text.Unicode.isBlank)
  let n := digits.foldl (fun n c => 10 * n + (c.toNat - 48)) 0
  if digits.isEmpty then some (none, rest)
  else if n < Nat.pow 2 32 then some (some n, rest)
  else none

/-- The counts of a repetition after the opening brace. -/
def readCounts (f : Flags) (cs : List Char) : Option ((Nat × Option Nat) × List Char) := do
  let (first, rest) ← readCount f (f.space cs)
  let min ← first
  match rest with
  | '\x7d' :: rest => some ((min, some min), rest)
  | ',' :: rest =>
    match f.space rest with
    | '\x7d' :: rest => some ((min, none), rest)
    | rest =>
      let (second, rest) ← readCount f rest
      let max ← second
      match rest with
      | '\x7d' :: rest => if min ≤ max then some ((min, some max), rest) else none
      | _ => none
  | _ => none

/-- Set one flag, on or off. -/
def Flags.set (f : Flags) (c : Char) (on : Bool) : Option Flags :=
  match c with
  | 'i' => some { f with ignoreCase := on }
  | 'm' => some { f with multiLine := on }
  | 's' => some { f with dotAll := on }
  | 'u' => some { f with unicode := on }
  | 'R' => some { f with anyNewline := on }
  | 'x' => some { f with verbose := on }
  | 'U' => some f
  | _ => none

/-- Read flags up to the character that ends them.  No flag may come twice, nor may the dash, which
needs a flag after it. -/
def readFlags : Flags → List Char → Bool → List Char → Option (Flags × Bool × Char × List Char)
  | _, _, _, [] => none
  | f, seen, on, c :: rest =>
    if c = ':' || c = ')' then
      if seen.head? = some '-' then none else some (f, seen.isEmpty, c, rest)
    else if seen.contains c then none
    else if c = '-' then readFlags f ('-' :: seen) false rest
    else match f.set c on with
      | some f => readFlags f (c :: seen) on rest
      | none => none

/-- A group's name up to the angle that ends it. -/
def groupName (cs : List Char) : Option (List Char × List Char) :=
  let (name, rest) := cs.span (· ≠ '>')
  let valid := match name with
    | [] => false
    | c :: more => (c = '_' || Text.Unicode.isAlphabetic c) &&
      more.all fun d => d = '_' || d = '.' || d = '[' || d = ']' || Text.Unicode.isAlphanumeric d
  match rest with
  | _ :: rest => if valid then some (name, rest) else none
  | [] => none

def Flags.literal (f : Flags) (c : Char) : Regex :=
  .one ((CharSet.single c).fold f)

/-- The dot may only be used where it matches whole characters. -/
def Flags.dot (f : Flags) : Option Regex :=
  if !f.unicode then none
  else if f.dotAll then some (.one (.having .any))
  else if f.anyNewline then some (.one (.outside (.either (.single '\n') (.single '\r'))))
  else some (.one (.outside (.single '\n')))

def Flags.lookup (f : Flags) (l : Look) : Regex :=
  .look l (if f.unicode then .word else .asciiWord)

def Flags.caret (f : Flags) : Regex :=
  f.lookup (if !f.multiLine then .textStart else if f.anyNewline then .lineStartAny else .lineStart)

def Flags.dollar (f : Flags) : Regex :=
  f.lookup (if !f.multiLine then .textEnd else if f.anyNewline then .lineEndAny else .lineEnd)

def Primitive.regex (f : Flags) : Primitive → Regex
  | literal c => f.literal c
  | set s => .one s
  | look l => f.lookup l

/-- What is read of a group so far: finished branches, and the items of the current one in reverse
order.  A directive that sets flags is an item that cannot be repeated, given as `none`. -/
structure Branches where
  done : List Regex
  items : List (Option Regex)

def Branches.close (b : Branches) : Regex :=
  let last := b.items.foldl (fun r item => match item with
    | some a => match r with
      | .empty => a
      | r => .seq a r
    | none => r) Regex.empty
  b.done.foldl (fun r a => .alt a r) last

def Branches.bar (b : Branches) : Branches :=
  ⟨(Branches.mk [] b.items).close :: b.done, []⟩

def Branches.add (b : Branches) (r : Regex) : Branches :=
  { b with items := some r :: b.items }

/-- Repeat the last item. -/
def Branches.repeatLast (b : Branches) (min : Nat) (max : Option Nat) : Option Branches :=
  match b.items with
  | some r :: rest => some { b with items := some (.rep r min max) :: rest }
  | _ => none

/-- A question mark after a repetition prefers the shorter match, which finds the same texts. -/
def skipLazy : List Char → List Char
  | '?' :: rest => rest
  | cs => cs

/-- Read to the end of a group, or of the text when no group is open. -/
def readBranches : Nat → Bool → Flags → List (List Char) → Branches → List Char →
    Option (Regex × List (List Char) × List Char)
  | 0, _, _, _, _, _ => none
  | fuel + 1, inGroup, f, names, b, cs =>
    let repeated (min : Nat) (max : Option Nat) (rest : List Char) :=
      match b.repeatLast min max with
      | some b => readBranches fuel inGroup f names b (skipLazy rest)
      | none => none
    let group (f' : Flags) (names : List (List Char)) (rest : List Char) :=
      match readBranches fuel true f' names ⟨[], []⟩ rest with
      | some (r, names, rest) => readBranches fuel inGroup f names (b.add r) rest
      | none => none
    let item (r : Regex) (rest : List Char) := readBranches fuel inGroup f names (b.add r) rest
    match f.space cs with
    | [] => if inGroup then none else some (b.close, names, [])
    | ')' :: rest => if inGroup then some (b.close, names, rest) else none
    | '|' :: rest => readBranches fuel inGroup f names b.bar rest
    | '(' :: rest =>
      match f.space rest with
      | '?' :: '=' :: _ => none
      | '?' :: '!' :: _ => none
      | '?' :: '<' :: '=' :: _ => none
      | '?' :: '<' :: '!' :: _ => none
      | '?' :: 'P' :: '<' :: rest => named f names group rest
      | '?' :: '<' :: rest => named f names group rest
      | '?' :: rest =>
        match readFlags f [] true rest with
        | some (f', noFlags, ')', rest) =>
          if noFlags then none
          else readBranches fuel inGroup f' names { b with items := none :: b.items } rest
        | some (f', _, _, rest) => group f' names rest
        | none => none
      | rest => group f names rest
    | '[' :: rest =>
      let (k, rest) := openClass f rest
      match readClass f (rest.length + 1) [] k rest with
      | some (s, rest) => item (.one s) rest
      | none => none
    | '?' :: rest => repeated 0 (some 1) rest
    | '*' :: rest => repeated 0 none rest
    | '+' :: rest => repeated 1 none rest
    | '\x7b' :: rest =>
      match readCounts f rest with
      | some ((min, max), rest) => repeated min max (f.space rest)
      | none => none
    | '\\' :: rest =>
      match readEscape f rest with
      | some (p, rest) => item (p.regex f) rest
      | none => none
    | '.' :: rest =>
      match f.dot with
      | some r => item r rest
      | none => none
    | '^' :: rest => item f.caret rest
    | '$' :: rest => item f.dollar rest
    | c :: rest => item (f.literal c) rest
where
  named (f : Flags) (names : List (List Char))
      (group : Flags → List (List Char) → List Char →
        Option (Regex × List (List Char) × List Char)) (rest : List Char) :
      Option (Regex × List (List Char) × List Char) :=
    match groupName rest with
    | some (name, rest) => if names.contains name then none else group f (name :: names) rest
    | none => none

/-- The octets of memory that a matcher may take. -/
def maxWeight : Nat := 10 * 1024 * 1024

/-- The octets that any matcher takes: three states to pass over what is before a match and two to
jump between them, two states that mark the ends of a match, and one to end at. -/
def frameWeight : Nat := 6 * 32 + 16

inductive Error where
  | illFormed
  | tooLarge
deriving DecidableEq, Repr

namespace Error

def message : Error → String
  | illFormed => "regex parse error"
  | tooLarge => s!"Compiled regex exceeds size limit of {maxWeight} bytes."

end Error

/-- An expression that is not too large. -/
def bounded (r : Regex) : Except Error Regex :=
  if r.weight + frameWeight ≤ maxWeight then .ok r else .error .tooLarge

def read (ignoreCase : Bool) (cs : List Char) : Except Error Regex :=
  match readBranches (cs.length + 1) false (.plain ignoreCase) [] ⟨[], []⟩ cs with
  | some (r, _, _) => bounded r
  | none => .error .illFormed

/-- Put a backslash before every character with a meaning of its own. -/
def quote (cs : List Char) : List Char :=
  cs.flatMap fun c => if isMeta c then ['\\', c] else [c]

end CodeAtlas.Regex
