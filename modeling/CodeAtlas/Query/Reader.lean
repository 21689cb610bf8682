import CodeAtlas.Error
import CodeAtlas.Language.Basic
import CodeAtlas.Query.Basic
import CodeAtlas.Regex.Reader
import CodeAtlas.Text.Utf8

/-! # Reading queries

Kinds stand in round brackets or in quotes, fields before a colon, alternatives in square brackets
and predicates in brackets after a number sign.  Reading stops at the first fault and tells what is
left from there, so a fault does not depend on what stands after it. -/

namespace CodeAtlas.Query

/-! ## Words and blanks -/

def isSpace (c : Char) : Bool :=
  c = ' ' || ('\t' ≤ c && c ≤ '\r')

/-- Pass over blanks and over comments, which run to the end of the line. -/
def skipFrom (inComment : Bool) : List Char → List Char
  | [] => []
  | c :: rest =>
    if inComment then
      if c = '\x00' then c :: rest else skipFrom (c ≠ '\n') rest
    else if c = ';' then skipFrom true rest
    else if isSpace c then skipFrom false rest
    else c :: rest

def skipBlanks (cs : List Char) : List Char :=
  skipFrom false cs

def isWordStart (c : Char) : Bool :=
  Text.Unicode.asciiAlphanumeric c || c = '_' || c = '-'

def isWordChar (c : Char) : Bool :=
  isWordStart c || c = '.' || c = '?' || c = '!'

/-- The word that starts here, and what is left. -/
def word? : List Char → Option (String × List Char)
  | [] => none
  | c :: rest =>
    if isWordStart c then
      some (String.ofList (c :: rest.takeWhile isWordChar), rest.dropWhile isWordChar)
    else none

/-! ## Faults -/

inductive Fault where
  /-- Something other than what stands here should follow. -/
  | form
  /-- The name that stands here is not known. -/
  | name
deriving DecidableEq, Repr

/-- A fault and where it is, as the text that is left, or one octet before it. -/
structure Stop where
  fault : Fault
  rest : List Char
  before : Bool := false
deriving DecidableEq, Repr

def formFault {α : Type} (rest : List Char) : Except Stop α :=
  .error { fault := .form, rest }

def nameFault {α : Type} (rest : List Char) : Except Stop α :=
  .error { fault := .name, rest }

/-! ## Strings -/

def unescape (c : Char) : Char :=
  match c with
  | 'n' => '\n'
  | 'r' => '\r'
  | 't' => '\t'
  | '0' => '\x00'
  | c => c

/-- The text up to the closing quote, with what is read so far in reverse order. -/
def stringOnto (text : List Char) : List Char → Option (String × List Char)
  | [] => none
  | '"' :: rest => some (String.ofList text.reverse, rest)
  | '\n' :: _ => none
  | '\\' :: c :: rest => stringOnto (unescape c :: text) rest
  | c :: rest => stringOnto (c :: text) rest

/-- The string whose opening quote was at the head of `whole`. -/
def readString (whole rest : List Char) : Except Stop (String × List Char) :=
  match stringOnto [] rest with
  | some found => .ok found
  | none => formFault whole

/-! ## Predicates as written -/

inductive Argument where
  | capture (name : String)
  | literal (text : String)
deriving DecidableEq, Repr

structure Call where
  name : String
  arguments : List Argument
deriving DecidableEq, Repr

/-- What is left to read, the captures named so far, and the calls of the current clause. -/
structure Progress where
  rest : List Char
  names : List String
  calls : List Call

def Progress.to (p : Progress) (rest : List Char) : Progress :=
  { p with rest }

def Progress.skip (p : Progress) : Progress :=
  { p with rest := skipBlanks p.rest }

def readArguments (names : List String) (arguments : List Argument) :
    Nat → List Char → Except Stop (List Argument × List Char)
  | 0, cs => formFault cs
  | fuel + 1, cs =>
    match cs with
    | ')' :: rest => .ok (arguments.reverse, skipBlanks rest)
    | '@' :: rest =>
      match word? rest with
      | some (name, rest') =>
        if names.contains name then
          readArguments names (.capture name :: arguments) fuel (skipBlanks rest')
        else nameFault rest
      | none => formFault rest
    | '"' :: rest => do
      let (text, rest) ← readString cs rest
      readArguments names (.literal text :: arguments) fuel (skipBlanks rest)
    | _ =>
      match word? cs with
      | some (text, rest) =>
        readArguments names (.literal text :: arguments) fuel (skipBlanks rest)
      | none => formFault cs

/-- A call whose name starts here, up to its closing bracket. -/
def readCall (p : Progress) : Except Stop Progress :=
  match word? p.rest with
  | some (name, rest) => do
    let (arguments, rest) ←
      readArguments p.names [] (rest.length + 1) (skipBlanks rest)
    return { p with rest, calls := p.calls ++ [⟨name, arguments⟩] }
  | none => formFault p.rest

/-! ## Patterns -/

/-- No more names are kept for one node. -/
def captureLimit : Nat := 3

/-- No more fields are kept that a node must lack. -/
def absentLimit : Nat := 8

def Head.capture (name : String) (h : Head) : Head :=
  if h.captures.length < captureLimit then { h with captures := h.captures ++ [name] } else h

def Head.inField (name : String) (h : Head) : Head :=
  { h with field := some name }

/-- Whether a word is a beginning of the name for what the source lacks. -/
def namesMissing (name : String) : Bool :=
  name.toList.isPrefixOf "MISSING".toList

/-- The test for a kind in round brackets. -/
def namedTest? (language : Language) (name : String) : Option Test :=
  if Language.namesError name then some (.kind "ERROR" true)
  else if language.vocabulary.named.contains name then some (.kind name true)
  else if language.vocabulary.supertypes.contains name then some (.family name)
  else none

/-- The kind that a missing node is to have, after the word for missing nodes. -/
def readMissing (language : Language) (cs : List Char) : Except Stop (Test × List Char) :=
  match cs with
  | ')' :: _ => .ok (.missing none, cs)
  | '"' :: rest => do
    let (kind, rest') ← readString cs rest
    if language.hasAnonymousKind kind then .ok (.missing (some (kind, false)), rest')
    else nameFault rest
  | _ =>
    match word? cs with
    | some (kind, rest) =>
      match namedTest? language kind with
      | some (.kind kind _) => .ok (.missing (some (kind, true)), rest)
      | some test => .ok (test, rest)
      | none => nameFault cs
    | none => formFault cs

/-- A kind after the family that it belongs to. -/
def readMember (language : Language) (start : List Char) (test : Test) (cs : List Char) :
    Except Stop (Test × List Char) :=
  match cs with
  | '/' :: rest =>
    match test with
    | .family _ =>
      match word? rest with
      | some (kind, rest') =>
        if (namedTest? language kind).isSome then .ok (test, rest') else nameFault rest
      | none => formFault rest
    | _ => .error { fault := .form, rest := start, before := true }
  | _ => .ok (test, cs)

/-- The test that stands after an opening round bracket. -/
def readTest (language : Language) (cs : List Char) : Except Stop (Test × List Char) :=
  match word? cs with
  | some (name, rest) =>
    if name = "_" then readMember language cs .anyNamed rest
    else if namesMissing name then do
      let (test, rest) ← readMissing language (skipBlanks rest)
      readMember language cs test rest
    else
      match namedTest? language name with
      | some test => readMember language cs test rest
      | none => nameFault cs
  | none => formFault cs

/-- Quantifiers and captures after a pattern. -/
def readSuffixes : Nat → Pattern → Progress → Except Stop (Pattern × Progress)
  | 0, pattern, p => .ok (pattern, p)
  | fuel + 1, pattern, p =>
    match p.rest with
    | '+' :: rest => readSuffixes fuel (.plus pattern) (p.to (skipBlanks rest))
    | '*' :: rest => readSuffixes fuel (.star pattern) (p.to (skipBlanks rest))
    | '?' :: rest => readSuffixes fuel (.optional pattern) (p.to (skipBlanks rest))
    | '@' :: rest =>
      match word? rest with
      | some (name, rest) =>
        readSuffixes fuel (pattern.mapFirst (Head.capture name)) {
          p with
          rest := skipBlanks rest
          names := if p.names.contains name then p.names else p.names ++ [name] }
      | none => formFault rest
    | _ => .ok (pattern, p)

def withSuffixes (pattern : Pattern) (p : Progress) : Except Stop (Option Pattern × Progress) := do
  let p := p.skip
  let (pattern, p) ← readSuffixes (p.rest.length + 1) pattern p
  return (some pattern, p)

mutual

/-- A pattern with what follows it, or a call, which gives no pattern. -/
def readPattern (language : Language) :
    Nat → Progress → Except Stop (Option Pattern × Progress)
  | 0, p => formFault p.rest
  | fuel + 1, p =>
    match p.rest with
    | '[' :: rest => do
      let (patterns, p) ← readChoices language fuel [] false (p.to (skipBlanks rest))
      withSuffixes (.choice patterns) p
    | '(' :: rest =>
      let p := p.to (skipBlanks rest)
      match p.rest with
      | '(' :: _ | '"' :: _ | '[' :: _ => do
        let (items, p) ← readGroup language fuel [] p
        withSuffixes (.group items) p
      | '.' :: rest | '#' :: rest => do
        let p ← readCall (p.to rest)
        return (none, p)
      | _ => do
        let (test, rest) ← readTest language p.rest
        let (pattern, p) ← readItems language fuel { test } [] (p.to (skipBlanks rest))
        withSuffixes pattern p
    | '_' :: rest => withSuffixes (.node { test := .any } [] false) (p.to rest)
    | '"' :: rest => do
      let (kind, rest') ← readString p.rest rest
      if language.hasAnonymousKind kind then
        withSuffixes (.node { test := .kind kind false } [] false) (p.to rest')
      else nameFault rest
    | _ =>
      match word? p.rest with
      | some (field, rest) =>
        match skipBlanks rest with
        | ':' :: rest => do
          let (pattern, p') ← readPattern language fuel (p.to (skipBlanks rest))
          if language.hasField field then
            match pattern with
            | some pattern => withSuffixes (pattern.mapFirst (Head.inField field)) p'
            | none => return (none, p')
          else nameFault p.rest
        | _ => formFault p.rest
      | none => formFault p.rest

/-- Alternatives up to the closing bracket, of which there must be at least one. -/
def readChoices (language : Language) :
    Nat → List Pattern → Bool → Progress → Except Stop (List Pattern × Progress)
  | 0, _, _, p => formFault p.rest
  | fuel + 1, patterns, some?, p =>
    match p.rest with
    | ']' :: rest =>
      if some? then .ok (patterns.reverse, p.to rest) else formFault p.rest
    | _ => do
      let (pattern, p) ← readPattern language fuel p
      readChoices language fuel (pattern.toList ++ patterns) true p

/-- Siblings up to the closing bracket, with an anchor before some of them. -/
def readGroup (language : Language) :
    Nat → List (Bool × Pattern) → Progress → Except Stop (List (Bool × Pattern) × Progress)
  | 0, _, p => formFault p.rest
  | fuel + 1, items, p => do
    let (anchored, p) := match p.rest with
      | '.' :: rest => (true, p.to (skipBlanks rest))
      | _ => (false, p)
    match p.rest with
    | ')' :: rest => .ok (items.reverse, p.to rest)
    | _ =>
      let (pattern, p) ← readPattern language fuel p
      readGroup language fuel ((pattern.toList.map fun q => (anchored, q)) ++ items) p

/-- What is asked of the children of a node, up to the closing bracket. -/
def readItems (language : Language) :
    Nat → Head → List (Bool × Pattern) → Progress → Except Stop (Pattern × Progress)
  | 0, _, _, p => formFault p.rest
  | fuel + 1, head, items, p =>
    match p.rest with
    | '!' :: rest =>
      let rest := skipBlanks rest
      match word? rest with
      | some (field, rest') =>
        if language.hasField field then
          let absent := if head.absent.length < absentLimit then head.absent ++ [field]
            else head.absent
          readItems language fuel { head with absent } items (p.to (skipBlanks rest'))
        else nameFault rest
      | none => formFault rest
    | _ => do
      let (anchored, p) := match p.rest with
        | '.' :: rest => (true, p.to (skipBlanks rest))
        | _ => (false, p)
      match p.rest with
      | ')' :: rest =>
        if anchored && items.isEmpty then formFault p.rest
        else .ok (.node head items.reverse anchored, p.to rest)
      | _ =>
        let (pattern, p) ← readPattern language fuel p
        readItems language fuel head ((pattern.toList.map fun q => (anchored, q)) ++ items) p

end

/-! ## Predicates -/

/-- A literal is shown in quotes and a capture with its mark. -/
def firstLiteral (family text : String) : String :=
  s!"First argument to #{family}? predicate must be a capture name. Got literal \"{text}\"."

def wrongCount (family expected : String) (n : Nat) : String :=
  s!"Wrong number of arguments to {family} predicate. Expected {expected}, got {n}."

/-- A property has a key, perhaps a value, and perhaps a capture, in any order.  Its parts have no
bearing on matching. -/
def checkProperty (family : String) :
    Option String → Option String → Option String → List Argument → Except String Unit
  | _, some _, _, [] => .ok ()
  | _, none, _, [] => .error s!"Invalid arguments to {family} predicate. Missing key argument"
  | some _, _, _, .capture name :: _ =>
    .error s!"Invalid arguments to {family} predicate. Unexpected second capture name @{name}"
  | none, key, value, .capture name :: rest => checkProperty family (some name) key value rest
  | capture, none, value, .literal text :: rest =>
    checkProperty family capture (some text) value rest
  | capture, some key, none, .literal text :: rest =>
    checkProperty family capture (some key) (some text) rest
  | _, some _, some _, .literal text :: _ =>
    .error s!"Invalid arguments to {family} predicate. Unexpected third argument @{text}"

def literalsOnly : List Argument → Except String (List String)
  | [] => .ok []
  | .literal text :: rest => (literalsOnly rest).map (text :: ·)
  | .capture name :: _ =>
    .error s!"Arguments to #any-of? predicate must be literals. Got capture @{name}."

def equality (mode : Mode) : List Argument → Except String (Option Predicate)
  | [.capture a, .capture b] => .ok (some (.sameText mode a b))
  | [.capture a, .literal text] => .ok (some (.hasText mode a text))
  | [.literal text, _] => .error (firstLiteral "eq" text)
  | arguments => .error (wrongCount "#eq?" "2" arguments.length)

def matching (mode : Mode) : List Argument → Except String (Option Predicate)
  | [.capture a, .literal text] =>
    match Regex.read false text.toList with
    | .ok regex => .ok (some (.fits mode a regex))
    | .error _ => .error s!"Invalid regex '{text}'"
  | [.capture _, .capture b] =>
    .error s!"Second argument to #match? predicate must be a literal. Got capture @{b}."
  | [.literal text, _] => .error (firstLiteral "match" text)
  | arguments => .error (wrongCount "#match?" "2" arguments.length)

def membership (positive : Bool) : List Argument → Except String (Option Predicate)
  | [] => .error (wrongCount "#any-of?" "at least 1" 0)
  | .literal text :: _ => .error (firstLiteral "any-of" text)
  | .capture a :: rest => do
    let texts ← literalsOnly rest
    return some (.oneOf positive a texts)

def property (family : String) (arguments : List Argument) :
    Except String (Option Predicate) := do
  if arguments.isEmpty || arguments.length > 3 then
    throw (wrongCount family "1 to 3" arguments.length)
  checkProperty family none none none arguments
  return none

/-- What a call asks of the texts of nodes, if it is about them. -/
def Call.predicate (call : Call) : Except String (Option Predicate) :=
  match call.name with
  | "eq?" => equality ⟨true, true⟩ call.arguments
  | "not-eq?" => equality ⟨false, true⟩ call.arguments
  | "any-eq?" => equality ⟨true, false⟩ call.arguments
  | "any-not-eq?" => equality ⟨false, false⟩ call.arguments
  | "match?" => matching ⟨true, true⟩ call.arguments
  | "not-match?" => matching ⟨false, true⟩ call.arguments
  | "any-match?" => matching ⟨true, false⟩ call.arguments
  | "any-not-match?" => matching ⟨false, false⟩ call.arguments
  | "any-of?" => membership true call.arguments
  | "not-any-of?" => membership false call.arguments
  | "set!" | "is?" | "is-not?" => property call.name call.arguments
  | _ => .ok none

/-! ## Whole queries -/

/-- A clause as read, with what was left before it. -/
structure Draft where
  start : List Char
  pattern : Option Pattern
  calls : List Call

def readDrafts (language : Language) :
    Nat → List Draft → Progress → Except Stop (List Draft × List String)
  | 0, _, p => formFault p.rest
  | fuel + 1, drafts, p =>
    if p.rest.isEmpty then .ok (drafts.reverse, p.names)
    else do
      let (pattern, p') ← readPattern language (2 * p.rest.length + 2) p
      readDrafts language fuel (⟨p.rest, pattern, p'.calls⟩ :: drafts) { p' with calls := [] }

/-- The line that holds the offset, with the offset of its start and its number.  A line takes its
length and one octet more. -/
def locate (offset : Nat) : Nat → Nat → List (List Char) → Nat × Nat × Option (List Char)
  | start, row, [] => (start, row, none)
  | start, row, line :: rest =>
    let stop := start + Text.Utf8.size line + 1
    if stop > offset then (start, row, some line) else locate offset stop (row + 1) rest

/-- The name at a fault: in quotes up to the closing one, else as far as letters, digits, dashes
and low lines go. -/
def nameAt (quoted : Bool) (cs : List Char) : List Char :=
  if quoted then go 0 cs
  else cs.takeWhile fun c => Text.Unicode.isAlphanumeric c || c = '_' || c = '-'
where
  go (backslashes : Nat) : List Char → List Char
    | [] => []
    | c :: rest =>
      if c = '"' && backslashes % 2 = 0 then []
      else c :: go (if c = '\\' then backslashes + 1 else 0) rest

def Stop.error (source : List Char) (stop : Stop) : Error :=
  let offset := Text.Utf8.size source - Text.Utf8.size stop.rest - stop.before.toNat
  let (start, row, line) := locate offset 0 0 (Text.lines source)
  let column := offset - start
  let message := match stop.fault with
    | .name =>
      let before := source.take (source.length - stop.rest.length)
      String.ofList (nameAt (before.getLast? = some '"') stop.rest)
    | .form =>
      match line with
      | some line =>
        String.ofList (line ++ '\n' :: (List.replicate column ' ' ++ ['^']))
      | none => "Unexpected EOF"
  .query offset row column message

/-- The predicates of a clause; a fault is told with the row of the clause alone. -/
def Draft.clause (source : List Char) (d : Draft) : Except Error Clause :=
  match d.calls.mapM Call.predicate with
  | .ok predicates => .ok { pattern := d.pattern, predicates := predicates.filterMap id }
  | .error message =>
    let row := source.count '\n' - d.start.count '\n'
    .error (.query 0 row 0 message)

end Query

/-- Read a query on trees of a language.  A pattern that no tree of the language can have is read
like any other: which these are, only the tables of its grammar tell. -/
def Query.compile (language : Language) (source : String) : Except Error Query :=
  let cs := source.toList
  match readDrafts language (cs.length + 1) [] ⟨skipBlanks cs, [], []⟩ with
  | .error stop => .error (stop.error cs)
  | .ok (drafts, captures) => do
    let clauses ← drafts.mapM (Draft.clause cs)
    return { clauses, captures }

end CodeAtlas
