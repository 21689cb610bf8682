import CodeAtlas.Error
import CodeAtlas.Json.Value
import CodeAtlas.Number.Unsigned
import CodeAtlas.Regex.Reader
import CodeAtlas.Text.Line

/-! # Search in texts

A search finds the lines of a text that have a match, each with the column of the first one and
with the lines around it.  Lines are numbered by words, and a search breaks off at a match where
the lines to be shown after it would end at a number that no word holds. -/

namespace CodeAtlas

namespace Search

structure Options where
  pattern : String
  useRegex : Bool := false
  caseSensitive : Bool := true
  wholeWord : Bool := false
  contextLines : Nat := 0
deriving DecidableEq, Repr

/-- The expression for a text as it is. -/
def literal (ignoreCase : Bool) (cs : List Char) : Regex :=
  cs.foldr (fun c r => .seq (Regex.Flags.literal (.plain ignoreCase) c) r) .empty

def wordBoundary : Regex :=
  .look .wordBoundary .word

/-- The expression with no word going on at either end. -/
def asWord (r : Regex) : Regex :=
  .seq wordBoundary (.seq r wordBoundary)

/-- The expression for a pattern.  A pattern that is an expression is read inside the marks for
word boundaries. -/
def expression (options : Options) : Except Regex.Error Regex :=
  let cs := options.pattern.toList
  let ignoreCase := !options.caseSensitive
  if options.useRegex then
    Regex.read ignoreCase <|
      if options.wholeWord then "\\b(?:".toList ++ cs ++ ")\\b".toList else cs
  else
    let r := literal ignoreCase cs
    Regex.bounded (if options.wholeWord then asWord r else r)

end Search

/-- A search that can be carried out. -/
structure Search where
  regex : Regex
  contextLines : Nat
deriving Repr

namespace Search

def of (options : Options) : Except Error Search :=
  if options.pattern.isEmpty then .error (.invalidPattern "empty search pattern")
  else
    match expression options with
    | .ok regex => .ok { regex, contextLines := options.contextLines }
    | .error e => .error (.invalidPattern e.message)

structure Match where
  path : String
  /-- Counted from one. -/
  line : Nat
  /-- Counted from one, in characters. -/
  column : Nat
  text : String
  before : List String
  after : List String
deriving DecidableEq, Repr

/-- The characters that are shown of a line. -/
def lineLimit : Nat := 300

def clip (line : List Char) : String :=
  String.ofList (Text.truncate lineLimit line).1

/-- What is told of a line that has a match, with the lines passed in reverse order.  The lines
shown after it end before the row `stop`, which need not be there, but has to have a number. -/
def describe? (search : Search) (path : String) (passed : List (List Char)) (row start : Nat)
    (line : List Char) (rest : List (List Char)) : Option Match := do
  let stop ← Number.add? (row + 1) search.contextLines
  return {
    path
    line := row + 1
    column := start + 1
    text := clip line
    before := ((passed.take search.contextLines).map clip).reverse
    after := (rest.take (stop - (row + 1))).map clip }

/-- Go through the lines, with the matches so far and the lines passed in reverse order. -/
def inLinesOnto (search : Search) (path : String) (done : List Match)
    (passed : List (List Char)) (row : Nat) : List (List Char) → Option (List Match)
  | [] => some done.reverse
  | line :: rest =>
    match search.regex.find? line with
    | some start =>
      match search.describe? path passed row start line rest with
      | some m => inLinesOnto search path (m :: done) (line :: passed) (row + 1) rest
      | none => none
    | none => inLinesOnto search path done (line :: passed) (row + 1) rest

/-- The matches in a text, one for each line that has any, unless the search breaks off. -/
def inText? (search : Search) (path : String) (text : List Char) : Option (List Match) :=
  inLinesOnto search path [] [] 0 (Text.lines text)

/-- The matches in a text, for a caller who takes a search that breaks off for one in vain.  Files
are searched by `inText?`, which tells the two apart. -/
def inText (search : Search) (path : String) (text : List Char) : List Match :=
  (search.inText? path text).getD []

def Match.toValue (m : Match) : Json.Value :=
  let around (name : String) (lines : List String) : List (String × Json.Value) :=
    if lines.isEmpty then [] else [(name, .texts lines)]
  .object <| [
    ("path", .text m.path), ("line", .nat m.line), ("column", .nat m.column),
    ("text", .text m.text)] ++ around "context_before" m.before ++ around "context_after" m.after

end Search

end CodeAtlas
