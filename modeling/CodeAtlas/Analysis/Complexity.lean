import CodeAtlas.Analysis.Symbols
import CodeAtlas.Syntax.Traversal

/-! # Complexity

Every line of a document is blank, a line of comment or a line of code.  The rows of comments, the
decisions and the depth of nested constructs are gathered on one walk over the tree. -/

namespace CodeAtlas.Analysis

open Syntax (Node)

namespace Complexity

/-- The kinds of node that add a branch. -/
def decisionKinds : Language → List String
  | .python => ["if_statement", "elif_clause", "for_statement", "while_statement",
      "except_clause", "conditional_expression", "case_clause", "and", "or"]
  | .rust => ["if_expression", "match_arm", "for_expression", "while_expression",
      "loop_expression", "&&", "||", "?"]
  | .javascript | .typescript | .tsx => ["if_statement", "for_statement", "for_in_statement",
      "while_statement", "do_statement", "switch_case", "catch_clause", "ternary_expression",
      "&&", "||", "??"]
  | .go => ["if_statement", "for_statement", "expression_case", "type_case",
      "communication_case", "&&", "||"]

/-- The kinds of node that open a level. -/
def nestingKinds : Language → List String
  | .python => ["if_statement", "for_statement", "while_statement", "try_statement",
      "with_statement", "match_statement"]
  | .rust => ["if_expression", "match_expression", "for_expression", "while_expression",
      "loop_expression"]
  | .javascript | .typescript | .tsx => ["if_statement", "for_statement", "for_in_statement",
      "while_statement", "do_statement", "switch_statement", "try_statement"]
  | .go => ["if_statement", "for_statement", "expression_switch_statement",
      "type_switch_statement", "select_statement"]

def isComment (n : Node) : Bool :=
  ["comment", "line_comment", "block_comment"].contains n.kind

/-- Whether there is something else on the line before a comment starts. -/
def codeBefore (lines : List (List Char)) (n : Node) : Bool :=
  match lines[n.span.startRow]? with
  | some line =>
    match Text.Utf8.takeOctets? n.span.startColumn line with
    | some before => !Text.allBlank before
    | none => false
  | none => false

/-- The rows of a comment.  The one where it starts is not among them if code stands before. -/
def rowsOf (lines : List (List Char)) (n : Node) : List Nat :=
  let first := if codeBefore lines n then n.span.startRow + 1 else n.span.startRow
  List.range' first (n.span.endRow + 1 - first)

/-- Put a row into a falling list, unless it is there. -/
def insertRow (row : Nat) : List Nat → List Nat
  | [] => [row]
  | r :: rest =>
    if r < row then row :: r :: rest
    else if r = row then r :: rest
    else r :: insertRow row rest

/-- What is found out about a tree node by node. -/
structure Tally where
  decisions : Nat := 0
  maxNesting : Nat := 0
  /-- The rows of all comments, each once and the last one first. -/
  commentRows : List Nat := []
deriving DecidableEq, Repr

def Tally.add (language : Language) (lines : List (List Char)) (t : Tally) (n : Node)
    (level : Nat) : Tally where
  decisions :=
    if (decisionKinds language).contains n.kind then t.decisions + 1 else t.decisions
  maxNesting := max t.maxNesting level
  commentRows :=
    if isComment n then (rowsOf lines n).foldl (fun rows row => insertRow row rows) t.commentRows
    else t.commentRows

def tally? (language : Language) (lines : List (List Char)) (root : Node) : Option Tally :=
  Syntax.walk? (nestingKinds language) (Tally.add language lines) {} { node := root }

/-- The number of rows that are lines of the text and not blank. -/
def countFilled (lines : List (List Char)) (rows : List Nat) : Nat :=
  (rows.filter fun row => lines[row]?.any fun line => !Text.allBlank line).length

def countBlank (lines : List (List Char)) : Nat :=
  (lines.filter Text.allBlank).length

end Complexity

structure Complexity where
  path : String
  language : Language
  totalLines : Nat
  codeLines : Nat
  commentLines : Nat
  blankLines : Nat
  functionCount : Nat
  classCount : Nat
  /-- One more than there are decisions. -/
  cyclomatic : Nat
  maxNesting : Nat
  /-- The lines of all functions together. -/
  functionLines : Nat
  hasErrors : Bool
deriving DecidableEq, Repr, Inhabited

namespace Complexity

/-- The report on a document, unless a count leaves the machine word on the way. -/
def of? (d : Document) (symbols : Symbols) : Option Complexity := do
  let lines := Text.lines (Text.Utf8.decodeLossy d.source)
  let tally ← tally? d.language lines d.root
  let blank := countBlank lines
  let comment := countFilled lines tally.commentRows
  let filled ← Number.sub? lines.length blank
  let code ← Number.sub? filled comment
  return {
    path := d.displayPath
    language := d.language
    totalLines := lines.length
    codeLines := code
    commentLines := comment
    blankLines := blank
    functionCount := symbols.functions.length
    classCount := symbols.classes.length
    cyclomatic := 1 + tally.decisions
    maxNesting := tally.maxNesting
    functionLines := symbols.functions.foldr (fun s n => s.span.lineCount + n) 0
    hasErrors := d.hasErrors }

/-- What the report on a document comes to. -/
def of (d : Document) (symbols : Symbols) : Complexity :=
  (of? d symbols).getD default

/-- The lines of a function on average; without functions it is zero. -/
def averageFunctionLines (c : Complexity) : Number.Decimal :=
  if c.functionCount = 0 then .ofRatio 0 1 else .ofRatio c.functionLines c.functionCount

def toValue (c : Complexity) : Json.Value :=
  .object [
    ("path", .text c.path), ("language", .text c.language.id),
    ("total_lines", .nat c.totalLines), ("code_lines", .nat c.codeLines),
    ("comment_lines", .nat c.commentLines), ("blank_lines", .nat c.blankLines),
    ("function_count", .nat c.functionCount), ("class_count", .nat c.classCount),
    ("cyclomatic_complexity", .nat c.cyclomatic), ("max_nesting_depth", .nat c.maxNesting),
    ("avg_function_lines", .number (.real c.averageFunctionLines)),
    ("has_errors", .bool c.hasErrors)]

end Complexity

end CodeAtlas.Analysis
