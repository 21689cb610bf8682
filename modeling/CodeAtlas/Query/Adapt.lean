import CodeAtlas.Query.Reader
import CodeAtlas.Json.Value

/-! # Carrying queries from one language to another

Kinds that play the same part in two languages share a concept.  A query is carried over by
replacing the kinds after its round brackets and nothing else. -/

namespace CodeAtlas.Query

/-- The kinds that play one part, each with its language. -/
abbrev Concept := List (Language × String)

namespace Concept

/-- The concept with these kinds, the last one being for Go. -/
def ofKinds (python rust javascript typescript go : String) : Concept :=
  [(.python, python), (.rust, rust), (.javascript, javascript), (.typescript, typescript),
    (.go, go)]

def all : List Concept := [
  ofKinds "function_definition" "function_item" "function_declaration" "function_declaration"
    "function_declaration",
  ofKinds "class_definition" "struct_item" "class_declaration" "class_declaration" "type_spec",
  ofKinds "call" "call_expression" "call_expression" "call_expression" "call_expression",
  ofKinds "import_statement" "use_declaration" "import_statement" "import_statement"
    "import_declaration",
  ofKinds "string" "string_literal" "string" "string" "interpreted_string_literal",
  ofKinds "if_statement" "if_expression" "if_statement" "if_statement" "if_statement",
  ofKinds "for_statement" "for_expression" "for_statement" "for_statement" "for_statement",
  [(.python, "while_statement"), (.rust, "while_expression"), (.javascript, "while_statement"),
    (.typescript, "while_statement")],
  ofKinds "return_statement" "return_expression" "return_statement" "return_statement"
    "return_statement",
  ofKinds "block" "block" "statement_block" "statement_block" "block",
  ofKinds "parameters" "parameters" "formal_parameters" "formal_parameters" "parameter_list",
  ofKinds "argument_list" "arguments" "arguments" "arguments" "argument_list",
  ofKinds "comment" "line_comment" "comment" "comment" "comment",
  ofKinds "assignment" "assignment_expression" "assignment_expression" "assignment_expression"
    "assignment_statement",
  ofKinds "lambda" "closure_expression" "arrow_function" "arrow_function" "func_literal"]

/-- The language whose kinds a language uses for its concepts. -/
def base : Language → Language
  | .tsx => .typescript
  | language => language

def kind? (c : Concept) (language : Language) : Option String :=
  c.lookup (base language)

/-- The kind that plays the part in one language that a kind plays in another. -/
def mapKind? (kind : String) (source target : Language) : Option String :=
  all.findSome? fun c => if c.kind? source = some kind then c.kind? target else none

end Concept

/-! ## The names in a query -/

/-- A query in parts: the names after opening brackets, and every other character. -/
inductive Piece where
  | mark (c : Char)
  | name (cs : List Char)
deriving DecidableEq, Repr

/-- Where in a query a character stands. -/
inductive Scan where
  | code
  | string
  | escape
  | comment
  /-- After an opening bracket and blanks. -/
  | opened
  /-- In a name, whose characters are kept in reverse order. -/
  | naming (cs : List Char)

def isKindChar (c : Char) : Bool :=
  Text.Unicode.asciiAlphanumeric c || c = '_'

/-- What a character of code leads to. -/
def Scan.enter (c : Char) : Scan :=
  if c = '"' then .string else if c = ';' then .comment else if c = '(' then .opened else .code

def piecesFrom : Scan → List Char → List Piece
  | .naming cs, [] => [.name cs.reverse]
  | _, [] => []
  | .code, c :: rest => .mark c :: piecesFrom (.enter c) rest
  | .string, c :: rest =>
    .mark c :: piecesFrom (if c = '\\' then .escape else if c = '"' then .code else .string) rest
  | .escape, c :: rest => .mark c :: piecesFrom .string rest
  | .comment, c :: rest => .mark c :: piecesFrom (if c = '\n' then .code else .comment) rest
  | .opened, c :: rest =>
    if Text.Unicode.isBlank c then .mark c :: piecesFrom .opened rest
    else if isKindChar c then piecesFrom (.naming [c]) rest
    else .mark c :: piecesFrom (.enter c) rest
  | .naming cs, c :: rest =>
    if isKindChar c then piecesFrom (.naming (c :: cs)) rest
    else .name cs.reverse :: .mark c :: piecesFrom (.enter c) rest

def pieces (source : List Char) : List Piece :=
  piecesFrom .code source

/-- The names in a query that stand for kinds. -/
def kindNames (ps : List Piece) : List String :=
  ps.filterMap fun
    | .name cs => if cs = ['_'] then none else some (String.ofList cs)
    | .mark _ => none

/-- Each item once, in the order of first occurrence. -/
def firstOccurrences (items : List String) : List String :=
  items.foldl (fun seen s => if seen.contains s then seen else seen ++ [s]) []

/-- What stands for a name in the other language; a name without a counterpart stays. -/
def Piece.render (source target : Language) : Piece → List Char
  | mark c => [c]
  | name cs =>
    match Concept.mapKind? (String.ofList cs) source target with
    | some kind => kind.toList
    | none => cs

structure Adapted where
  source : Language
  target : Language
  query : String
  /-- The names that were replaced by others, with what replaced them. -/
  mapped : List (String × String)
  /-- The names without a counterpart that the target language does not know. -/
  unmapped : List String
  error : Option Error
deriving Repr

/-- Carry a query from one language to another. -/
def adapt (query : String) (source target : Language) : Adapted :=
  let ps := pieces query.toList
  let names := kindNames ps
  let carried := String.ofList (ps.flatMap (Piece.render source target))
  { source, target
    query := carried
    mapped := (firstOccurrences names).filterMap fun name =>
      match Concept.mapKind? name source target with
      | some kind => if kind = name then none else some (name, kind)
      | none => none
    unmapped := firstOccurrences <| names.filter fun name =>
      (Concept.mapKind? name source target).isNone && !target.hasKind name
    error := match Query.compile target carried with
      | .ok _ => none
      | .error e => some e }

def Adapted.toValue (a : Adapted) : Json.Value :=
  .object <| [
    ("from_language", .text a.source.id), ("to_language", .text a.target.id),
    ("query", .text a.query),
    ("mapped", .array (a.mapped.map fun (name, kind) =>
      .object [("from", .text name), ("to", .text kind)])),
    ("unmapped", .texts a.unmapped)] ++
    (a.error.map fun e => ("error", Json.Value.text e.message)).toList

end CodeAtlas.Query
