import CodeAtlas.Query.Reader
import CodeAtlas.Json.Value

/-! # Query templates

For each language there are queries for its functions, classes, imports, dependencies and calls.
Several of them can be joined into one query. -/

namespace CodeAtlas.Query

structure Template where
  language : Language
  name : String
  version : Nat := 1
  description : String
  source : String
deriving Repr

namespace Template

def functionsText : String := "Function and method definitions"

def classesText : String := "Class, struct and type definitions"

def importsText : String := "Import statements"

def dependenciesText : String := "Imported module names"

def callsText : String := "Call sites"

/-- The functions of a language with arrow functions. -/
def arrowFunctions : String := "
(function_declaration name: (identifier) @function.name) @function.def
(method_definition name: (property_identifier) @function.name) @function.def
(variable_declarator
  name: (identifier) @function.name
  value: [(arrow_function) (function_expression)]) @function.def
"

/-- Modules that are imported by a statement or required by a call. -/
def requiredModules : String := "
(import_statement source: (string) @module)
(call_expression
  function: (identifier) @_require
  arguments: (arguments (string) @module)
  (#eq? @_require \"require\"))
"

/-- Classes and what else declares a type of its own name. -/
def declaredTypes : String := "
(class_declaration name: (type_identifier) @class.name) @class.def
(interface_declaration name: (type_identifier) @class.name) @class.def
(enum_declaration name: (identifier) @class.name) @class.def
(type_alias_declaration name: (type_identifier) @class.name) @class.def
"

def memberCalls : String := "
(call_expression function: [(identifier) (member_expression)] @call.name) @call
"

def pythonModules : String := "
(import_statement name: (dotted_name) @module)
(import_statement name: (aliased_import name: (dotted_name) @module))
(import_from_statement module_name: (dotted_name) @module)
(import_from_statement module_name: (relative_import) @module)
"

def rustTypes : String := "
(struct_item name: (type_identifier) @class.name) @class.def
(enum_item name: (type_identifier) @class.name) @class.def
(trait_item name: (type_identifier) @class.name) @class.def
(type_item name: (type_identifier) @class.name) @class.def
"

def rustModules : String := "
(use_declaration argument: (_) @module)
(extern_crate_declaration name: (identifier) @module)
"

def rustCalls : String := "
(call_expression function: [(identifier) (field_expression) (scoped_identifier)] @call.name) @call
(macro_invocation macro: (identifier) @call.name) @call
"

def goFunctions : String := "
(function_declaration name: (identifier) @function.name) @function.def
(method_declaration name: (field_identifier) @function.name) @function.def
"

/-- The five templates of a language. -/
def five (language : Language) (functions classes imports dependencies calls : String) :
    List Template := [
  { language, name := "functions", description := functionsText, source := functions },
  { language, name := "classes", description := classesText, source := classes },
  { language, name := "imports", description := importsText, source := imports },
  { language, name := "dependencies", description := dependenciesText, source := dependencies },
  { language, name := "calls", description := callsText, source := calls }]

def ofLanguage : Language → List Template
  | .python => five .python
    "(function_definition name: (identifier) @function.name) @function.def"
    "(class_definition name: (identifier) @class.name) @class.def"
    "(import_statement) @import\n(import_from_statement) @import"
    pythonModules
    "(call function: [(identifier) (attribute)] @call.name) @call"
  | .rust => five .rust
    "(function_item name: (identifier) @function.name) @function.def"
    rustTypes
    "(use_declaration) @import\n(extern_crate_declaration) @import"
    rustModules rustCalls
  | .javascript => five .javascript
    arrowFunctions
    "(class_declaration name: (identifier) @class.name) @class.def"
    "(import_statement) @import"
    requiredModules memberCalls
  | .typescript => five .typescript
    arrowFunctions declaredTypes "(import_statement) @import" requiredModules memberCalls
  | .tsx => five .tsx
    arrowFunctions declaredTypes "(import_statement) @import" requiredModules memberCalls
  | .go => five .go
    goFunctions
    "(type_spec name: (type_identifier) @class.name) @class.def"
    "(import_declaration) @import"
    "(import_spec path: (interpreted_string_literal) @module)"
    "(call_expression function: [(identifier) (selector_expression)] @call.name) @call"

def find (language : Language) (name : String) : Except Error Template :=
  match (ofLanguage language).find? fun t => t.name = name with
  | some t => .ok t
  | none => .error (.templateNotFound language.id name)

def compile (t : Template) : Except Error Query :=
  Query.compile t.language t.source

/-- The query of the template with a name. -/
def query (language : Language) (name : String) : Except Error Query := do
  (← find language name).compile

/-- A template as a part of a longer query, under a comment with its name. -/
def part (t : Template) : String :=
  s!"; {t.name} v{t.version}\n" ++ t.source.strip

/-- The templates with the given names joined into one query, which must compile. -/
def join (language : Language) (names : List String) : Except Error String := do
  if names.isEmpty then
    throw (.invalidArgument "at least one template name is required")
  let templates ← names.mapM (find language)
  let source := "\n\n".intercalate (templates.map part)
  let _ ← Query.compile language source
  return source

def toValue (t : Template) : Json.Value :=
  .object [
    ("language", .text t.language.id), ("name", .text t.name), ("version", .nat t.version),
    ("description", .text t.description), ("source", .text t.source)]

end Template

end CodeAtlas.Query
