import CodeAtlas.Files.Path
import CodeAtlas.Language.Vocabulary
import CodeAtlas.Text.Unicode.Case

/-! # Languages

A language is named by its identifier or an alias of it, or found from the extension of a file. -/

namespace CodeAtlas

inductive Language where
  | go
  | javascript
  | python
  | rust
  | tsx
  | typescript
deriving DecidableEq, Repr, Inhabited

namespace Language

/-- All languages, in the order of their identifiers. -/
def all : List Language :=
  [go, javascript, python, rust, tsx, typescript]

def id : Language → String
  | go => "go"
  | javascript => "javascript"
  | python => "python"
  | rust => "rust"
  | tsx => "tsx"
  | typescript => "typescript"

def ofId? (s : String) : Option Language :=
  all.find? fun language => language.id = s

/-- The identifier that a name stands for: blanks around it and the case of its letters carry no
meaning, and common short names stand for the full one. -/
def normalize (name : String) : String :=
  let name := Text.Unicode.lowercase name.strip
  if ["py", "python3"].contains name then "python"
  else if name = "rs" then "rust"
  else if ["js", "jsx", "node"].contains name then "javascript"
  else if name = "ts" then "typescript"
  else if name = "golang" then "go"
  else name

def ofExtension? : String → Option Language
  | "rs" => some rust
  | "py" | "pyi" => some python
  | "js" | "jsx" | "mjs" | "cjs" => some javascript
  | "ts" | "mts" | "cts" => some typescript
  | "tsx" => some tsx
  | "go" => some go
  | _ => none

def ofPath? (path : Path) : Option Language :=
  (path.extension?.bind RawText.text?).bind ofExtension?

def vocabulary : Language → Vocabulary
  | go => .go
  | javascript => .javascript
  | python => .python
  | rust => .rust
  | tsx => .tsx
  | typescript => .typescript

/-- A name of a defective stretch of source: every beginning of the full name counts. -/
def namesError (kind : String) : Bool :=
  kind.toList.isPrefixOf "ERROR".toList

/-- A kind that a query may name in round brackets. -/
def hasNamedKind (language : Language) (kind : String) : Bool :=
  language.vocabulary.named.contains kind || language.vocabulary.supertypes.contains kind

/-- A kind that a query may name in quotes. -/
def hasAnonymousKind (language : Language) (kind : String) : Bool :=
  language.vocabulary.anonymous.contains kind

def hasKind (language : Language) (kind : String) : Bool :=
  namesError kind || language.hasNamedKind kind || language.hasAnonymousKind kind

def hasField (language : Language) (name : String) : Bool :=
  language.vocabulary.fields.contains name

end Language

end CodeAtlas
