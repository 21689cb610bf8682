import CodeAtlas.Query.Reader

/-! # Queries for the uses of a name -/

namespace CodeAtlas.Query.Usage

/-- The kinds of node that may be a use of a name. -/
def kinds : List String :=
  ["identifier", "type_identifier", "field_identifier", "property_identifier",
    "shorthand_property_identifier"]

def isNameChar (c : Char) : Bool :=
  Text.Unicode.isAlphanumeric c || c = '_' || c = '$'

def isName (symbol : String) : Bool :=
  !symbol.isEmpty && symbol.toList.all isNameChar

/-- The kinds that occur in a language. -/
def kindsOf (language : Language) : List String :=
  kinds.filter language.vocabulary.named.contains

/-- The query for the nodes that use a name. -/
def source (language : Language) (symbol : String) : Except Error String :=
  if isName symbol then
    let choices := " ".intercalate ((kindsOf language).map fun kind => s!"({kind})")
    .ok s!"([{choices}] @usage (#eq? @usage \"{symbol}\"))"
  else .error (.invalidArgument s!"'{symbol}' is not an identifier")

end CodeAtlas.Query.Usage
