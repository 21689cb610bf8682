import CodeAtlas.Json.Value

/-! # Tables under construction

A document is built by statements that open tables by header and put values by dotted key.  How a
table came to be decides what may still be added to it, so every table remembers that. -/

namespace CodeAtlas.Toml

/-- How a table came to be: by a header of its own, as a part of a longer header, or as a part of
a dotted key. -/
inductive Origin where
  | header
  | implied
  | dotted
deriving DecidableEq, Repr

inductive Item where
  | leaf (v : Json.Value)
  | table (origin : Origin) (entries : List (String × Item))
  | tables (elements : List (List (String × Item)))

abbrev Entries := List (String × Item)

/-- Replace the entry of a name, or put it last. -/
def Entries.put (es : Entries) (name : String) (item : Item) : Entries :=
  if es.any fun (k, _) => k = name then es.map fun (k, i) => if k = name then (k, item) else (k, i)
  else es ++ [(name, item)]

/-- Change the table at the end of a path.  Missing tables are made on the way; the last element
stands for an array of tables; and a dotted key does not enter a table that has a header. -/
def change (dotted : Bool) (act : Origin → Entries → Option Entries) :
    List String → Origin → Entries → Option Entries
  | [], origin, es => act origin es
  | name :: path, _, es =>
    match es.lookup name with
    | none =>
      let origin := if dotted then Origin.dotted else .implied
      (change dotted act path origin []).map fun inner => es.put name (.table origin inner)
    | some (.leaf _) => none
    | some (.tables elements) =>
      (change dotted act path .header (elements.getLast?.getD [])).map fun inner =>
        es.put name (.tables (elements.dropLast ++ [inner]))
    | some (.table origin inner) =>
      if dotted && origin = .header then none
      else (change dotted act path origin inner).map fun inner =>
        es.put name (.table origin inner)

/-- Put a value under a dotted key, of which all but the last name lead to the table.  A plain key
may not be put into a table made by dotted keys, nor the other way round. -/
def putValue (path : List String) (name : String) (v : Item) (origin : Origin) (es : Entries) :
    Option Entries :=
  change true (fun origin es =>
    if (origin = .dotted) = path.isEmpty then none
    else if (es.lookup name).isSome then none
    else some (es ++ [(name, v)])) path origin es

/-- Open a table by its header. -/
def openTable (path : List String) (name : String) (es : Entries) : Option Entries :=
  change false (fun _ es =>
    match es.lookup name with
    | none => some (es ++ [(name, .table .header [])])
    | some (.table .implied inner) => some (es.put name (.table .header inner))
    | _ => none) path .header es

/-- Open a further element of an array of tables. -/
def openElement (path : List String) (name : String) (es : Entries) : Option Entries :=
  change false (fun _ es =>
    match es.lookup name with
    | none => some (es ++ [(name, .tables [[]])])
    | some (.tables elements) => some (es.put name (.tables (elements ++ [[]])))
    | _ => none) path .header es

mutual

def Item.value : Item → Json.Value
  | .leaf v => v
  | .table _ es => .object (entryValues es)
  | .tables elements => .array (elementValues elements)

def entryValues : List (String × Item) → List (String × Json.Value)
  | [] => []
  | (name, item) :: rest => (name, item.value) :: entryValues rest

def elementValues : List (List (String × Item)) → List Json.Value
  | [] => []
  | es :: rest => .object (entryValues es) :: elementValues rest

end

end CodeAtlas.Toml
