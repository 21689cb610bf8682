import CodeAtlas.Json.Printer
import CodeAtlas.Number.Unsigned
import CodeAtlas.Text.Quoted

/-! # Arguments

The parameters of a tool say what its arguments look like.  They determine both how arguments are
read and the type of what is read: `Arguments ps` is the product of what each parameter means.

Arguments may be given by name, in an object, or in order, in an array.  By name, the first
argument of a wrong kind is told before any that is missing. -/

namespace CodeAtlas.Server

/-! ## Shapes -/

/-- The kinds of argument. -/
inductive Shape where
  | text
  | count
  | flag
  | texts
  | fraction
  /-- An argument that may be left out or null. -/
  | optional (s : Shape)
deriving DecidableEq, Repr

namespace Shape

def Meaning : Shape → Type
  | text => String
  | count => Nat
  | flag => Bool
  | texts => List String
  | fraction => Number.Decimal
  | optional s => Option s.Meaning

/-- What a leaving out means, if the shape gives it a meaning. -/
def absent? : (s : Shape) → Option s.Meaning
  | optional _ => some none
  | text | count | flag | texts | fraction => none

/-- What a message says was expected. -/
def expected : Shape → String
  | text => "a string"
  | count => "usize"
  | flag => "a boolean"
  | texts => "a sequence"
  | fraction => "f64"
  | optional s => s.expected

end Shape

/-! ## Faults -/

inductive ArgumentFault where
  | wrongKind (found : Json.Value) (expected : String)
  | negative (found : Json.Number) (expected : String)
  | missing (name : String)
  /-- Given in order, and fewer than the record has. -/
  | tooFew (given : Nat) (record : String) (size : Nat)
  | tooMany (given : Nat)

namespace ArgumentFault

/-- What a message says was found. -/
def found : Json.Value → String
  | .null => "null"
  | .bool b => s!"boolean `{b}`"
  | .number (.real d) => s!"floating point `{d.render}`"
  | .number n => s!"integer `{n.render}`"
  | .text s => "string " ++ Text.quoted s
  | .array _ => "sequence"
  | .object _ => "map"

def message : ArgumentFault → String
  | wrongKind v expected => s!"invalid type: {found v}, expected {expected}"
  | negative n expected => s!"invalid value: {found (.number n)}, expected {expected}"
  | missing name => s!"missing field `{name}`"
  | tooFew given record size =>
    let elements := if size = 1 then "element" else "elements"
    s!"invalid length {given}, expected struct {record} with {size} {elements}"
  | tooMany given => s!"invalid length {given}, expected fewer elements in array"

end ArgumentFault

/-! ## Reading one argument -/

/-- The decimal fraction nearest to a number. -/
def decimalOf : Json.Number → Number.Decimal
  | .nat n => .ofRatio n 1
  | .negative n => { Number.Decimal.ofRatio (n + 1) 1 with negative := true }
  | .real d => d

def readText : Json.Value → Except ArgumentFault String
  | .text s => .ok s
  | v => .error (.wrongKind v Shape.text.expected)

def readTexts : List Json.Value → Except ArgumentFault (List String)
  | [] => .ok []
  | v :: rest => do return (← readText v) :: (← readTexts rest)

def Shape.read : (s : Shape) → Json.Value → Except ArgumentFault s.Meaning
  | text, v => readText v
  | count, .number (.nat n) => .ok n
  | count, .number (.negative n) => .error (.negative (.negative n) Shape.count.expected)
  | count, v => .error (.wrongKind v Shape.count.expected)
  | flag, .bool b => .ok b
  | flag, v => .error (.wrongKind v Shape.flag.expected)
  | texts, .array items => readTexts items
  | texts, v => .error (.wrongKind v Shape.texts.expected)
  | fraction, .number n => .ok (decimalOf n)
  | fraction, v => .error (.wrongKind v Shape.fraction.expected)
  | optional _, .null => .ok none
  | optional s, v => (s.read v).map some

/-! ## Parameters -/

structure Parameter where
  name : String
  description : String
  shape : Shape
  /-- What is taken for an argument that is left out. -/
  default : Option shape.Meaning := none

/-- What one argument for each parameter means. -/
def Arguments : List Parameter → Type
  | [] => Unit
  | p :: ps => p.shape.Meaning × Arguments ps

namespace Parameter

/-- What it means to leave out the argument by name. -/
def absent? (p : Parameter) : Option p.shape.Meaning :=
  p.default <|> p.shape.absent?

def isRequired (p : Parameter) : Bool :=
  p.absent?.isNone

end Parameter

namespace Arguments

/-- Check the given arguments in order; those without a parameter carry no meaning. -/
def check (ps : List Parameter) : List (String × Json.Value) → Except ArgumentFault Unit
  | [] => .ok ()
  | (name, v) :: rest => do
    if let some p := ps.find? fun p => p.name = name then
      let _ ← p.shape.read v
    check ps rest

/-- Take the arguments by the names of the parameters. -/
def byName (members : List (String × Json.Value)) :
    (ps : List Parameter) → Except ArgumentFault (Arguments ps)
  | [] => .ok ()
  | p :: ps => do
    let v ← match members.lookup p.name, p.absent? with
      | some v, _ => p.shape.read v
      | none, some v => .ok v
      | none, none => .error (.missing p.name)
    return (v, ← byName members ps)

/-- Take the arguments in order, and tell what is left over.  The fault is the one of too few. -/
def inOrder (tooFew : Nat → ArgumentFault) :
    (ps : List Parameter) → Nat → List Json.Value →
      Except ArgumentFault (Arguments ps × List Json.Value)
  | [], _, items => .ok ((), items)
  | p :: ps, given, v :: items => do
    let v ← p.shape.read v
    let (rest, left) ← inOrder tooFew ps (given + 1) items
    return ((v, rest), left)
  | p :: ps, given, [] =>
    match p.default with
    | none => .error (tooFew given)
    | some v => do
      let (rest, left) ← inOrder tooFew ps (given + 1) []
      return ((v, rest), left)

/-- Read the arguments of a record. -/
def read (record : String) (ps : List Parameter) : Json.Value → Except ArgumentFault (Arguments ps)
  | .object members => do
    check ps members
    byName members ps
  | .array items => do
    let (arguments, left) ← inOrder (.tooFew · record ps.length) ps 0 items
    if left.isEmpty then .ok arguments else .error (.tooMany items.length)
  | v => .error (.wrongKind v s!"struct {record}")

end Arguments

end CodeAtlas.Server
