import CodeAtlas.Number.Decimal

/-! # JSON values

An object keeps its members in the order in which they are written.  `Value.ofMembers` builds the
object that a text denotes: members in order of their names, the last of equal names winning. -/

namespace CodeAtlas.Json

/-- Whole numbers of a machine word are kept exactly, all others as decimal fractions. -/
inductive Number where
  | nat (n : Nat)
  /-- The number `-(n + 1)`. -/
  | negative (n : Nat)
  | real (d : Number.Decimal)
deriving DecidableEq, Repr

def Number.ofInt : Int → Number
  | .ofNat n => nat n
  | .negSucc n => negative n

inductive Value where
  | null
  | bool (b : Bool)
  | number (n : Number)
  | text (s : String)
  | array (items : List Value)
  | object (members : List (String × Value))
deriving Repr

namespace Value

instance : Inhabited Value := ⟨null⟩

instance : Coe String Value := ⟨text⟩

def nat (n : Nat) : Value :=
  number (.nat n)

def texts (items : List String) : Value :=
  array (items.map text)

/-- The text, or null if there is none. -/
def textOr? (s : Option String) : Value :=
  (s.map text).getD null

def natOr? (n : Option Nat) : Value :=
  (n.map nat).getD null

/-- Put a member in the place of its name, in the place of an earlier one of that name. -/
def insertMember (name : String) (v : Value) : List (String × Value) → List (String × Value)
  | [] => [(name, v)]
  | (other, w) :: rest =>
    if name < other then (name, v) :: (other, w) :: rest
    else if name = other then (name, v) :: rest
    else (other, w) :: insertMember name v rest

def ofMembers (members : List (String × Value)) : Value :=
  object (members.foldl (fun acc (name, v) => insertMember name v acc) [])

def get? (v : Value) (name : String) : Option Value :=
  match v with
  | object members => members.lookup name
  | _ => none

def text? : Value → Option String
  | text s => some s
  | _ => none

end Value

end CodeAtlas.Json
