import CodeAtlas.Text.Unicode.Property

/-! # Unsigned numbers in a machine word

Reading stops at the first fault: an octet that is no digit, or the digit at which the number
leaves the word. -/

namespace CodeAtlas.Number

/-- The largest number of a machine word. -/
def maxWord : Nat := Nat.pow 2 64 - 1

/-- The sum, if it is a word. -/
def add? (a b : Nat) : Option Nat :=
  if a + b ≤ maxWord then some (a + b) else none

/-- The difference, if it is a word. -/
def sub? (a b : Nat) : Option Nat :=
  if b ≤ a then some (a - b) else none

/-- The sum and product that stop at the largest word. -/
def saturatingMul (a b : Nat) : Nat :=
  min (a * b) maxWord

inductive UnsignedError where
  | empty
  | invalidDigit
  | tooLarge
deriving DecidableEq, Repr

namespace UnsignedError

def message : UnsignedError → String
  | empty => "cannot parse integer from empty string"
  | invalidDigit => "invalid digit found in string"
  | tooLarge => "number too large to fit in target type"

end UnsignedError

def addDigit (n : Nat) (c : Char) : Except UnsignedError Nat :=
  if Text.Unicode.asciiDigit c then
    let n' := 10 * n + (c.toNat - '0'.toNat)
    if n' ≤ maxWord then .ok n' else .error .tooLarge
  else .error .invalidDigit

/-- Read digits after an optional plus sign. -/
def readUnsigned : List Char → Except UnsignedError Nat
  | [] => .error .empty
  | ['+'] => .error .invalidDigit
  | '+' :: digits => digits.foldlM addDigit 0
  | digits => digits.foldlM addDigit 0

end CodeAtlas.Number
