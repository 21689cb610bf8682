/-! # Nearest binary fractions

A finite binary fraction has a mantissa below `2 ^ 53` and an exponent of at least `-1074`.  Any
positive ratio is rounded to the nearest one, and a tie goes to the even mantissa. -/

namespace CodeAtlas.Number

/-- Round a quotient to the nearest natural number, a tie to the even one. -/
def roundHalfEven (num den : Nat) : Nat :=
  let q := num / den
  let twice := 2 * (num % den)
  if twice < den then q
  else if den < twice then q + 1
  else q + q % 2

/-- The value `mantissa * 2 ^ exponent`. -/
structure Binary where
  mantissa : Nat
  exponent : Int
deriving DecidableEq, Repr

namespace Binary

def zero : Binary := ⟨0, -1074⟩

/-- Scale a ratio by a power of two, as a ratio. -/
def scale (num den : Nat) (e : Int) : Nat × Nat :=
  if e ≥ 0 then (num * Nat.pow 2 e.toNat, den) else (num, den * Nat.pow 2 (-e).toNat)

/-- The nearest binary fraction, unless it would be too large to be finite. -/
def ofRatio? (num den : Nat) : Option Binary :=
  if num = 0 then some zero
  else
    let guess : Int := max ((num.log2 : Int) - den.log2 - 53) (-1074)
    let fits (q : Int) : Bool :=
      let (n, d) := scale num den (-q)
      n / d < Nat.pow 2 53
    let q := if fits guess then guess else guess + 1
    let (n, d) := scale num den (-q)
    let m := roundHalfEven n d
    let b : Binary := if m = Nat.pow 2 53 then ⟨Nat.pow 2 52, q + 1⟩ else ⟨m, q⟩
    if b.exponent ≤ 971 then some b else none

/-- The value as a ratio. -/
def toRatio (b : Binary) : Nat × Nat :=
  scale b.mantissa 1 b.exponent

/-- The ratio half-way to the binary fraction below, from which on ratios round to this one. -/
def lowerEnd (b : Binary) : Nat × Nat :=
  let below := if b.mantissa = Nat.pow 2 52 ∧ b.exponent > -1074 then 1 else 2
  scale (4 * b.mantissa - below) 4 b.exponent

end Binary

end CodeAtlas.Number
