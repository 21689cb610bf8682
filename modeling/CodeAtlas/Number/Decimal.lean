import CodeAtlas.Number.Binary

/-! # Decimal fractions

A decimal fraction is kept as the shortest one that reads back as the same binary fraction.  Three
forms are written: the form for data, which always shows a fraction or an exponent; the plain form,
which never uses an exponent; and the form with six places. -/

namespace CodeAtlas.Number

/-- The value `digits * 10 ^ exponent`, with its sign. -/
structure Decimal where
  negative : Bool
  digits : Nat
  exponent : Int
deriving DecidableEq, Repr

namespace Decimal

/-- A ratio of ten to the given power to one. -/
def tenTo (e : Int) : Nat × Nat :=
  if e ≥ 0 then (Nat.pow 10 e.toNat, 1) else (1, Nat.pow 10 (-e).toNat)

/-- The multiple of ten to the power `k` that lies in the interval between `low` and `high` and is
nearest to the value, all four being ratios over the same denominator.  The ends belong to the
interval if `closed` holds. -/
def onGrid? (low value high den : Nat) (closed : Bool) (k : Int) : Option Nat :=
  let (tn, td) := tenTo k
  let unit := tn * den
  let floor := value * td / unit
  let inside (n : Nat) : Bool :=
    let x := n * unit
    n > 0 && (if closed then low * td ≤ x && x ≤ high * td else low * td < x && x < high * td)
  match inside floor, inside (floor + 1) with
  | true, false => some floor
  | false, true => some (floor + 1)
  | false, false => none
  | true, true =>
    let twice := 2 * (value * td % unit)
    if twice < unit then some floor
    else if unit < twice then some (floor + 1)
    else some (floor + floor % 2)

/-- Try ever finer grids until one has a multiple in the interval. -/
def search (low value high den : Nat) (closed : Bool) : Nat → Int → Nat × Int
  | 0, k => (value / den, k)
  | fuel + 1, k =>
    match onGrid? low value high den closed k with
    | some d => (d, k)
    | none => search low value high den closed fuel (k - 1)

/-- The fewest digits that read back as the binary fraction. -/
def shortest (negative : Bool) (b : Binary) : Decimal :=
  if b.mantissa = 0 then ⟨negative, 0, 0⟩
  else
    -- Four times the value and its two half-way neighbours, in units of the lowest bit.
    let m := b.mantissa
    let below := if m = Nat.pow 2 52 ∧ b.exponent > -1074 then 1 else 2
    let (unit, den) := Binary.scale 1 4 b.exponent
    let top : Int := (Nat.toDigits 10 (4 * m * unit / den)).length
    let start : Int :=
      if 4 * m * unit < den then 1 - (Nat.toDigits 10 (den / (4 * m * unit))).length else top
    let (d, k) := search ((4 * m - below) * unit) (4 * m * unit) ((4 * m + 2) * unit) den
      (m % 2 = 0) 20 start
    ⟨negative, d, k⟩

/-- The shortest decimal of the binary fraction nearest to a ratio. -/
def ofRatio (num den : Nat) : Decimal :=
  shortest false ((Binary.ofRatio? num den).getD .zero)

/-- Read `significand * 10 ^ exponent`: the significand and the power of ten are each rounded to a
binary fraction, and so is their product or quotient.  Powers of ten beyond the largest finite one
are divided away in steps. -/
def ofParts? (negative : Bool) (significand : Nat) (exponent : Int) : Option Decimal :=
  let start := (Binary.ofRatio? significand 1).getD .zero
  if exponent > 308 then
    if significand = 0 then some ⟨negative, 0, 0⟩ else none
  else if exponent ≥ 0 then do
    let power ← Binary.ofRatio? (Nat.pow 10 exponent.toNat) 1
    let (a, b) := start.toRatio
    let (c, d) := power.toRatio
    return shortest negative (← Binary.ofRatio? (a * c) (b * d))
  else
    some (shortest negative (divide start (-exponent).toNat 1100))
where
  /-- Divide by ten to the power `k`, at most `10 ^ 308` at a time. -/
  divide (b : Binary) (k : Nat) : Nat → Binary
    | 0 => .zero
    | fuel + 1 =>
      let step := min k 308
      let (a, b') := b.toRatio
      let (c, d) := ((Binary.ofRatio? (Nat.pow 10 step) 1).getD .zero).toRatio
      let quotient := (Binary.ofRatio? (a * d) (b' * c)).getD .zero
      if k ≤ 308 ∨ quotient.mantissa = 0 then quotient else divide quotient (k - 308) fuel

def sign (d : Decimal) : String :=
  if d.negative then "-" else ""

def zeros (n : Nat) : String :=
  String.ofList (List.replicate n '0')

/-- Digits with the point placed `before` digits from the left, padded with zeros on either side. -/
def placePoint (digits : List Char) (before : Int) : String :=
  if before ≤ 0 then "0." ++ zeros (-before).toNat ++ String.ofList digits
  else if before < digits.length then
    String.ofList (digits.take before.toNat) ++ "." ++ String.ofList (digits.drop before.toNat)
  else String.ofList digits ++ zeros (before - digits.length).toNat

/-- The form for data: positional while the point is at most sixteen digits from the left and at
most five zeros follow it, and with an exponent otherwise. -/
def render (d : Decimal) : String :=
  let digits := Nat.toDigits 10 d.digits
  let before : Int := digits.length + d.exponent
  if d.digits = 0 then d.sign ++ "0.0"
  else if d.exponent ≥ 0 ∧ before ≤ 16 then d.sign ++ placePoint digits before ++ ".0"
  else if -5 < before ∧ before ≤ 16 then d.sign ++ placePoint digits before
  else
    let mantissa := match digits with
      | [c] => String.ofList [c]
      | c :: rest => String.ofList (c :: '.' :: rest)
      | [] => "0"
    d.sign ++ mantissa ++ "e" ++ toString (before - 1)

/-- The plain form: positional whatever the size, and without a point for a whole number. -/
def plain (d : Decimal) : String :=
  let digits := Nat.toDigits 10 d.digits
  if d.digits = 0 then d.sign ++ "0"
  else d.sign ++ placePoint digits (digits.length + d.exponent)

/-- The value as a ratio, without its sign. -/
def toRatio (d : Decimal) : Nat × Nat :=
  let (n, k) := tenTo d.exponent
  (d.digits * n, k)

/-- The least ratio that a binary fraction no less than that of the decimal stands for. -/
def lowerEnd (d : Decimal) : Nat × Nat :=
  if d.negative then (0, 1)
  else
    let (num, den) := d.toRatio
    ((Binary.ofRatio? num den).getD .zero).lowerEnd

/-- Whether the value lies between zero and one, both included. -/
def inUnit (d : Decimal) : Bool :=
  let (num, den) := d.toRatio
  num = 0 || (!d.negative && num ≤ den)

/-- The binary fraction that the decimal stands for, with six places, a tie going to the even
digit.  In this form computed fractions can be compared as texts. -/
def sixPlaces (d : Decimal) : String :=
  let (num, den) := d.toRatio
  let (num, den) := ((Binary.ofRatio? num den).getD .zero).toRatio
  let millionths := roundHalfEven (num * 1000000) den
  let digits := Nat.toDigits 10 (millionths % 1000000)
  d.sign ++ toString (millionths / 1000000) ++ "." ++ zeros (6 - digits.length) ++
    String.ofList digits

end Decimal

end CodeAtlas.Number
