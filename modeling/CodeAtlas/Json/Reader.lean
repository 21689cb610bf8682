import CodeAtlas.Json.Value
import CodeAtlas.Number.Unsigned

/-! # Reading JSON

Readers take characters off the front and give back the rest, or nothing if the text is ill
formed.  Fuel of twice the length of the text never runs out: at least every other step takes a
character.  A value may be nested at most 127
levels deep.  A skipped value has to be well formed too, but its numbers may be out of range, its
escapes may name halves of characters, and it may be nested to any depth. -/

namespace CodeAtlas.Json

def skipBlanks (cs : List Char) : List Char :=
  cs.dropWhile fun c => c = ' ' || c = '\n' || c = '\t' || c = '\r'

def hexValue? (c : Char) : Option Nat :=
  if '0' ≤ c && c ≤ '9' then some (c.toNat - 48)
  else if 'a' ≤ c && c ≤ 'f' then some (c.toNat - 87)
  else if 'A' ≤ c && c ≤ 'F' then some (c.toNat - 55)
  else none

def fourHex : List Char → Option (Nat × List Char)
  | a :: b :: c :: d :: rest => do
    let n := (← hexValue? a) * 4096 + (← hexValue? b) * 256 + (← hexValue? c) * 16 + (← hexValue? d)
    some (n, rest)
  | _ => none

def isLeading (n : Nat) : Bool :=
  0xD800 ≤ n && n < 0xDC00

def isTrailing (n : Nat) : Bool :=
  0xDC00 ≤ n && n < 0xE000

/-- The escape after the backslash.  Halves of characters stand for nothing when `lenient`. -/
def escape (lenient : Bool) : List Char → Option (Char × List Char)
  | '"' :: rest => some ('"', rest)
  | '\\' :: rest => some ('\\', rest)
  | '/' :: rest => some ('/', rest)
  | 'b' :: rest => some ('\x08', rest)
  | 'f' :: rest => some ('\x0c', rest)
  | 'n' :: rest => some ('\n', rest)
  | 'r' :: rest => some ('\r', rest)
  | 't' :: rest => some ('\t', rest)
  | 'u' :: rest => do
    let (n, rest) ← fourHex rest
    if lenient then some (Char.ofNat n, rest)
    else if isTrailing n then none
    else if isLeading n then
      match rest with
      | '\\' :: 'u' :: rest => do
        let (m, rest) ← fourHex rest
        if isTrailing m then
          some (Char.ofNat (0x10000 + (n - 0xD800) * 0x400 + (m - 0xDC00)), rest)
        else none
      | _ => none
    else some (Char.ofNat n, rest)
  | _ => none

/-- The rest of a string after its opening quote, with its characters so far in reverse order. -/
def stringOnto (lenient : Bool) : Nat → List Char → List Char → Option (String × List Char)
  | 0, _, _ => none
  | _ + 1, _, [] => none
  | _ + 1, done, '"' :: rest => some (String.ofList done.reverse, rest)
  | fuel + 1, done, '\\' :: rest =>
    match escape lenient rest with
    | some (c, rest) => stringOnto lenient fuel (c :: done) rest
    | none => none
  | fuel + 1, done, c :: rest =>
    if c.toNat < 0x20 then none else stringOnto lenient fuel (c :: done) rest

/-- The digits at the front and the rest. -/
def spanDigits (cs : List Char) : List Char × List Char :=
  cs.span Text.Unicode.asciiDigit

/-- The parts of a number: sign, whole digits, digits after the point, and exponent. -/
structure NumberText where
  negative : Bool
  whole : List Char
  fraction : Option (List Char)
  exponent : Option Int

def readExponent (cs : List Char) : Option (Option Int × List Char) :=
  match cs with
  | e :: rest =>
    if e = 'e' || e = 'E' then
      let (negative, rest) := match rest with
        | '-' :: r => (true, r)
        | '+' :: r => (false, r)
        | r => (false, r)
      let (digits, rest) := spanDigits rest
      if digits.isEmpty then none
      else
        let n : Int := digits.foldl (fun n c => 10 * n + (c.toNat - 48)) 0
        some (some (if negative then -n else n), rest)
    else some (none, cs)
  | [] => some (none, [])

def numberText (cs : List Char) : Option (NumberText × List Char) := do
  let (negative, cs) := match cs with
    | '-' :: rest => (true, rest)
    | cs => (false, cs)
  let (whole, cs) := spanDigits cs
  if whole.isEmpty || (whole.head? = some '0' && whole.length > 1) then none
  else
    let (fraction, cs) ← match cs with
      | '.' :: rest =>
        let (digits, rest) := spanDigits rest
        if digits.isEmpty then none else some (some digits, rest)
      | cs => some (none, cs)
    let (exponent, cs) ← readExponent cs
    some (⟨negative, whole, fraction, exponent⟩, cs)

/-- Take in digits as long as the significand stays in a word.  Further whole digits only scale
it, and further digits after the point are dropped. -/
def significand (t : NumberText) : Nat × Int :=
  let push (n : Nat) (c : Char) := 10 * n + (c.toNat - 48)
  let (n, scale) := t.whole.foldl (fun ((n, scale) : Nat × Int) c =>
    if scale = 0 && push n c ≤ Number.maxWord then (push n c, scale) else (n, scale + 1)) (0, 0)
  let (n, scale, _) := (t.fraction.getD []).foldl (fun ((n, scale, full) : Nat × Int × Bool) c =>
    if !full && push n c ≤ Number.maxWord then (push n c, scale - 1, false) else (n, scale, true))
    (n, scale, false)
  (n, scale)

def NumberText.value? (t : NumberText) : Option Number :=
  let (n, scale) := significand t
  let real := (Number.Decimal.ofParts? t.negative n (scale + t.exponent.getD 0)).map Number.real
  if t.fraction.isSome || t.exponent.isSome || scale ≠ 0 then real
  else if t.negative then
    if 0 < n && n ≤ Nat.pow 2 63 then some (.negative (n - 1)) else real
  else some (.nat n)

def word (expected : String) (cs : List Char) : Option (List Char) :=
  if expected.toList.isPrefixOf cs then some (cs.drop expected.length) else none

/-- The rest after the character, if that is the first one that is no blank. -/
def symbol (c : Char) (cs : List Char) : Option (List Char) :=
  match skipBlanks cs with
  | d :: rest => if d = c then some rest else none
  | [] => none

/-- What follows an item: a comma, the closing character, or neither. -/
inductive Next where
  | more (rest : List Char)
  | done (rest : List Char)
  | illFormed

def next (closing : Char) (cs : List Char) : Next :=
  match skipBlanks cs with
  | ',' :: rest => .more rest
  | c :: rest => if c = closing then .done rest else .illFormed
  | [] => .illFormed

def scalar (fuel : Nat) (cs : List Char) : Option (Value × List Char) :=
  match cs with
  | 'n' :: _ => (word "null" cs).map (Value.null, ·)
  | 't' :: _ => (word "true" cs).map (Value.bool true, ·)
  | 'f' :: _ => (word "false" cs).map (Value.bool false, ·)
  | '"' :: rest => (stringOnto false fuel [] rest).map fun (s, rest) => (.text s, rest)
  | _ => do
    let (t, rest) ← numberText cs
    some (.number (← t.value?), rest)

mutual

/-- Read one value.  The first number is fuel for the characters, the second one the levels of
nesting that are left. -/
def value : Nat → Nat → List Char → Option (Value × List Char)
  | 0, _, _ => none
  | fuel + 1, depth, cs =>
    match skipBlanks cs with
    | '[' :: rest =>
      if depth ≤ 1 then none
      else match symbol ']' rest with
        | some rest => some (.array [], rest)
        | none => items fuel (depth - 1) [] rest
    | '\x7b' :: rest =>
      if depth ≤ 1 then none
      else match symbol '\x7d' rest with
        | some rest => some (.object [], rest)
        | none => members fuel (depth - 1) [] rest
    | cs => scalar (fuel + 1) cs

def items : Nat → Nat → List Value → List Char → Option (Value × List Char)
  | 0, _, _, _ => none
  | fuel + 1, depth, done, cs =>
    match value fuel depth cs with
    | none => none
    | some (v, rest) =>
      match next ']' rest with
      | .more rest => items fuel depth (v :: done) rest
      | .done rest => some (.array (v :: done).reverse, rest)
      | .illFormed => none

def members : Nat → Nat → List (String × Value) → List Char → Option (Value × List Char)
  | 0, _, _, _ => none
  | fuel + 1, depth, done, cs =>
    match symbol '"' cs with
    | none => none
    | some cs =>
      match stringOnto false (fuel + 1) [] cs with
      | none => none
      | some (name, cs) =>
        match symbol ':' cs with
        | none => none
        | some cs =>
          match value fuel depth cs with
          | none => none
          | some (v, rest) =>
            match next '\x7d' rest with
            | .more rest => members fuel depth ((name, v) :: done) rest
            | .done rest => some (Value.ofMembers ((name, v) :: done).reverse, rest)
            | .illFormed => none

end

mutual

/-- Pass over one value. -/
def skip : Nat → List Char → Option (List Char)
  | 0, _ => none
  | fuel + 1, cs =>
    match skipBlanks cs with
    | '[' :: rest =>
      match symbol ']' rest with
      | some rest => some rest
      | none => skipItems fuel rest
    | '\x7b' :: rest =>
      match symbol '\x7d' rest with
      | some rest => some rest
      | none => skipMembers fuel rest
    | '"' :: rest => (stringOnto true (fuel + 1) [] rest).map Prod.snd
    | '-' :: rest => (numberText ('-' :: rest)).map Prod.snd
    | c :: rest =>
      if Text.Unicode.asciiDigit c then (numberText (c :: rest)).map Prod.snd
      else (scalar 0 (c :: rest)).map Prod.snd
    | [] => none

def skipItems : Nat → List Char → Option (List Char)
  | 0, _ => none
  | fuel + 1, cs =>
    match skip fuel cs with
    | none => none
    | some rest =>
      match next ']' rest with
      | .more rest => skipItems fuel rest
      | .done rest => some rest
      | .illFormed => none

def skipMembers : Nat → List Char → Option (List Char)
  | 0, _ => none
  | fuel + 1, cs =>
    match (symbol '"' cs).bind fun cs => (stringOnto true (fuel + 1) [] cs).bind fun (_, cs) => symbol ':' cs with
    | none => none
    | some cs =>
      match skip fuel cs with
      | none => none
      | some rest =>
        match next '\x7d' rest with
        | .more rest => skipMembers fuel rest
        | .done rest => some rest
        | .illFormed => none

end

/-- The levels of nesting of a whole text. -/
def maxDepth : Nat := 128

def fuelFor (cs : List Char) : Nat :=
  2 * cs.length + 2

/-- Read the members of an object whose names are known, each at most once, and pass over all
others. -/
def knownMembers (names : List String) :
    Nat → List (String × Value) → List Char → Option (List (String × Value) × List Char)
  | 0, _, _ => none
  | fuel + 1, done, cs =>
    match (symbol '"' cs).bind (stringOnto false (fuel + 1) []) with
    | none => none
    | some (name, cs) =>
      let read :=
        if !names.contains name then
          (symbol ':' cs).bind fun cs => (skip fuel cs).map fun rest => (done, rest)
        else if (done.lookup name).isSome then none
        else
          (symbol ':' cs).bind fun cs =>
            (value fuel (maxDepth - 1) cs).map fun (v, rest) => ((name, v) :: done, rest)
      match read with
      | none => none
      | some (done, rest) =>
        match next '\x7d' rest with
        | .more rest => knownMembers names fuel done rest
        | .done rest => some (done, rest)
        | .illFormed => none

/-- Read a text that holds one value and nothing else. -/
def read (cs : List Char) : Option Value :=
  match value (fuelFor cs) maxDepth cs with
  | some (v, rest) => if (skipBlanks rest).isEmpty then some v else none
  | none => none

/-- Read a text that holds a record: an object with members of known names, or an array with just
as many items. -/
def readRecord (names : List String) (cs : List Char) : Option (List (String × Value)) :=
  match skipBlanks cs with
  | '\x7b' :: rest =>
    let members := match symbol '\x7d' rest with
      | some rest => some ([], rest)
      | none => knownMembers names (fuelFor rest) [] rest
    match members with
    | some (members, rest) => if (skipBlanks rest).isEmpty then some members else none
    | none => none
  | cs =>
    match read cs with
    | some (.array items) => if items.length = names.length then some (names.zip items) else none
    | _ => none

end CodeAtlas.Json
