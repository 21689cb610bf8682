import CodeAtlas.Toml.Table
import CodeAtlas.Number.Unsigned

/-! # Reading TOML

A document denotes an object.  Fractions are kept only as a mark of their kind, because no setting
takes one, and so are dates and times, each as an object with one member. -/

namespace CodeAtlas.Toml

def isSpace (c : Char) : Bool :=
  c = ' ' || c = '\t'

def skipSpaces (cs : List Char) : List Char :=
  cs.dropWhile isSpace

/-- Control characters other than the tab may stand nowhere. -/
def isPlain (c : Char) : Bool :=
  c = '\t' || (c.toNat ≥ 0x20 && c.toNat ≠ 0x7F)

/-- The rest after a newline, if there is one here. -/
def newline? : List Char → Option (List Char)
  | '\n' :: rest => some rest
  | '\r' :: '\n' :: rest => some rest
  | _ => none

/-- The rest after a comment, if there is one here. -/
def skipComment : List Char → Option (List Char)
  | '#' :: rest =>
    let (body, rest) := rest.span fun c => c ≠ '\n' && c ≠ '\r'
    if body.all isPlain then some rest else none
  | cs => some cs

/-- Pass over blanks, newlines and comments. -/
def skipLines : Nat → List Char → Option (List Char)
  | 0, cs => some cs
  | fuel + 1, cs => do
    let rest ← skipComment (skipSpaces cs)
    match newline? rest with
    | some rest => skipLines fuel rest
    | none => some rest

def hexDigit? (c : Char) : Option Nat :=
  if '0' ≤ c && c ≤ '9' then some (c.toNat - 48)
  else if 'a' ≤ c && c ≤ 'f' then some (c.toNat - 87)
  else if 'A' ≤ c && c ≤ 'F' then some (c.toNat - 55)
  else none

def hexCode (count : Nat) (cs : List Char) : Option (Char × List Char) := do
  let digits ← (cs.take count).mapM hexDigit?
  let n := digits.foldl (fun n d => 16 * n + d) 0
  if digits.length = count && n.isValidChar then some (Char.ofNat n, cs.drop count) else none

def escape : List Char → Option (Char × List Char)
  | 'b' :: rest => some ('\x08', rest)
  | 't' :: rest => some ('\t', rest)
  | 'n' :: rest => some ('\n', rest)
  | 'f' :: rest => some ('\x0c', rest)
  | 'r' :: rest => some ('\r', rest)
  | '"' :: rest => some ('"', rest)
  | '\\' :: rest => some ('\\', rest)
  | 'u' :: rest => hexCode 4 rest
  | 'U' :: rest => hexCode 8 rest
  | _ => none

/-- The rest of a string in one line. -/
def lineString (escapes : Bool) (quote : Char) :
    Nat → List Char → List Char → Option (String × List Char)
  | 0, _, _ => none
  | _ + 1, _, [] => none
  | fuel + 1, done, c :: rest =>
    if c = quote then some (String.ofList done.reverse, rest)
    else if escapes && c = '\\' then
      match escape rest with
      | some (d, rest) => lineString escapes quote fuel (d :: done) rest
      | none => none
    else if isPlain c then lineString escapes quote fuel (c :: done) rest
    else none

/-- Pass over the blanks and newlines after a backslash at the end of a line. -/
def skipBreak (cs : List Char) : Option (List Char) := do
  let rest ← newline? (skipSpaces cs)
  let blank := rest.dropWhile fun c => isSpace c || c = '\n' || c = '\r'
  some blank

/-- The rest of a string of several lines.  Up to two quotes may stand before the closing three. -/
def blockString (escapes : Bool) (quote : Char) :
    Nat → List Char → List Char → Option (String × List Char)
  | 0, _, _ => none
  | _ + 1, _, [] => none
  | fuel + 1, done, c :: rest =>
    if c = quote then
      let run := (c :: rest).takeWhile (· = quote)
      let n := run.length
      if n < 3 then blockString escapes quote fuel (run ++ done) ((c :: rest).drop n)
      else if n ≤ 5 then
        some (String.ofList (List.replicate (n - 3) quote ++ done).reverse, (c :: rest).drop n)
      else none
    else if escapes && c = '\\' then
      match skipBreak rest with
      | some rest => blockString escapes quote fuel done rest
      | none =>
        match escape rest with
        | some (d, rest) => blockString escapes quote fuel (d :: done) rest
        | none => none
    else match newline? (c :: rest) with
      | some rest => blockString escapes quote fuel ('\n' :: done) rest
      | none => if isPlain c then blockString escapes quote fuel (c :: done) rest else none

def readString (cs : List Char) : Option (String × List Char) :=
  let block (escapes : Bool) (quote : Char) (rest : List Char) :=
    blockString escapes quote (rest.length + 1) [] ((newline? rest).getD rest)
  match cs with
  | '"' :: '"' :: '"' :: rest => block true '"' rest
  | '"' :: rest => lineString true '"' (rest.length + 1) [] rest
  | '\'' :: '\'' :: '\'' :: rest => block false '\'' rest
  | '\'' :: rest => lineString false '\'' (rest.length + 1) [] rest
  | _ => none

def isBare (c : Char) : Bool :=
  Text.Unicode.asciiAlphanumeric c || c = '_' || c = '-'

def readName (cs : List Char) : Option (String × List Char) :=
  match cs with
  | '"' :: rest => lineString true '"' (rest.length + 1) [] rest
  | '\'' :: rest => lineString false '\'' (rest.length + 1) [] rest
  | cs =>
    let (name, rest) := cs.span isBare
    if name.isEmpty then none else some (String.ofList name, rest)

/-- A dotted key: the names that lead to the table, and the last one. -/
def readKey : Nat → List String → List Char → Option (List String × String × List Char)
  | 0, _, _ => none
  | fuel + 1, path, cs => do
    let (name, rest) ← readName (skipSpaces cs)
    match skipSpaces rest with
    | '.' :: rest => readKey fuel (path ++ [name]) rest
    | rest => some (path, name, rest)

/-- The digits at the front, where an underscore may stand between two of them. -/
def digits (isDigit : Char → Bool) (cs : List Char) : Option (List Char × List Char) :=
  let (run, rest) := cs.span fun c => isDigit c || c = '_'
  let kept := run.filter (· ≠ '_')
  let apart := (run.zip run.tail).all fun (a, b) => !(a = '_' && b = '_')
  if kept.isEmpty || run.head? = some '_' || run.getLast? = some '_' || !apart then none
  else some (kept, rest)

def ofDigits (base : Nat) (ds : List Char) : Nat :=
  ds.foldl (fun n c => base * n + (hexDigit? c).getD 0) 0

def maxInteger : Nat := Nat.pow 2 63 - 1

def fraction : Json.Value :=
  .number (.real ⟨false, 0, 0⟩)

def moment : Json.Value :=
  .object [("moment", .null)]

def based (base : Nat) (isDigit : Char → Bool) (cs : List Char) :
    Option (Json.Value × List Char) := do
  let (ds, rest) ← digits isDigit cs
  let n := ofDigits base ds
  if n ≤ maxInteger then some (.nat n, rest) else none

def exponent? (cs : List Char) : Option (List Char) :=
  let unsigned := match cs with
    | '+' :: rest => rest
    | '-' :: rest => rest
    | cs => cs
  (digits Text.Unicode.asciiDigit unsigned).map Prod.snd

/-- A whole number or a fraction, after its sign. -/
def readNumber (signed negative : Bool) (cs : List Char) : Option (Json.Value × List Char) :=
  let hex (c : Char) := (hexDigit? c).isSome
  match cs with
  | 'i' :: 'n' :: 'f' :: rest => some (fraction, rest)
  | 'n' :: 'a' :: 'n' :: rest => some (fraction, rest)
  | '0' :: 'x' :: rest => if signed then none else based 16 hex rest
  | '0' :: 'o' :: rest => if signed then none else based 8 (fun c => '0' ≤ c && c ≤ '7') rest
  | '0' :: 'b' :: rest => if signed then none else based 2 (fun c => c = '0' || c = '1') rest
  | cs => do
    let (ds, rest) ← digits Text.Unicode.asciiDigit cs
    if ds.head? = some '0' && ds.length > 1 then none else afterWhole ds rest
where
  afterWhole (ds rest : List Char) : Option (Json.Value × List Char) :=
    match rest with
    | '.' :: rest =>
      match digits Text.Unicode.asciiDigit rest with
      | some (_, e :: more) =>
        if e = 'e' || e = 'E' then (exponent? more).map (fraction, ·)
        else some (fraction, e :: more)
      | some (_, []) => some (fraction, [])
      | none => none
    | e :: more =>
      if e = 'e' || e = 'E' then (exponent? more).map (fraction, ·) else whole ds (e :: more)
    | [] => whole ds []
  whole (ds rest : List Char) : Option (Json.Value × List Char) :=
    let n := ofDigits 10 ds
    if negative && 0 < n then
      if n ≤ maxInteger + 1 then some (.number (.negative (n - 1)), rest) else none
    else if n ≤ maxInteger then some (.nat n, rest)
    else none

/-- Exactly so many digits as a number. -/
def fixed (count : Nat) (cs : List Char) : Option (Nat × List Char) :=
  let ds := cs.take count
  if ds.length = count && ds.all Text.Unicode.asciiDigit then some (ofDigits 10 ds, cs.drop count)
  else none

def expect (c : Char) : List Char → Option (List Char)
  | d :: rest => if d = c then some rest else none
  | [] => none

def daysIn (year month : Nat) : Nat :=
  if month = 2 then
    if year % 4 = 0 && (year % 100 ≠ 0 || year % 400 = 0) then 29 else 28
  else if [4, 6, 9, 11].contains month then 30
  else 31

def readDate (cs : List Char) : Option (List Char) := do
  let (year, cs) ← fixed 4 cs
  let (month, cs) ← fixed 2 (← expect '-' cs)
  let (day, cs) ← fixed 2 (← expect '-' cs)
  if 1 ≤ month && month ≤ 12 && 1 ≤ day && day ≤ daysIn year month then some cs else none

def readTime (cs : List Char) : Option (List Char) := do
  let (hour, cs) ← fixed 2 cs
  let (minute, cs) ← fixed 2 (← expect ':' cs)
  let (second, cs) ← fixed 2 (← expect ':' cs)
  if hour ≤ 23 && minute ≤ 59 && second ≤ 60 then
    match cs with
    | '.' :: rest =>
      let (ds, rest) := rest.span Text.Unicode.asciiDigit
      if ds.isEmpty then none else some rest
    | cs => some cs
  else none

def readOffset (cs : List Char) : Option (List Char) :=
  let numeric (rest : List Char) : Option (List Char) := do
    let (hour, rest) ← fixed 2 rest
    let (minute, rest) ← fixed 2 (← expect ':' rest)
    if hour ≤ 23 && minute ≤ 59 then some rest else none
  match cs with
  | 'Z' :: rest => some rest
  | 'z' :: rest => some rest
  | '+' :: rest => numeric rest
  | '-' :: rest => numeric rest
  | cs => some cs

/-- A date, a time or both, if the text here begins like one. -/
def readMoment (cs : List Char) : Option (Option (List Char)) :=
  let ds := cs.takeWhile Text.Unicode.asciiDigit
  match ds.length, cs.drop ds.length with
  | 4, '-' :: _ =>
    match readDate cs with
    | none => some none
    | some rest =>
      match rest with
      | c :: more =>
        if c = 'T' || c = 't' then some ((readTime more).bind readOffset)
        else if c = ' ' then
          match readTime more with
          | some rest => some (readOffset rest)
          | none => some (some rest)
        else some (some rest)
      | [] => some (some [])
  | 2, ':' :: _ => some (readTime cs)
  | _, _ => none

def readScalar (cs : List Char) : Option (Json.Value × List Char) :=
  match cs with
  | 't' :: 'r' :: 'u' :: 'e' :: rest => some (.bool true, rest)
  | 'f' :: 'a' :: 'l' :: 's' :: 'e' :: rest => some (.bool false, rest)
  | '"' :: _ => (readString cs).map fun (s, rest) => (.text s, rest)
  | '\'' :: _ => (readString cs).map fun (s, rest) => (.text s, rest)
  | '+' :: rest => readNumber true false rest
  | '-' :: rest => readNumber true true rest
  | cs =>
    match readMoment cs with
    | some (some rest) => some (moment, rest)
    | some none => none
    | none => readNumber false false cs

mutual

/-- Read one value; the second number is the nesting that is left. -/
def readValue : Nat → Nat → List Char → Option (Json.Value × List Char)
  | 0, _, _ => none
  | _ + 1, 0, _ => none
  | fuel + 1, depth + 1, cs =>
    match cs with
    | '[' :: rest => readItems fuel depth [] rest
    | '\x7b' :: rest =>
      match skipSpaces rest with
      | '\x7d' :: rest => some (.object [], rest)
      | rest => readPairs fuel depth [] rest
    | cs => readScalar cs

def readItems : Nat → Nat → List Json.Value → List Char → Option (Json.Value × List Char)
  | 0, _, _, _ => none
  | fuel + 1, depth, done, cs =>
    match skipLines cs.length cs with
    | none => none
    | some (']' :: rest) => some (.array done.reverse, rest)
    | some cs =>
      match readValue fuel depth cs with
      | none => none
      | some (v, rest) =>
        match skipLines rest.length rest with
        | some (',' :: rest) => readItems fuel depth (v :: done) rest
        | some (']' :: rest) => some (.array (v :: done).reverse, rest)
        | _ => none

def readPairs : Nat → Nat → Entries → List Char → Option (Json.Value × List Char)
  | 0, _, _, _ => none
  | fuel + 1, depth, es, cs =>
    match readKey (cs.length + 1) [] cs with
    | some (path, name, '=' :: rest) =>
      match readValue fuel depth (skipSpaces rest) with
      | none => none
      | some (v, rest) =>
        match putValue path name (.leaf v) .header es with
        | none => none
        | some es =>
          match skipSpaces rest with
          | ',' :: rest => readPairs fuel depth es rest
          | '\x7d' :: rest => some ((Item.table .header es).value, rest)
          | _ => none
    | _ => none

end

/-- The nesting that values may have. -/
def maxDepth : Nat := 80

/-- The document read so far and the table that is open, as a path with its last name apart. -/
structure State where
  root : Entries
  current : Option (List String × String)

def State.put (s : State) (path : List String) (name : String) (v : Json.Value) : Option State :=
  let current := match s.current with
    | none => []
    | some (outer, last) => outer ++ [last]
  (change false (putValue path name (.leaf v)) current .header s.root).map fun root =>
    { s with root }

/-- Read one statement, which may be blank, up to the end of its line. -/
def readStatement (s : State) (cs : List Char) : Option (State × List Char) :=
  match skipSpaces cs with
  | '[' :: '[' :: rest => do
    let (path, name, rest) ← readKey (rest.length + 1) [] rest
    match rest with
    | ']' :: ']' :: rest =>
      some (⟨← openElement path name s.root, some (path, name)⟩, rest)
    | _ => none
  | '[' :: rest => do
    let (path, name, rest) ← readKey (rest.length + 1) [] rest
    match rest with
    | ']' :: rest => some (⟨← openTable path name s.root, some (path, name)⟩, rest)
    | _ => none
  | [] => some (s, [])
  | c :: rest =>
    if c = '#' || c = '\n' || c = '\r' then some (s, c :: rest)
    else do
      let (path, name, rest) ← readKey (rest.length + 2) [] (c :: rest)
      let rest ← expect '=' rest
      let (v, rest) ← readValue (2 * rest.length + 2) maxDepth (skipSpaces rest)
      some (← s.put path name v, rest)

def readStatements : Nat → State → List Char → Option State
  | 0, _, _ => none
  | fuel + 1, s, cs => do
    let (s, rest) ← readStatement s cs
    let rest ← skipComment (skipSpaces rest)
    match rest with
    | [] => some s
    | rest => readStatements fuel s (← newline? rest)

/-- Read a document, which may begin with a byte order mark. -/
def read (cs : List Char) : Option Json.Value :=
  let cs := match cs with
    | '\uFEFF' :: rest => rest
    | cs => cs
  (readStatements (cs.length + 1) ⟨[], none⟩ cs).map fun s => (Item.table .header s.root).value

end CodeAtlas.Toml
