/-! # Decoding UTF-8

Octets are decoded with every maximal ill-formed part marked.  The lossy reading shows each marked
part as one replacement character; the strict reading refuses text that has any. -/

namespace CodeAtlas.Text.Utf8

def isContinuation (b : UInt8) : Bool :=
  0x80 ≤ b && b ≤ 0xBF

/-- The octets that may follow the first one of a sequence of three. -/
def secondOfThree (a b : UInt8) : Bool :=
  if a = 0xE0 then 0xA0 ≤ b && b ≤ 0xBF
  else if a = 0xED then 0x80 ≤ b && b ≤ 0x9F
  else isContinuation b

/-- The octets that may follow the first one of a sequence of four. -/
def secondOfFour (a b : UInt8) : Bool :=
  if a = 0xF0 then 0x90 ≤ b && b ≤ 0xBF
  else if a = 0xF4 then 0x80 ≤ b && b ≤ 0x8F
  else isContinuation b

def lowBits (b : UInt8) (n : Nat) : Nat :=
  b.toNat % Nat.pow 2 n

/-- Split the next character off, or the next maximal ill-formed part, given as `none`. -/
def next (a : UInt8) (rest : List UInt8) : Option Char × List UInt8 :=
  if a < 0x80 then (some (Char.ofNat a.toNat), rest)
  else if 0xC2 ≤ a && a ≤ 0xDF then
    match rest with
    | b :: rest' =>
      if isContinuation b then (some (Char.ofNat (lowBits a 5 * 64 + lowBits b 6)), rest')
      else (none, rest)
    | [] => (none, rest)
  else if 0xE0 ≤ a && a ≤ 0xEF then
    match rest with
    | b :: rest' =>
      if secondOfThree a b then
        match rest' with
        | c :: rest'' =>
          if isContinuation c then
            (some (Char.ofNat (lowBits a 4 * 4096 + lowBits b 6 * 64 + lowBits c 6)), rest'')
          else (none, rest')
        | [] => (none, rest')
      else (none, rest)
    | [] => (none, rest)
  else if 0xF0 ≤ a && a ≤ 0xF4 then
    match rest with
    | b :: rest' =>
      if secondOfFour a b then
        match rest' with
        | c :: rest'' =>
          if isContinuation c then
            match rest'' with
            | d :: rest''' =>
              if isContinuation d then
                (some (Char.ofNat (lowBits a 3 * 262144 + lowBits b 6 * 4096 + lowBits c 6 * 64 +
                  lowBits d 6)), rest''')
              else (none, rest'')
            | [] => (none, rest'')
          else (none, rest')
        | [] => (none, rest')
      else (none, rest)
    | [] => (none, rest)
  else (none, rest)

theorem length_next_le (a : UInt8) (rest : List UInt8) :
    (next a rest).2.length ≤ rest.length := by
  unfold next
  repeat' split
  all_goals simp_all only [List.length_cons, List.length_nil]
  all_goals omega

/-- Decode from the front, with what is decoded so far in reverse order. -/
def decodeOnto (done : List (Option Char)) : List UInt8 → List (Option Char)
  | [] => done.reverse
  | a :: rest => decodeOnto ((next a rest).1 :: done) (next a rest).2
termination_by octets => octets.length
decreasing_by
  have := length_next_le a rest
  simp only [List.length_cons]
  omega

def decode (octets : List UInt8) : List (Option Char) :=
  decodeOnto [] octets

def replacement : Char := '\uFFFD'

def decodeLossy (octets : List UInt8) : List Char :=
  (decode octets).map fun c => c.getD replacement

def decodeStrict? (octets : List UInt8) : Option (List Char) :=
  let parts := decode octets
  if parts.all Option.isSome then some (parts.filterMap id) else none

def encode (cs : List Char) : List UInt8 :=
  cs.flatMap String.utf8EncodeChar

/-- The characters that take the first octets of a text, unless a character is cut there. -/
def takeOctets? : Nat → List Char → Option (List Char)
  | 0, _ => some []
  | _ + 1, [] => none
  | n + 1, c :: rest =>
    if c.utf8Size ≤ n + 1 then (takeOctets? (n + 1 - c.utf8Size) rest).map (c :: ·) else none

/-- The octets a text takes. -/
def size (cs : List Char) : Nat :=
  cs.foldl (fun n c => n + c.utf8Size) 0

end CodeAtlas.Text.Utf8
