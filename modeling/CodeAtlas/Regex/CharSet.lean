import CodeAtlas.Text.Unicode.Case
import CodeAtlas.Text.Unicode.Script
import CodeAtlas.Text.Unicode.Trait

/-! # Sets of characters

A set is kept as the expression that was written, and membership is decided by evaluating it. -/

namespace CodeAtlas.Regex

/-- Properties that a set can ask for by name. -/
inductive Property where
  | any | ascii | assigned
  | group (letter : Char)
  | category (g : Text.Unicode.Category)
  | casedLetter
  | script (s : Text.Unicode.Script)
  /-- Characters that are used with a script. -/
  | scriptUse (s : Text.Unicode.Script)
  | trait (name : String)
  | nameStart | nameContinue | stableNameStart | stableNameContinue
  | caseIgnorable | graphemeExtend | graphemeBase
  | alphabetic | lowercase | uppercase | cased | blank | word | decimal
  | asciiWord | asciiDigit | asciiBlank
deriving DecidableEq, Repr

namespace Property

open Text.Unicode in
def holds (c : Char) : Property → Bool
  | any => true
  | ascii => c.toNat < 128
  | assigned => Text.Unicode.category c ≠ .cn
  | group letter => (Text.Unicode.category c).group = letter
  | category g => Text.Unicode.category c = g
  | casedLetter => [Category.lu, .ll, .lt].contains (Text.Unicode.category c)
  | script s => Script.of c = s
  | scriptUse s => s.uses c
  | trait name => hasTrait name c
  | nameStart => startsName c
  | nameContinue => continuesName c
  | stableNameStart => startsStableName c
  | stableNameContinue => continuesStableName c
  | caseIgnorable => isCaseIgnorable c
  | graphemeExtend => extendsGrapheme c
  | graphemeBase => standsAlone c
  | alphabetic => isAlphabetic c
  | lowercase => isLowercase c
  | uppercase => isUppercase c
  | cased => isCased c
  | blank => isBlank c
  | word => isWord c
  | decimal => isDecimalDigit c
  | asciiWord => asciiAlphanumeric c || c = '_'
  | asciiDigit => Text.Unicode.asciiDigit c
  | asciiBlank => [' ', '\t', '\n', '\r', '\x0b', '\x0c'].contains c

/-- The names of the properties that a character has or lacks, in lower case and without blanks,
dashes and low lines. -/
def plainNames : List (String × Property) :=
  [("alphabetic", alphabetic), ("alpha", alphabetic), ("lowercase", lowercase),
   ("lower", lowercase), ("uppercase", uppercase), ("upper", uppercase), ("cased", cased),
   ("whitespace", blank), ("wspace", blank), ("space", blank),
   ("idstart", nameStart), ("ids", nameStart), ("idcontinue", nameContinue),
   ("idc", nameContinue), ("xidstart", stableNameStart), ("xids", stableNameStart),
   ("xidcontinue", stableNameContinue), ("xidc", stableNameContinue),
   ("caseignorable", caseIgnorable), ("ci", caseIgnorable),
   ("graphemeextend", graphemeExtend), ("grext", graphemeExtend),
   ("graphemebase", graphemeBase), ("grbase", graphemeBase)]

/-- The names of the general categories and of their groups. -/
def categoryNames : List (String × Property) :=
  [("any", any), ("ascii", ascii), ("assigned", assigned),
   ("l", group 'L'), ("letter", group 'L'), ("m", group 'M'), ("mark", group 'M'),
   ("combiningmark", group 'M'), ("n", group 'N'), ("number", group 'N'), ("p", group 'P'),
   ("punctuation", group 'P'), ("punct", group 'P'), ("s", group 'S'), ("symbol", group 'S'),
   ("z", group 'Z'), ("separator", group 'Z'), ("c", group 'C'), ("other", group 'C'),
   ("lc", casedLetter), ("casedletter", casedLetter),
   ("lu", category .lu), ("uppercaseletter", category .lu),
   ("ll", category .ll), ("lowercaseletter", category .ll),
   ("lt", category .lt), ("titlecaseletter", category .lt),
   ("lm", category .lm), ("modifierletter", category .lm),
   ("lo", category .lo), ("otherletter", category .lo),
   ("mn", category .mn), ("nonspacingmark", category .mn),
   ("mc", category .mc), ("spacingmark", category .mc),
   ("me", category .me), ("enclosingmark", category .me),
   ("nd", category .nd), ("decimalnumber", category .nd), ("digit", category .nd),
   ("nl", category .nl), ("letternumber", category .nl),
   ("no", category .no), ("othernumber", category .no),
   ("pc", category .pc), ("connectorpunctuation", category .pc),
   ("pd", category .pd), ("dashpunctuation", category .pd),
   ("ps", category .ps), ("openpunctuation", category .ps),
   ("pe", category .pe), ("closepunctuation", category .pe),
   ("pi", category .pi), ("initialpunctuation", category .pi),
   ("pf", category .pf), ("finalpunctuation", category .pf),
   ("po", category .po), ("otherpunctuation", category .po),
   ("sm", category .sm), ("mathsymbol", category .sm),
   ("sc", category .sc), ("currencysymbol", category .sc),
   ("sk", category .sk), ("modifiersymbol", category .sk),
   ("so", category .so), ("othersymbol", category .so),
   ("zs", category .zs), ("spaceseparator", category .zs),
   ("zl", category .zl), ("lineseparator", category .zl),
   ("zp", category .zp), ("paragraphseparator", category .zp),
   ("cc", category .cc), ("control", category .cc), ("cntrl", category .cc),
   ("cf", category .cf), ("format", category .cf),
   ("cs", category .cs), ("surrogate", category .cs),
   ("co", category .co), ("privateuse", category .co),
   ("cn", category .cn), ("unassigned", category .cn)]

/-- Names agree whatever their case, blanks, dashes, low lines and a leading `is`.  What is left of
the name `isc` would be another name, so it keeps its beginning. -/
def plainName (name : List Char) : String :=
  let (starts, rest) := match name with
    | i :: s :: rest =>
      if (i = 'i' || i = 'I') && (s = 's' || s = 'S') then (true, rest) else (false, name)
    | _ => (false, name)
  let kept := rest.filter fun c => c.toNat < 128 && !(c = ' ' || c = '-' || c = '_')
  let lower := String.ofList (kept.map Char.toLower)
  if starts && lower = "c" then "isc" else lower

def ofCategoryName? (name : String) : Option Property :=
  categoryNames.lookup name

/-- The property that a name by itself stands for. -/
def ofName? (name : List Char) : Option Property :=
  let name := plainName name
  (plainNames.lookup name) <|>
    ((Text.Unicode.traitTable.find? fun (names, _) => names.contains name).map fun _ =>
      trait name) <|>
    ofCategoryName? name <|> (Text.Unicode.Script.ofName? name).map script

/-- The property of having a value of another property. -/
def ofValue? (name value : List Char) : Option Property :=
  let value := plainName value
  match plainName name with
  | "generalcategory" | "gc" => ofCategoryName? value
  | "script" | "sc" => (Text.Unicode.Script.ofName? value).map script
  | "scriptextensions" | "scx" => (Text.Unicode.Script.ofName? value).map scriptUse
  | _ => none

/-- The octets of memory that a matcher takes for the characters with a property, to about a
tenth. -/
def weight : Property → Nat
  | ascii | asciiWord | asciiDigit | asciiBlank => 96
  | any => 964
  | blank => 680
  | decimal => 4504
  | word | nameStart | nameContinue | stableNameStart | stableNameContinue => 46688
  | alphabetic | assigned | graphemeBase => 42000
  | lowercase | uppercase | cased | casedLetter => 27000
  | caseIgnorable | graphemeExtend => 17000
  | group 'L' | group 'C' => 40500
  | group 'M' => 17452
  | group 'N' => 9100
  | group 'P' => 11336
  | group 'S' => 15384
  | group _ => 608
  | category .lu | category .ll => 27000
  | category .lo => 25000
  | category .cn => 40000
  | category .mn | category .so | category .po => 12000
  | category .zs | category .zl | category .zp | category .cc | category .cs => 680
  | category _ => 4000
  | script _ | scriptUse _ | trait _ => 2000

end Property

inductive CharSet where
  | nothing
  | range (lo hi : Char)
  | having (p : Property)
  | either (a b : CharSet)
  | both (a b : CharSet)
  | minus (a b : CharSet)
  | outside (a : CharSet)
  /-- The characters that differ at most in case from one in the set. -/
  | anyCase (a : CharSet)
deriving Repr

namespace CharSet

def contains : CharSet → Char → Bool
  | nothing, _ => false
  | range lo hi, c => lo ≤ c && c ≤ hi
  | having p, c => p.holds c
  | either a b, c => a.contains c || b.contains c
  | both a b, c => a.contains c && b.contains c
  | minus a b, c => a.contains c && !b.contains c
  | outside a, c => !a.contains c
  | anyCase a, c => (Text.Unicode.caseVariants c).any fun d => a.contains d

def single (c : Char) : CharSet :=
  range c c

def ofRanges (ranges : List (Char × Char)) : CharSet :=
  ranges.foldr (fun (lo, hi) acc => either (range lo hi) acc) nothing

/-- The sets written by name between colons. -/
def posix? (name : String) : Option CharSet :=
  [("alnum", [('0', '9'), ('A', 'Z'), ('a', 'z')]), ("alpha", [('A', 'Z'), ('a', 'z')]),
   ("ascii", [('\x00', '\x7f')]), ("blank", [('\t', '\t'), (' ', ' ')]),
   ("cntrl", [('\x00', '\x1f'), ('\x7f', '\x7f')]), ("digit", [('0', '9')]),
   ("graph", [('!', '~')]), ("lower", [('a', 'z')]), ("print", [(' ', '~')]),
   ("punct", [('!', '/'), (':', '@'), ('[', '\x60'), ('\x7b', '~')]),
   ("space", [('\t', '\r'), (' ', ' ')]), ("upper", [('A', 'Z')]),
   ("word", [('0', '9'), ('A', 'Z'), ('_', '_'), ('a', 'z')]),
   ("xdigit", [('0', '9'), ('A', 'F'), ('a', 'f')])].lookup name |>.map ofRanges

/-- The octets of memory that a matcher takes for a set.  A property takes the more, the more
stretches there are in which its characters lie; an operation is charged as if one of its sets were
small. -/
def weight : CharSet → Nat
  | nothing => 32
  | range lo hi => if hi.toNat < 128 then (if lo = hi then 32 else 72) else 32 * hi.utf8Size
  | having p => p.weight
  | either a b => max a.weight b.weight + 8
  | both a b => min a.weight b.weight
  | minus a _ => a.weight
  | outside a => a.weight + 964
  | anyCase a => a.weight + 48

end CharSet

end CodeAtlas.Regex
