import CodeAtlas.Text.Unicode.Property

/-! # Lines, blanks and cuts

A line ends at a newline, which does not belong to it, nor does one carriage return before that
newline.  Text after the last newline is a line only if there is any. -/

namespace CodeAtlas.Text

/-- Remove the carriage return that came last, from a line kept in reverse order. -/
def endLine : List Char → List Char
  | '\r' :: rest => rest.reverse
  | line => line.reverse

/-- Split what follows, with the finished lines and the current one in reverse order. -/
def linesOnto (done : List (List Char)) (current : List Char) : List Char → List (List Char)
  | [] => (if current.isEmpty then done else current.reverse :: done).reverse
  | c :: rest =>
    if c = '\n' then linesOnto (endLine current :: done) [] rest
    else linesOnto done (c :: current) rest

def lines (text : List Char) : List (List Char) :=
  linesOnto [] [] text

def trimStart (cs : List Char) : List Char :=
  cs.dropWhile Unicode.isBlank

def trimEnd (cs : List Char) : List Char :=
  (cs.reverse.dropWhile Unicode.isBlank).reverse

def trim (cs : List Char) : List Char :=
  trimEnd (trimStart cs)

def allBlank (cs : List Char) : Bool :=
  cs.all Unicode.isBlank

/-- Keep at most `limit` characters and mark a cut with an ellipsis; the flag tells of a cut. -/
def truncate (limit : Nat) (cs : List Char) : List Char × Bool :=
  if (cs.drop limit).isEmpty then (cs, false) else (cs.take limit ++ ['…'], true)

/-- The pieces between the separators, one more than there are separators. -/
def splitOn {α : Type} [DecidableEq α] (separator : α) (cs : List α) : List (List α) :=
  let (done, current) := cs.foldl
    (fun (done, current) c =>
      if c = separator then (current.reverse :: done, []) else (done, c :: current))
    (([] : List (List α)), ([] : List α))
  (current.reverse :: done).reverse

/-- The first line without the blanks around it. -/
def firstLineTrimmed (cs : List Char) : List Char :=
  trim ((lines cs).headD [])

def dropPrefix? (pre : List Char) (cs : List Char) : Option (List Char) :=
  if pre.isPrefixOf cs then some (cs.drop pre.length) else none

end CodeAtlas.Text

namespace String

/-- The text without the blanks around it. -/
def strip (s : String) : String :=
  String.ofList (CodeAtlas.Text.trim s.toList)

end String
