import CodeAtlas.Json.Value
import CodeAtlas.Text.Utf8

/-! # Spans

A span is a stretch of a source, given both in octets and in rows and columns.  Rows are ended by
newlines and columns count octets; both start at zero. -/

namespace CodeAtlas.Syntax

structure Point where
  row : Nat
  column : Nat
deriving DecidableEq, Repr, Inhabited

namespace Point

def before (p q : Point) : Bool :=
  p.row < q.row || (p.row = q.row && p.column < q.column)

/-- The point after one more octet. -/
def advance (p : Point) (octet : UInt8) : Point :=
  if octet = 10 then ⟨p.row + 1, 0⟩ else ⟨p.row, p.column + 1⟩

/-- The point of an offset in a source. -/
def ofOffset (source : List UInt8) (offset : Nat) : Point :=
  (source.take offset).foldl advance ⟨0, 0⟩

end Point

structure Span where
  startByte : Nat
  endByte : Nat
  startRow : Nat
  startColumn : Nat
  endRow : Nat
  endColumn : Nat
deriving DecidableEq, Repr, Inhabited

namespace Span

/-- The stretch of a source between two offsets. -/
def ofOffsets (source : List UInt8) (start stop : Nat) : Span :=
  let first := Point.ofOffset source start
  let last := Point.ofOffset source stop
  ⟨start, stop, first.row, first.column, last.row, last.column⟩

def startPoint (s : Span) : Point := ⟨s.startRow, s.startColumn⟩

def endPoint (s : Span) : Point := ⟨s.endRow, s.endColumn⟩

/-- The number of the first line, counted from one. -/
def startLine (s : Span) : Nat := s.startRow + 1

def endLine (s : Span) : Nat := s.endRow + 1

def lineCount (s : Span) : Nat := s.endRow - s.startRow + 1

/-- Whether a point lies in the span, both ends included. -/
def contains (s : Span) (p : Point) : Bool :=
  !p.before s.startPoint && !s.endPoint.before p

/-- The octets of the span, where it lies in the source. -/
def octets (s : Span) (source : List UInt8) : List UInt8 :=
  if s.startByte ≤ s.endByte ∧ s.endByte ≤ source.length then
    (source.drop s.startByte).take (s.endByte - s.startByte)
  else []

def text (s : Span) (source : List UInt8) : String :=
  String.ofList (Text.Utf8.decodeLossy (s.octets source))

def toValue (s : Span) : Json.Value :=
  .object [
    ("start_byte", .nat s.startByte), ("end_byte", .nat s.endByte),
    ("start_row", .nat s.startRow), ("start_column", .nat s.startColumn),
    ("end_row", .nat s.endRow), ("end_column", .nat s.endColumn)]

end Span

end CodeAtlas.Syntax
