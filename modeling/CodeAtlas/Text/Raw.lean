import CodeAtlas.Text.Utf8

/-! # Raw text

The names that a file system holds are octets, which need not be text.  Raw text can be read as
text, unless some of it is ill-formed, and it can be shown, with a mark for each part that is. -/

namespace CodeAtlas

structure RawText where
  octets : List UInt8
deriving DecidableEq, Repr

namespace RawText

def ofString (s : String) : RawText where
  octets := Text.Utf8.encode s.toList

instance : Coe String RawText := ⟨ofString⟩

/-- What gives a text, gives raw text. -/
instance {α : Type} : Coe (α → String) (α → RawText) := ⟨fun f a => ofString (f a)⟩

/-- The text that these octets are, if they are one. -/
def text? (r : RawText) : Option String :=
  (Text.Utf8.decodeStrict? r.octets).map String.ofList

/-- The octets as text, with a mark for each part that is none. -/
def shown (r : RawText) : String :=
  String.ofList (Text.Utf8.decodeLossy r.octets)

end RawText

end CodeAtlas
