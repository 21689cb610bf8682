import CodeAtlas.Text.Unicode.Property

/-! # Quoted text

Text is quoted in messages so that every character of it shows. -/

namespace CodeAtlas.Text

/-- A character by its number. -/
def escapeByNumber (c : Char) : List Char :=
  "\\u\x7b".toList ++ Nat.toDigits 16 c.toNat ++ ['\x7d']

def escapeQuoted (c : Char) : List Char :=
  if c = '"' then ['\\', '"']
  else if c = '\\' then ['\\', '\\']
  else if c = '\n' then ['\\', 'n']
  else if c = '\r' then ['\\', 'r']
  else if c = '\t' then ['\\', 't']
  else if c = '\x00' then ['\\', '0']
  else if c.toNat ≥ 128 && Unicode.extendsGrapheme c then escapeByNumber c
  else if Unicode.isPrintable c then [c]
  else escapeByNumber c

def quoted (s : String) : String :=
  String.ofList ('"' :: s.toList.flatMap escapeQuoted ++ ['"'])

end CodeAtlas.Text
