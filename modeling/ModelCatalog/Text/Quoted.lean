import ModelCatalog.Text.CodePoints

/-! Text in double quotes, as messages show it. -/

namespace ModelCatalog.Text

/-- A character given by its code point in hexadecimal digits. -/
def byNumber (character : Char) : List Char :=
  '\\' :: 'u' :: '\x7b' :: Nat.toDigits 16 character.toNat ++ ['\x7d']

/-- One character between double quotes: what cannot be seen is written by name or number. -/
def shown (character : Char) : List Char :=
  if character = '"' then ['\\', '"']
  else if character = '\\' then ['\\', '\\']
  else if character = '\n' then ['\\', 'n']
  else if character = '\r' then ['\\', 'r']
  else if character = '\t' then ['\\', 't']
  else if character = '\x00' then ['\\', '0']
  else if combining.contains character || unprintable.contains character then
    byNumber character
  else [character]

/-- A text in double quotes, on one line and without invisible characters. -/
def quoted (text : String) : String :=
  String.ofList ('"' :: text.toList.flatMap shown ++ ['"'])

end ModelCatalog.Text
