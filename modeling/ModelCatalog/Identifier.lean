import ModelCatalog.Error

/-! Names that may stand in generated SQL. -/

namespace ModelCatalog

/-- The longest name a database keeps in full. -/
def maxIdentifierLength : Nat := 63

/-- A character that may open an identifier: an unaccented letter or an underscore. -/
def startsIdentifier (character : Char) : Bool := character.isAlpha || character == '_'

/-- A character that may follow in an identifier: also a digit. -/
def continuesIdentifier (character : Char) : Bool := character.isAlphanum || character == '_'

/-- A name that may stand in SQL: letters, digits and underscores, no digit in front, and no
longer than the limit. -/
def isIdentifier (name : String) : Bool :=
  match name.toList with
  | [] => false
  | first :: rest =>
    startsIdentifier first && rest.all continuesIdentifier &&
      rest.length < maxIdentifierLength

/-- A name that has passed the identifier policy. -/
structure Identifier where
  text : String
  valid : isIdentifier text = true
  deriving DecidableEq

namespace Identifier

/-- Admit a name, or refuse it at a place in a model. -/
def checkAt (place : Option Place) (name : String) : Except Error Identifier :=
  if valid : isIdentifier name = true then .ok ⟨name, valid⟩
  else .error (.invalidIdentifier name place)

/-- Admit a name that no model is to be blamed for. -/
def check (name : String) : Except Error Identifier := checkAt none name

/-- The name in double quotes, as SQL writes it. -/
def quoted (name : Identifier) : String := "\"" ++ name.text ++ "\""

end Identifier

/-- The text of a string literal: in single quotes, with those inside written twice. -/
def quoteLiteral (value : String) : String :=
  "'" ++ String.ofList (value.toList.flatMap fun character =>
    if character = '\'' then ['\'', '\''] else [character]) ++ "'"

end ModelCatalog
