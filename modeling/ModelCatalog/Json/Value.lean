import ModelCatalog.Number.Layout

/-! JSON values and their written form. -/

namespace ModelCatalog

/-- A number in JSON: a whole number of at most 64 bits, or a double-precision one. -/
inductive JsonNumber where
  | integer (value : Int)
  | float (value : Binary64)
  deriving DecidableEq, Repr

/-- A JSON value; the members of an object stand in the order in which they are written. -/
inductive Json where
  | null
  | boolean (value : Bool)
  | number (value : JsonNumber)
  | string (text : String)
  | array (items : List Json)
  | object (members : List (String × Json))
  deriving Repr

namespace JsonNumber

/-- JSON numbers have a point or an exponent when they are not integers, and an exponent when they
are very large or very small. -/
def layout : NumberLayout where
  tie := .toEven
  positional := fun leading => -5 ≤ leading && leading < 16
  wholeMark := ".0"

/-- The written form of a number. -/
def text : JsonNumber → String
  | integer value => toString value
  | float value => layout.write value

end JsonNumber

namespace Json

/-- The JSON number nearest in kind to a double-precision one; what is not finite is null. -/
def ofBinary64 (value : Binary64) : Json :=
  if value.isFinite then .number (.float value) else .null

/-- A natural number as JSON. -/
def ofNat (value : Nat) : Json := .number (.integer value)

/-- An optional text as JSON. -/
def ofText? : Option String → Json
  | some text => .string text
  | none => .null

/-- Two hexadecimal digits of a small number. -/
def hexPair (code : Nat) : List Char :=
  let digits := Nat.toDigits 16 code
  List.replicate (2 - digits.length) '0' ++ digits

/-- One character of a string: quotes, backslashes and controls are written by name or number. -/
def escaped (character : Char) : List Char :=
  if character = '"' then ['\\', '"']
  else if character = '\\' then ['\\', '\\']
  else if character.toNat = 8 then ['\\', 'b']
  else if character = '\t' then ['\\', 't']
  else if character = '\n' then ['\\', 'n']
  else if character.toNat = 12 then ['\\', 'f']
  else if character = '\r' then ['\\', 'r']
  else if character.toNat < 32 then ['\\', 'u', '0', '0'] ++ hexPair character.toNat
  else [character]

/-- A string in quotes. -/
def quoted (text : String) : String :=
  String.ofList ('"' :: text.toList.flatMap escaped ++ ['"'])

mutual

/-- The written form of a value, without blanks. -/
def text : Json → String
  | null => "null"
  | boolean true => "true"
  | boolean false => "false"
  | number value => value.text
  | string value => quoted value
  | array items => "[" ++ String.intercalate "," (itemTexts items) ++ "]"
  | object members => "\x7b" ++ String.intercalate "," (memberTexts members) ++ "\x7d"

/-- The written forms of items. -/
def itemTexts : List Json → List String
  | [] => []
  | item :: rest => item.text :: itemTexts rest

/-- The written forms of members. -/
def memberTexts : List (String × Json) → List String
  | [] => []
  | (name, value) :: rest => (quoted name ++ ":" ++ value.text) :: memberTexts rest

end

/-- Put a member in its place by name, in the stead of one of the same name. -/
def placeMember (name : String) (value : Json) : List (String × Json) → List (String × Json)
  | [] => [(name, value)]
  | (first, old) :: rest =>
    if name < first then (name, value) :: (first, old) :: rest
    else if first < name then (first, old) :: placeMember name value rest
    else (name, value) :: rest

end Json

end ModelCatalog
