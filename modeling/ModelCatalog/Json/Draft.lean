import ModelCatalog.Json.Numeral

/-! JSON text read as far as it is well formed.

A draft keeps the place at which a text breaks off. Whoever goes through it from left to right
meets a break exactly where a reader of the text would, and never looks beyond it. -/

namespace ModelCatalog

/-- A JSON value as found in a text. -/
inductive Draft where
  | null
  | boolean (value : Bool)
  /-- A number, unless it is too large. -/
  | number (value : Option JsonNumber)
  /-- A string, unless it holds half of a surrogate pair. -/
  | string (text : Option String)
  /-- Items, and whether the closing bracket follows them. -/
  | array (items : List Draft) (closed : Bool)
  /-- Members, and whether the closing brace follows them. -/
  | object (members : List (Option String × Draft)) (closed : Bool)
  /-- The text is not JSON at this place. -/
  | broken

namespace Draft

/-- Leave out blanks. -/
def skipBlanks (characters : List Char) : List Char :=
  characters.dropWhile fun character =>
    character == ' ' || character == '\n' || character == '\t' || character == '\r'

/-- The value of a hexadecimal digit. -/
def hexDigit? (character : Char) : Option Nat :=
  if '0' ≤ character ∧ character ≤ '9' then some (character.toNat - 48)
  else if 'a' ≤ character ∧ character ≤ 'f' then some (character.toNat - 87)
  else if 'A' ≤ character ∧ character ≤ 'F' then some (character.toNat - 55)
  else none

/-- The value of four hexadecimal digits in front of a text. -/
def hexQuad? : List Char → Option (Nat × List Char)
  | a :: b :: c :: d :: rest => do
    let high := (← hexDigit? a) * 16 + (← hexDigit? b)
    let low := (← hexDigit? c) * 16 + (← hexDigit? d)
    return (high * 256 + low, rest)
  | _ => none

/-- A character escaped by one letter. -/
def namedEscape? : Char → Option Char
  | '"' => some '"'
  | '\\' => some '\\'
  | '/' => some '/'
  | 'b' => some '\x08'
  | 'f' => some '\x0c'
  | 'n' => some '\n'
  | 'r' => some '\r'
  | 't' => some '\t'
  | _ => none

/-- Half of a surrogate pair, the first or the second. -/
def isHigh (unit : Nat) : Bool := 0xd800 ≤ unit && unit < 0xdc00

@[inherit_doc isHigh]
def isLow (unit : Nat) : Bool := 0xdc00 ≤ unit && unit < 0xe000

/-- Read the rest of a string, whose characters so far stand in reverse order, or are given up
after half of a pair. Nothing is read from a string that is not well formed. -/
def scanString : Nat → Option (List Char) → List Char → Option (Option String × List Char)
  | 0, _, _ => none
  | fuel + 1, read, characters =>
    match characters with
    | [] => none
    | '"' :: rest => some (read.map fun read => String.ofList read.reverse, rest)
    | '\\' :: 'u' :: rest => do
      let (unit, rest) ← hexQuad? rest
      if isHigh unit then
        match rest with
        | '\\' :: 'u' :: further =>
          let (second, after) ← hexQuad? further
          if isLow second then
            let code := 0x10000 + (unit - 0xd800) * 0x400 + (second - 0xdc00)
            scanString fuel (read.map (Char.ofNat code :: ·)) after
          else scanString fuel none rest
        | _ => scanString fuel none rest
      else if isLow unit then scanString fuel none rest
      else scanString fuel (read.map (Char.ofNat unit :: ·)) rest
    | '\\' :: letter :: rest => do
      let character ← namedEscape? letter
      scanString fuel (read.map (character :: ·)) rest
    | character :: rest =>
      if character.toNat < 32 ∨ character = '\\' then none
      else scanString fuel (read.map (character :: ·)) rest

/-- What a text begins with, and what follows it unless the text breaks off. -/
abbrev Scanned (α : Type) := α × Option (List Char)

mutual

/-- Read a value. -/
def scanValue : Nat → List Char → Scanned Draft
  | 0, _ => (broken, none)
  | fuel + 1, characters =>
    match skipBlanks characters with
    | 'n' :: 'u' :: 'l' :: 'l' :: rest => (null, some rest)
    | 't' :: 'r' :: 'u' :: 'e' :: rest => (boolean true, some rest)
    | 'f' :: 'a' :: 'l' :: 's' :: 'e' :: rest => (boolean false, some rest)
    | '"' :: rest =>
      match scanString (rest.length + 1) (some []) rest with
      | some (text, rest) => (string text, some rest)
      | none => (broken, none)
    | '[' :: rest =>
      match skipBlanks rest with
      | ']' :: rest => (array [] true, some rest)
      | rest =>
        let items := scanItems fuel rest
        (array items.1 items.2.isSome, items.2)
    | '\x7b' :: rest =>
      match skipBlanks rest with
      | '\x7d' :: rest => (object [] true, some rest)
      | rest =>
        let members := scanMembers fuel rest
        (object members.1 members.2.isSome, members.2)
    | characters =>
      match Numeral.split characters with
      | some (parts, rest) => (number (Numeral.value parts), some rest)
      | none => (broken, none)

/-- Read the items of an array, of which there is at least one, up to the closing bracket. -/
def scanItems : Nat → List Char → Scanned (List Draft)
  | 0, _ => ([], none)
  | fuel + 1, characters =>
    let item := scanValue fuel characters
    match item.2.map skipBlanks with
    | some (',' :: rest) =>
      let further := scanItems fuel rest
      (item.1 :: further.1, further.2)
    | some (']' :: rest) => ([item.1], some rest)
    | _ => ([item.1], none)

/-- Read the members of an object, of which there is at least one, up to the closing brace. -/
def scanMembers : Nat → List Char → Scanned (List (Option String × Draft))
  | 0, _ => ([], none)
  | fuel + 1, characters =>
    match skipBlanks characters with
    | '"' :: rest =>
      match scanString (rest.length + 1) (some []) rest with
      | none => ([], none)
      | some (name, rest) =>
        match skipBlanks rest with
        | ':' :: rest =>
          let value := scanValue fuel rest
          match value.2.map skipBlanks with
          | some (',' :: rest) =>
            let further := scanMembers fuel rest
            ((name, value.1) :: further.1, further.2)
          | some ('\x7d' :: rest) => ([(name, value.1)], some rest)
          | _ => ([(name, value.1)], none)
        | _ => ([(name, broken)], none)
    | _ => ([], none)

end

/-- Read a whole text: the value it begins with, and whether nothing else follows. -/
def ofText (text : String) : Draft × Bool :=
  let characters := text.toList
  let scanned := scanValue (2 * characters.length + 2) characters
  (scanned.1, (scanned.2.map skipBlanks) == some [])

mutual

/-- The value is well formed throughout, whatever it holds. -/
def isWhole : Draft → Bool
  | broken => false
  | array items closed => closed && areWhole items
  | object members closed => closed && haveWholeValues members
  | _ => true

/-- All items are well formed throughout. -/
def areWhole : List Draft → Bool
  | [] => true
  | item :: rest => item.isWhole && areWhole rest

/-- All values of members are well formed throughout. -/
def haveWholeValues : List (Option String × Draft) → Bool
  | [] => true
  | (_, value) :: rest => value.isWhole && haveWholeValues rest

end

/-- How deep values may lie within each other. -/
def maxDepth : Nat := 127

mutual

/-- The value, unless it is malformed or too deep; its members come in order of name, and the
last of several of the same name counts. -/
def value? : Nat → Draft → Option Json
  | _, null => some .null
  | _, boolean value => some (.boolean value)
  | _, number value => value.map .number
  | _, string text => text.map .string
  | 0, array .. => none
  | depth + 1, array items closed => do
    let items ← values? depth items
    if closed then some (.array items) else none
  | 0, object .. => none
  | depth + 1, object members closed => do
    let members ← memberValues? depth [] members
    if closed then some (.object members) else none
  | _, broken => none

/-- The values of items. -/
def values? : Nat → List Draft → Option (List Json)
  | _, [] => some []
  | depth, item :: rest => do
    let value ← value? depth item
    let values ← values? depth rest
    return value :: values

/-- The members of an object, filed by name into those that came before. -/
def memberValues? : Nat → List (String × Json) → List (Option String × Draft) →
    Option (List (String × Json))
  | _, filed, [] => some filed
  | depth, filed, (name, value) :: rest => do
    let name ← name
    let value ← value? depth value
    memberValues? depth (Json.placeMember name value filed) rest

end

end Draft

/-- The JSON value of a text, unless the text is malformed. -/
def Json.ofText (text : String) : Option Json :=
  match Draft.ofText text with
  | (draft, true) => draft.value? Draft.maxDepth
  | (_, false) => none

end ModelCatalog
