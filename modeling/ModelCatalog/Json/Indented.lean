import ModelCatalog.Json.Value

/-! JSON laid out on several lines, for readers of a terminal. -/

namespace ModelCatalog

namespace Json

/-- The blanks in front of a line at some depth. -/
def margin (depth : Nat) : String := String.ofList (List.replicate (2 * depth) ' ')

/-- Lines between two brackets; without lines the brackets stand next to each other. -/
def block (opening closing : String) (depth : Nat) : List String → String
  | [] => opening ++ closing
  | lines =>
    let inner := lines.map fun line => margin (depth + 1) ++ line
    opening ++ "\n" ++ String.intercalate ",\n" inner ++ "\n" ++ margin depth ++ closing

mutual

/-- The written form of a value whose members and items have lines of their own. -/
def indented (depth : Nat) : Json → String
  | array items => block "[" "]" depth (indentedItems (depth + 1) items)
  | object members => block "\x7b" "\x7d" depth (indentedMembers (depth + 1) members)
  | null => text null
  | boolean value => text (boolean value)
  | number value => text (number value)
  | string value => text (string value)

/-- The lines of items. -/
def indentedItems (depth : Nat) : List Json → List String
  | [] => []
  | item :: rest => item.indented depth :: indentedItems depth rest

/-- The lines of members. -/
def indentedMembers (depth : Nat) : List (String × Json) → List String
  | [] => []
  | (name, value) :: rest =>
    (quoted name ++ ": " ++ value.indented depth) :: indentedMembers depth rest

end

end Json

end ModelCatalog
