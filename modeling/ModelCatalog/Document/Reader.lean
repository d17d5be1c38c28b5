import ModelCatalog.Document.Basic
import ModelCatalog.Json.Draft

/-! Reading documents from JSON text, from left to right up to the first problem.

Documents are objects, or arrays of the attributes in order of declaration. Unknown attributes are
passed over. -/

namespace ModelCatalog

/-- What a text holds instead of a document. -/
inductive ReadFault where
  /-- The text is not JSON, or goes beyond what is read of it. -/
  | malformed
  | missing (key : String)
  | repeated (key : String)
  | wrongType (found expected : String)
  | tooShort (count : Nat) (expected : String)
  deriving DecidableEq, Repr

/-- The text of a fault. -/
def ReadFault.reason : ReadFault → String
  | malformed => "malformed JSON"
  | missing key => "missing field `" ++ key ++ "`"
  | repeated key => "duplicate field `" ++ key ++ "`"
  | wrongType found expected => "invalid type: " ++ found ++ ", expected " ++ expected
  | tooShort count expected => "invalid length " ++ toString count ++ ", expected " ++ expected

namespace Reading

/-- The result of reading. -/
abbrev Read (α : Type) := Except ReadFault α

/-- The fault of a value that is not of the expected form. -/
def unexpected (expected : String) : Draft → ReadFault
  | .null => .wrongType "null" expected
  | .boolean value => .wrongType ("boolean `" ++ (Json.boolean value).text ++ "`") expected
  | .number (some (.integer value)) =>
    .wrongType ("integer `" ++ toString value ++ "`") expected
  | .number (some (.float value)) =>
    .wrongType ("floating point `" ++ (JsonNumber.float value).text ++ "`") expected
  | .string (some text) => .wrongType ("string " ++ Text.quoted text) expected
  | .array .. => .wrongType "sequence" expected
  | .object .. => .wrongType "map" expected
  | .number none | .string none | .broken => .malformed

/-- Read a string. -/
def readText : Draft → Read String
  | .string (some text) => .ok text
  | other => .error (unexpected "a string" other)

/-- Read a truth value. -/
def readFlag : Draft → Read Bool
  | .boolean value => .ok value
  | other => .error (unexpected "a boolean" other)

/-- Read something that may be null instead. -/
def readOptional {α : Type} (read : Draft → Read α) : Draft → Read (Option α)
  | .null => .ok none
  | other => (read other).map some

/-- Read the items of an array. -/
def readList {α : Type} (read : Draft → Read α) : Draft → Read (List α)
  | .array items closed => do
    -- The items are read first, so a fault in one of them comes before an open end.
    let values ← items.mapM read
    if closed then return values else throw .malformed
  | other => .error (unexpected "a sequence" other)

/-- Read any value that lies no deeper than allowed. -/
def readValue (depth : Nat) (draft : Draft) : Read Json :=
  match draft.value? depth with
  | some value => .ok value
  | none => .error .malformed

/-- How documents of some kind are read: attribute by attribute into an unfinished one. -/
structure Shape (α : Type) where
  /-- The name of the kind, in messages. -/
  label : String
  /-- The attributes in order of declaration, and whether each is required. -/
  attributes : List (String × Bool)
  /-- The attribute for which a name stands. -/
  canonical : String → String
  /-- The document of which nothing has been read. -/
  blank : α
  /-- Read one attribute. -/
  set : String → Draft → α → Read α

/-- Read the members of an object; those `seen` have been read already. -/
def readMembers {α : Type} (shape : Shape α) (closed : Bool) :
    List String → α → List (Option String × Draft) → Read α
  | seen, document, [] =>
    -- What is missing can be told only once the object has ended.
    if !closed then .error .malformed
    else
      match shape.attributes.find? fun key => key.2 && !seen.contains key.1 with
      | some key => .error (.missing key.1)
      | none => .ok document
  | _, _, (none, _) :: _ => .error .malformed
  | seen, document, (some name, value) :: rest => do
    let key := shape.canonical name
    if shape.attributes.any fun known => known.1 == key then
      -- A second name for an attribute repeats it like the first.
      if seen.contains key then throw (.repeated key)
      let document ← shape.set key value document
      readMembers shape closed (key :: seen) document rest
    -- An attribute that is not known need only be well formed.
    else if value.isWhole then readMembers shape closed seen document rest
    else throw .malformed

/-- Read the items of an array as attributes in order of declaration; `count` have been read. -/
def readItems {α : Type} (shape : Shape α) (closed : Bool) (count : Nat) :
    List (String × Bool) → α → List Draft → Read α
  | [], document, [] => if closed then .ok document else .error .malformed
  | [], _, _ :: _ => .error .malformed
  | (name, _) :: attributes, document, item :: items => do
    let document ← shape.set name item document
    readItems shape closed (count + 1) attributes document items
  | attributes, document, [] =>
    if !closed then .error .malformed
    else if attributes.any Prod.snd then
      .error (.tooShort count (shape.label ++ " with " ++
        toString shape.attributes.length ++ " elements"))
    else .ok document

/-- Read a document. -/
def readDocument {α : Type} (shape : Shape α) : Draft → Read α
  | .object members closed => readMembers shape closed [] shape.blank members
  | .array items closed => readItems shape closed 0 shape.attributes shape.blank items
  | other => .error (unexpected shape.label other)

/-- Field documents; a default may lie as deep as given. -/
def fieldShape (depth : Nat) : Shape FieldDocument where
  label := "struct FieldDocument"
  attributes :=
    [("name", true), ("type", true), ("required", false), ("unique", false),
      ("primary", false), ("autoIncrement", false), ("default", false), ("options", false),
      ("relation", false), ("target", false), ("inverseName", false), ("foreignKey", false),
      ("joinTable", false), ("onDelete", false)]
  canonical := fun name => if name = "relationKind" then "relation" else name
  blank := { name := "", type := "" }
  set := fun key value document => do
    match key with
    | "name" => return { document with name := ← readText value }
    | "type" => return { document with type := ← readText value }
    | "required" => return { document with required := ← readFlag value }
    | "unique" => return { document with unique := ← readFlag value }
    | "primary" => return { document with primary := ← readFlag value }
    | "autoIncrement" => return { document with autoIncrement := ← readFlag value }
    | "default" => return { document with default := ← readOptional (readValue depth) value }
    | "options" => return { document with options := ← readOptional (readList readText) value }
    | "relation" => return { document with relation := ← readOptional readText value }
    | "target" => return { document with target := ← readOptional readText value }
    | "inverseName" => return { document with inverseName := ← readOptional readText value }
    | "foreignKey" => return { document with foreignKey := ← readOptional readText value }
    | "joinTable" => return { document with joinTable := ← readOptional readText value }
    | "onDelete" => return { document with onDelete := ← readOptional readText value }
    | _ => return document

/-- Model documents. -/
def modelShape : Shape ModelDocument where
  label := "struct ModelDocument"
  attributes := [("collectionName", true), ("fields", false)]
  canonical := id
  blank := ⟨"", []⟩
  set := fun key value document => do
    match key with
    | "collectionName" => return { document with collectionName := ← readText value }
    | "fields" =>
      -- A default lies within a field, the list of fields and the model.
      let fields := readList (readDocument (fieldShape (Draft.maxDepth - 3))) value
      return { document with fields := ← fields }
    | _ => return document

/-- Read a whole text. -/
def readText? {α : Type} (read : Draft → Read α) (text : String) : Read α := do
  let draft := Draft.ofText text
  let value ← read draft.1
  if draft.2 then return value else throw .malformed

end Reading

open Reading

/-- The words for a document that has no model yet. -/
def anonymousDocument : String := "<document>"

/-- Read a model document. -/
def ModelDocument.ofText (text : String) : Except Error ModelDocument :=
  (readText? (readDocument modelShape) text).mapError fun fault =>
    .invalidDefinition anonymousDocument none (.stated fault.reason)

/-- Read several model documents. -/
def ModelDocument.listOfText (text : String) : Except Error (List ModelDocument) :=
  (readText? (readList (readDocument modelShape)) text).mapError fun fault =>
    .invalidDefinition anonymousDocument none (.stated fault.reason)

/-- Read the fields of a model. -/
def Field.listOfText (model text : String) : Except Error (List Field) := do
  let read := readList (readDocument (fieldShape (Draft.maxDepth - 2)))
  let documents ← (readText? read text).mapError fun fault =>
    Error.invalidDefinition model none (.stated fault.reason)
  documents.mapM fun document => document.toField model

end ModelCatalog
