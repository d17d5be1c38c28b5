import ModelCatalog.Json.Value
import ModelCatalog.Model.Basic

/-! Model documents: definitions as they are exchanged with callers. -/

namespace ModelCatalog

/-- A field as a document states it. -/
structure FieldDocument where
  name : String
  type : String
  required : Bool := false
  unique : Bool := false
  primary : Bool := false
  autoIncrement : Bool := false
  default : Option Json := none
  options : Option (List String) := none
  relation : Option String := none
  target : Option String := none
  inverseName : Option String := none
  foreignKey : Option String := none
  joinTable : Option String := none
  onDelete : Option String := none

/-- A model as a document states it. -/
structure ModelDocument where
  collectionName : String
  fields : List FieldDocument

namespace DefaultValue

/-- The default that a JSON value stands for; the word `now` is the time of writing. -/
def ofJson? : Json → Option DefaultValue
  | .string word => some (if word = "now" then .now else .text word)
  | .boolean value => some (.boolean value)
  | .number (.integer value) =>
    -- Integers beyond 64 bits with a sign are kept in double precision.
    if -Int.pow 2 63 ≤ value ∧ value < Int.pow 2 63 then some (.integer (Int64.ofInt value))
    else some (.float (.ofRatio (value < 0) value.natAbs 1))
  | .number (.float value) => some (.float value)
  | _ => none

/-- The JSON value that stands for a default. -/
def toJson : DefaultValue → Json
  | now => .string "now"
  | integer value => .number (.integer value.toInt)
  | float value => .ofBinary64 value
  | boolean value => .boolean value
  | text value => .string value

end DefaultValue

namespace FieldDocument

/-- The relation that a document of type `relation` states. -/
def toRelation (document : FieldDocument) (model : String) : Except Error Relation := do
  let invalid := fun (fault : DefinitionFault) =>
    Error.invalidDefinition model (some document.name) fault
  let kind ←
    match document.relation with
    | some word =>
      match RelationKind.ofLabel? word with
      | some kind => pure kind
      -- An unknown kind is a fault of the type, a missing one of the definition.
      | none => throw (.unsupportedType model document.name (.unknownRelationKind word))
    | none => throw (invalid .noRelationKind)
  let target ←
    match document.target with
    -- An empty target counts as none.
    | some target => if target.isEmpty then throw (invalid .noTarget) else pure target
    | none => throw (invalid .noTarget)
  let onDelete ←
    match document.onDelete with
    | some word =>
      match OnDelete.ofLabel? word with
      | some action => pure (some action)
      | none => throw (invalid (.unknownOnDelete word))
    | none => pure none
  return {
    kind := kind
    target := target
    inverseName := document.inverseName
    foreignKey := document.foreignKey
    joinTable := document.joinTable
    onDelete := onDelete }

/-- The kind of field that a document states. -/
def toKind (document : FieldDocument) (model : String) : Except Error FieldKind := do
  match document.type with
  | "enum" =>
    match document.options with
    | some (first :: rest) => return .choice (first :: rest)
    | _ => throw (.unsupportedType model document.name .emptyOptionList)
  | "relation" => return .relation (← document.toRelation model)
  | other =>
    match ScalarType.ofLabel? other with
    | some type => return .scalar type document.primary document.autoIncrement
    | none => throw (.unsupportedType model document.name (.unknownType other))

/-- The default that a document states for a field of some kind; relations have none. -/
def toDefault (document : FieldDocument) (model : String) (kind : FieldKind) :
    Except Error (Option DefaultValue) :=
  match kind, document.default with
  -- A default of a relation is passed over, even one that could not be read.
  | .relation _, _ => .ok none
  | _, none => .ok none
  | _, some value =>
    match DefaultValue.ofJson? value with
    | some found => .ok (some found)
    | none =>
      .error (.invalidDefinition model (some document.name) (.defaultNotScalar value.text))

/-- The field of a model that a document states. -/
def toField (document : FieldDocument) (model : String) : Except Error Field := do
  let kind ← document.toKind model
  let default ← document.toDefault model kind
  return {
    name := document.name
    required := document.required
    unique := document.unique
    default := default
    kind := kind }

/-- The document that states a field. -/
def ofField (field : Field) : FieldDocument :=
  let plain : FieldDocument :=
    { name := field.name
      type := field.typeLabel
      required := field.required
      unique := field.unique
      default := field.default.map DefaultValue.toJson }
  match field.kind with
  | .scalar _ primary autoIncrement =>
    { plain with primary := primary, autoIncrement := autoIncrement }
  | .choice options => { plain with options := some options }
  | .relation relation =>
    { plain with
      relation := some relation.kind.label
      target := some relation.target
      inverseName := relation.inverseName
      foreignKey := relation.foreignKey
      joinTable := relation.joinTable
      onDelete := relation.onDelete.map OnDelete.sql }

/-- A member that is written only when it is true. -/
def flag (name : String) (value : Bool) : List (String × Json) :=
  if value then [(name, .boolean true)] else []

/-- A member that is written only when it is present. -/
def optional (name : String) (value : Option Json) : List (String × Json) :=
  (value.map fun value => (name, value)).toList

/-- The JSON form of a field document. -/
def toJson (document : FieldDocument) : Json :=
  .object ([("name", .string document.name), ("type", .string document.type)] ++
    flag "required" document.required ++
    flag "unique" document.unique ++
    flag "primary" document.primary ++
    flag "autoIncrement" document.autoIncrement ++
    optional "default" document.default ++
    optional "options" (document.options.map fun options => .array (options.map .string)) ++
    optional "relation" (document.relation.map .string) ++
    optional "target" (document.target.map .string) ++
    optional "inverseName" (document.inverseName.map .string) ++
    optional "foreignKey" (document.foreignKey.map .string) ++
    optional "joinTable" (document.joinTable.map .string) ++
    optional "onDelete" (document.onDelete.map .string))

end FieldDocument

namespace ModelDocument

/-- The definition that a document states. -/
def toModel (document : ModelDocument) : Except Error Model := do
  let fields ← document.fields.mapM fun field => field.toField document.collectionName
  return ⟨document.collectionName, fields⟩

/-- The document that states a definition. -/
def ofModel (model : Model) : ModelDocument :=
  ⟨model.name, model.fields.map FieldDocument.ofField⟩

/-- The members of the JSON form of a model document. -/
def members (document : ModelDocument) : List (String × Json) :=
  [("collectionName", .string document.collectionName),
    ("fields", .array (document.fields.map FieldDocument.toJson))]

/-- The JSON form of a model document. -/
def toJson (document : ModelDocument) : Json := .object document.members

end ModelDocument

end ModelCatalog
