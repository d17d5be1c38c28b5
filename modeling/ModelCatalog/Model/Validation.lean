import ModelCatalog.Model.Columns
import ModelCatalog.Model.System

/-! The rules a definition has to meet before anything is built from it. -/

namespace ModelCatalog

/-- What the fields looked at so far have taken: names, columns, and places as the key. -/
structure Claims where
  names : List String
  columns : List String
  keys : List String

namespace Validation

/-- The options of a choice are there and differ from each other. -/
def checkOptions (model field : String) (options : List String) : Except Error Unit :=
  let rec distinct (seen : List String) : List String → Except Error Unit
    | [] => .ok ()
    | option :: rest =>
      if seen.contains option then
        .error (.unsupportedType model field (.repeatedOption option))
      else distinct (option :: seen) rest
  match options with
  | [] => .error (.unsupportedType model field .noOptions)
  | _ => distinct [] options

/-- The names a relation gives rise to are identifiers, and its target exists. -/
def checkRelation (system : SystemModels) (known : Models) (model : String) (field : String)
    (relation : Relation) : Except Error Unit := do
  let place : Option Place := some ⟨model, some field⟩
  let _ ← Identifier.checkAt place relation.target
  -- A model may relate to itself before it is known.
  if relation.target != model && !system.contains relation.target &&
      !known.contains relation.target then
    throw (.targetNotFound model field relation.target)
  if let some inverse := relation.inverseName then
    let _ ← Identifier.checkAt place inverse
  if relation.kind.hasColumn then
    let _ ← Identifier.checkAt place (relation.columnName field)
  if relation.kind.usesJoinTable then
    let _ ← Identifier.checkAt place (relation.joinTableName model field)
    let columns := relation.joinColumnNames model field
    let _ ← Identifier.checkAt place columns.1
    let _ ← Identifier.checkAt place columns.2
    if columns.1 = columns.2 then
      throw (.invalidDefinition model (some field) .equalJoinColumns)

/-- Take a column for a field, unless another field has it. -/
def claimColumn (model field column : String) (claims : Claims) : Except Error Claims :=
  if claims.columns.contains column then
    .error (.invalidDefinition model (some field) (.sharedColumn column))
  else .ok { claims with columns := column :: claims.columns }

/-- A field has a new identifier for a name and no default that is not a finite number. -/
def checkHead (model : String) (claims : Claims) (field : Field) : Except Error Claims := do
  let _ ← Identifier.checkAt (some ⟨model, some field.name⟩) field.name
  if claims.names.contains field.name then
    throw (.invalidDefinition model (some field.name) .repeatedField)
  if let some (.float value) := field.default then
    if !value.isFinite then
      throw (.invalidDefinition model (some field.name) .nonFiniteDefault)
  return { claims with names := field.name :: claims.names }

/-- A field keeps the rules of its kind, beside the fields before it. -/
def checkField (system : SystemModels) (known : Models) (model : String) (claims : Claims)
    (field : Field) : Except Error Claims := do
  let claims ← checkHead model claims field
  match field.kind with
  | .scalar _ primary autoIncrement =>
    let keys := if primary || autoIncrement then claims.keys ++ [field.name] else claims.keys
    claimColumn model field.name field.name { claims with keys := keys }
  | .choice options =>
    checkOptions model field.name options
    claimColumn model field.name field.name claims
  | .relation relation =>
    checkRelation system known model field.name relation
    if relation.kind.hasColumn then
      claimColumn model field.name (relation.columnName field.name) claims
    else return claims

/-- The key is the `id` field, or else there is room for the key column. -/
def checkKey (model : Model) (claims : Claims) : Except Error Unit := do
  -- Without an `id` field no other field can be the key, and its column is made up.
  if (model.field? idName).isNone then
    if let first :: _ := claims.keys then
      throw (.invalidDefinition model.name (some first) .keyNotId)
    let _ ← claimColumn model.name idName idName claims
  if let _ :: second :: _ := claims.keys then
    throw (.invalidDefinition model.name (some second) .secondKey)

end Validation

open Validation in
/-- A definition keeps the identifier policy and the rules of its structure, and relates only to
models that exist. -/
def Model.validate (system : SystemModels) (known : Models) (model : Model) :
    Except Error Unit := do
  let _ ← Identifier.checkAt (some ⟨model.name, none⟩) model.name
  let claims ← model.fields.foldlM (checkField system known model.name) ⟨[], [], []⟩
  checkKey model claims

end ModelCatalog
