import ModelCatalog.Model.Validation
import ModelCatalog.Sql.Statement

/-! The tables of a model: from a definition to the statements that create them. -/

namespace ModelCatalog

/-- The column type of keys that the database numbers. -/
def integerKeyType : String := "INT"

/-- What a definition is compiled against: the system models and the known definitions. -/
structure Context where
  system : SystemModels
  known : Models

namespace Context

/-- The column type of the key of a model, seen from a model that is being compiled. -/
def keyType (context : Context) (model : Model) (target : String) : String :=
  if context.system.contains target then context.system.keyType
  else
    -- The model itself may be newer than what is known of it.
    let definition :=
      if target = model.name then some model else context.known.find? target
    match (definition.bind fun found => found.field? idName).map Field.kind with
    | some (.scalar type _ autoIncrement) =>
      if autoIncrement then integerKeyType else type.columnType
    | some (.choice _) => "VARCHAR(255)"
    | _ => integerKeyType

/-- A constraint that stands only under a condition. -/
def constraintIf (condition : Bool) (constraint : Constraint) : List Constraint :=
  if condition then [constraint] else []

/-- The default of a field as a constraint, if it has one. -/
def defaultOf (field : Field) : List Constraint :=
  match field.default with
  | some value => [.default value]
  | none => []

/-- The column that holds the foreign key of a relation. -/
def foreignKeyColumn (context : Context) (model : Model) (field : Field) (relation : Relation) :
    Except Error Column := do
  let name ← Identifier.check (relation.columnName field.name)
  let table ← Identifier.check relation.target
  return {
    name := name
    type := context.keyType model relation.target
    constraints :=
      constraintIf field.required .notNull ++ [.references table relation.onDelete] ++
        -- On a one-to-one relation no two rows may refer to the same one.
        constraintIf (relation.kind = .oneToOne || field.unique) .unique }

/-- The column of a field, if the table of its model has one. -/
def column (context : Context) (model : Model) (field : Field) :
    Except Error (Option Column) := do
  let name ← Identifier.check field.name
  match field.kind with
  | .scalar type primary autoIncrement =>
    -- The database numbers the column by itself, whatever else is stated of the field.
    if autoIncrement then return some (.numbered name)
    else return some {
      name := name
      type := type.columnType
      constraints :=
        constraintIf primary .primaryKey ++ constraintIf field.unique .unique ++
          constraintIf field.required .notNull ++ defaultOf field }
  | .choice options =>
    return some {
      name := name
      type := "VARCHAR(255)"
      constraints :=
        [.oneOf options] ++ constraintIf field.required .notNull ++
          constraintIf field.unique .unique ++ defaultOf field }
  | .relation relation =>
    if relation.kind.hasColumn then
      return some (← context.foreignKeyColumn model field relation)
    else return none

/-- A column of a join table, which refers to one of the two tables it joins. -/
def joinColumn (name : Identifier) (type : String) (table : Identifier) : Column :=
  { name := name, type := type, constraints := [.notNull, .references table (some .cascade)] }

/-- The join table of a field, if it is a many-to-many relation. -/
def joinTable (context : Context) (model : Model) (field : Field) :
    Except Error (Option Statement) := do
  match field.kind with
  | .relation relation =>
    if relation.kind.usesJoinTable then
      -- The left column is that of the model that declares the field.
      let columns := relation.joinColumnNames model.name field.name
      let left ← Identifier.check columns.1
      let right ← Identifier.check columns.2
      let table ← Identifier.check (relation.joinTableName model.name field.name)
      let owner ← Identifier.check model.name
      let target ← Identifier.check relation.target
      return some (.createJoinTable table
        (joinColumn left (context.keyType model model.name) owner)
        (joinColumn right (context.keyType model relation.target) target))
    else return none
  | _ => return none

end Context

/-- The statements that create the tables of a model. -/
structure Synthesis where
  /-- The table of the model itself. -/
  table : Statement
  /-- The join tables, in order of their fields. -/
  joinTables : List Statement

/-- The statements in the order of execution. -/
def Synthesis.statements (synthesis : Synthesis) : List Statement :=
  synthesis.table :: synthesis.joinTables

/-- Validate a definition and compile it into the statements that create its tables. -/
def Context.synthesize (context : Context) (model : Model) : Except Error Synthesis := do
  model.validate context.system context.known
  let table ← Identifier.check model.name
  let columns ← model.fields.mapM (context.column model)
  let joinTables ← model.fields.mapM (context.joinTable model)
  -- A table that declares no `id` is numbered by the database.
  let key := if (model.field? idName).isNone then [Column.numbered idIdentifier] else []
  return {
    table := .createTable table (key ++ columns.filterMap id)
    joinTables := distinctBy (fun statement => statement.table.text) (joinTables.filterMap id) }

end ModelCatalog
