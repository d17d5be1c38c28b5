import ModelCatalog.Model.Basic

/-! The names of the columns and join tables that fields occupy. -/

namespace ModelCatalog

/-- The name of the key column every table has. -/
def idName : String := "id"

namespace Relation

/-- The foreign-key column of a relation that has one. -/
def columnName (relation : Relation) (fieldName : String) : String :=
  relation.foreignKey.getD (fieldName ++ "_id")

/-- The join table of a relation that has one. -/
def joinTableName (relation : Relation) (modelName fieldName : String) : String :=
  relation.joinTable.getD (modelName ++ "_" ++ fieldName ++ "_" ++ relation.target)

/-- The key columns of a join table, that of the declaring model first; when a model relates to
itself, the second is named after the field. -/
def joinColumnNames (relation : Relation) (modelName fieldName : String) : String × String :=
  (modelName ++ "_id",
    if relation.target = modelName then fieldName ++ "_id" else relation.target ++ "_id")

end Relation

/-- The column a field occupies, if it has one. -/
def Field.columnName? (field : Field) : Option String :=
  match field.kind with
  | .relation relation =>
    if relation.kind.hasColumn then some (relation.columnName field.name) else none
  | _ => some field.name

namespace Model

/-- The columns of the table of a model, in order. -/
def columnNames (model : Model) : List String :=
  let declared := model.fields.filterMap Field.columnName?
  -- A model without an `id` field has the key column all the same.
  if (model.field? idName).isNone then idName :: declared else declared

/-- The join tables of the many-to-many relations of a model, in order of their fields. -/
def joinTableNames (model : Model) : List String :=
  model.relations.filterMap fun (field, relation) =>
    if relation.kind.usesJoinTable then some (relation.joinTableName model.name field.name)
    else none

/-- The fields whose columns another version of the model lacks. -/
def fieldsWithNewColumns (model old : Model) : List Field :=
  model.fields.filter fun field =>
    match field.columnName? with
    | some column => !old.columnNames.contains column
    | none => false

end Model

end ModelCatalog
