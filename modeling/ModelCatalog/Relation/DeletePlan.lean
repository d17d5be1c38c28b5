import ModelCatalog.Sql.Statement
import ModelCatalog.Store.Record

/-! Plans for deleting a model: the tables that go, and the models that refer to it. -/

namespace ModelCatalog

/-- Everything a deletion has to do. -/
structure DeletePlan where
  model : String
  /-- Drops of the table and of every join table it takes part in. -/
  statements : List Statement
  /-- The other models with relations to the deleted one, in order. -/
  referencing : List String
  /-- The state in which the record of the model has to be found. -/
  expect : Expect

namespace DeletePlan

/-- The other known models with relations to a model. -/
def referencingModels (known : Models) (name : String) : List Model :=
  known.members.filter fun other => other.name != name && other.references name

/-- The join tables of the relations of one model to another. -/
def joinTablesTo (model : Model) (target : String) : List String :=
  model.relations.filterMap fun (field, relation) =>
    if relation.target == target && relation.kind.usesJoinTable then
      some (relation.joinTableName model.name field.name)
    else none

/-- The join tables a model takes part in, from either side, each once. -/
def joinTables (known : Models) (model : Model) : List String :=
  distinctBy id (model.joinTableNames ++
    (referencingModels known model.name).flatMap fun other => joinTablesTo other model.name)

/-- Plan the deletion of a stored model among the known ones. -/
def ofRecord (known : Models) (record : Record) : Except Error DeletePlan := do
  let model := record.definition
  let table ← Statement.dropTableOf model.name
  let joins ← (joinTables known model).mapM Statement.dropTableOf
  return {
    model := model.name
    statements := table :: joins
    referencing := (referencingModels known model.name).map Model.name
    expect := .version record.version }

end DeletePlan

end ModelCatalog
