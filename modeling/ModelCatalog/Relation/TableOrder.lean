import ModelCatalog.Model.System

/-! An order of tables in which those referred to come first. -/

namespace ModelCatalog

namespace TableOrder

/-- The other models of a collection to whose tables the columns of a model refer. -/
def dependencies (system : SystemModels) (models : Models) (model : Model) : List String :=
  model.relations.filterMap fun (_, relation) =>
    if relation.kind.hasColumn && relation.target != model.name &&
        !system.contains relation.target && models.contains relation.target then
      some relation.target
    else none

/-- Place all models whose dependencies are placed, or else the first that is left, and go on;
every round places at least one. -/
def arrange (dependencies : Model → List String) : Nat → List Model → List String → List String
  | 0, _, placed => placed
  | rounds + 1, left, placed =>
    let ready := left.filter fun model => (dependencies model).all placed.contains
    -- Where nobody is ready there is a cycle, and it is broken at the first name.
    let batch := if ready.isEmpty then left.take 1 else ready
    let names := batch.map Model.name
    arrange dependencies rounds (left.filter fun model => !names.contains model.name)
      (placed ++ names)

end TableOrder

/-- The names of all models, those referred to by foreign keys first and ties by name; models on
a cycle come in order of name after what they do not depend on. -/
def Models.tableOrder (system : SystemModels) (models : Models) : List String :=
  TableOrder.arrange (TableOrder.dependencies system models) models.size models.members []

end ModelCatalog
