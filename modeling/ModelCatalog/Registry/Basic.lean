import ModelCatalog.Registry.Backend
import ModelCatalog.Registry.Configuration
import ModelCatalog.Relation.Resolution
import ModelCatalog.Sql.Builtin

/-! The registry: what is stored, what would be built, and the built-in tables. -/

namespace ModelCatalog

/-- The name under which operations on all models are journaled. -/
def allModels : String := "*"

/-- A registry: services and the settings to use them with. -/
structure Registry (σ : Type) where
  backend : Backend σ
  configuration : Configuration

namespace Registry

variable {σ : Type}

/-- The stored model of a name, with its version and times. -/
def record (registry : Registry σ) (name : String) : Step σ Record := do
  match ← registry.backend.get name with
  | some record => return record
  | none => .fail (.notFound name)

/-- The stored definition of a name. -/
def model (registry : Registry σ) (name : String) : Step σ Model := do
  return (← registry.record name).definition

/-- The names of all stored models, in order. -/
def names (registry : Registry σ) : Step σ (List String) := do
  return (← registry.backend.listAll).map Record.name

/-- All stored definitions. -/
def knownModels (registry : Registry σ) : Step σ Models := do
  return Roster.ofList ((← registry.backend.listAll).map Record.definition)

/-- The statements that would create the tables of a definition, next to known ones. -/
def preview (registry : Registry σ) (known : Models) (definition : Model) :
    Except Error (List Statement) := do
  -- Nothing is read or stored: a preview depends only on what it is given.
  let context : Context := ⟨registry.configuration.system, known⟩
  definition.validate context.system context.known
  let resolved ← context.resolve (known.find? definition.name) definition
  -- The context of compilation knows the new version, as it will when the tables are created.
  let synthesis ← Context.synthesize ⟨context.system, known.insert resolved⟩ resolved
  return synthesis.statements

/-- Create the built-in tables, and count the statements. -/
def bootstrap (registry : Registry σ) : Step σ Nat := fun state =>
  match Builtin.statements registry.configuration.system with
  | [] => (.ok 0, state)
  | first :: rest =>
    match registry.backend.executeBatch (first :: rest) state with
    | (.ok _, after) => (.ok (rest.length + 1), after)
    | (.error failure, after) => (.error (.ofBatch allModels first rest failure), after)

/-- The operations that failed or never finished. -/
def pendingOperations (registry : Registry σ) : Step σ (List Operation) := fun state =>
  (.ok (registry.backend.pending state), state)

/-- The other models of the catalog that a definition relates to. -/
def relatedModels (system : SystemModels) (definition : Model) : NameSet :=
  Roster.ofList (definition.relations.filterMap fun (_, relation) =>
    if relation.target = definition.name || system.contains relation.target then none
    else some relation.target)

end Registry

end ModelCatalog
