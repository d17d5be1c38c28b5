import ModelCatalog.Registry.Write
import ModelCatalog.Relation.DeletePlan

/-! Deleting models. -/

namespace ModelCatalog

namespace Registry

variable {σ : Type}

open InProgress

/-- The names an operation needs for itself to delete a model. -/
def deleteSet (known : Models) (name : String) : NameSet :=
  (Roster.ofList ((DeletePlan.referencingModels known name).map Model.name)).insert name

/-- Plan a deletion when the names of the referring models have been secured. Further models that
meanwhile refer to it make the attempt void. -/
def tryLockForDelete (registry : Registry σ) (name : String) :
    Step σ (Except Error DeletePlan) := do
  let guard := deleteSet (← registry.knownModels) name
  let record ← registry.record name
  -- The plan is made of a second reading, whose referring models the first has to cover.
  let plan ← .ofExcept (DeletePlan.ofRecord (← registry.knownModels) record)
  if guard.covers plan.referencing then return .ok plan
  else return .error (.transient name .referencesChanging)

/-- Take the relations to a model away from others, in order. -/
def stripAll (registry : Registry σ) (model : String) :
    List String → Step (InProgress σ) Unit
  | [] => .pure ()
  | other :: rest => do
    let strip := fun (definition : Model) =>
      let stripped := definition.stripReferences model
      (stripped, definition.lostFields stripped)
    registry.amend other false strip
    registry.stripAll model rest

/-- Carry out a plan: the tables, then the referring models, and the own record last. -/
def applyDelete (registry : Registry σ) (plan : DeletePlan) : Step (InProgress σ) Unit := do
  setStatus registry.backend .applying
  runBatch registry.backend plan.model plan.statements
  setStatus registry.backend .propagating
  registry.stripAll plan.model plan.referencing
  -- The own record goes last, so a deletion that stops can be carried out again.
  lift (registry.backend.delete plan.model plan.expect)
  advance 1
  lift registry.backend.flush

/-- Delete a model, its tables and every relation to it. -/
def delete (registry : Registry σ) (name : String) : Step σ Unit := do
  let _ ← Step.ofExcept (Identifier.checkAt (some ⟨name, none⟩) name)
  let plan ← .retrying (registry.tryLockForDelete name) registry.configuration.conflictRetries
  journaled registry.backend name .delete (registry.applyDelete plan)

end Registry

end ModelCatalog
