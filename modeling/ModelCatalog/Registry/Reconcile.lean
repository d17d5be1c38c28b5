import ModelCatalog.Locks
import ModelCatalog.Registry.Basic
import ModelCatalog.Registry.Progress
import ModelCatalog.Relation.RepairPlan

/-! Repairing all stored models at once. -/

namespace ModelCatalog

namespace Registry

variable {σ : Type}

open InProgress

/-- Read all records when their names have been secured. Further models that have appeared
meanwhile make the attempt void. -/
def tryLockForReconcile (registry : Registry σ) : Step σ (Except Error (List Record)) := do
  let guard : NameSet := Roster.ofList (← registry.names)
  let records ← registry.backend.listAll
  if guard.covers (records.map Record.name) then return .ok records
  else return .error (.transient allModels .modelsChanging)

/-- Write the repaired definitions, in order. -/
def writeRepaired (registry : Registry σ) : List (Model × Nat) → Step (InProgress σ) Unit
  | [] => .pure ()
  | (definition, version) :: rest => do
    let _ ← lift (registry.backend.put definition (.version version))
    advance 1
    registry.writeRepaired rest

/-- Carry out a plan: the statements, then the records, and then the journal is cleared. -/
def applyRepair (registry : Registry σ) (plan : RepairPlan) :
    Step (InProgress σ) RepairReport := do
  setStatus registry.backend .applying
  runBatch registry.backend allModels plan.statements
  setStatus registry.backend .propagating
  registry.writeRepaired plan.updates
  lift registry.backend.flush
  -- The entry of the repair itself is still under way, and is taken away by its end.
  let cleared ← Step.ofUpdate fun (progress : InProgress σ) =>
    let after := registry.backend.clearExcept (some progress.operation.id) progress.state
    (after.1, { progress with state := after.2 })
  return { plan.report with
    statementsApplied := plan.statements.length
    operationsCleared := cleared }

/-- Recompute the counterparts of all relations; with `reapplying`, run all statements again.
Other journal entries are cleared when the repair has succeeded. -/
def reconcile (registry : Registry σ) (reapplying : Bool) : Step σ RepairReport := do
  let configuration := registry.configuration
  let records ← .retrying registry.tryLockForReconcile configuration.conflictRetries
  -- Planning fails before the journal knows of the repair.
  let plan ← .ofExcept (RepairPlan.ofRecords configuration.system records reapplying)
  journaled registry.backend allModels .reconcile (registry.applyRepair plan)

end Registry

end ModelCatalog
