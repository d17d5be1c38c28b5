import ModelCatalog.Locks
import ModelCatalog.Registry.Basic
import ModelCatalog.Registry.Progress
import ModelCatalog.Relation.WritePlan

/-! Defining and updating models. -/

namespace ModelCatalog

namespace Registry

variable {σ : Type}

open InProgress

/-- The names an operation needs for itself to write a definition over a stored one. -/
def writeSet (system : SystemModels) (definition : Model) (old : Option Record) : NameSet :=
  let own := (relatedModels system definition).insert definition.name
  match old with
  | some old => own.insertAll (relatedModels system old.definition).members
  | none => own

/-- Read the stored version of a model when the names it relates to have been secured. A version
that meanwhile relates to further models makes the attempt void. -/
def tryLockForWrite (registry : Registry σ) (definition : Model) :
    Step σ (Except Error (Option Record)) := do
  let system := registry.configuration.system
  -- The names are those of one reading, and the version they have to cover is that of the next.
  let guard := writeSet system definition (← registry.backend.get definition.name)
  let current ← registry.backend.get definition.name
  let covered :=
    match current with
    | some record => guard.covers (relatedModels system record.definition).members
    | none => true
  if covered then return .ok current
  else return .error (.transient definition.name .relationsChanging)

/-- Change the record of a target; a target without a record is left alone or begins empty. When
someone else has changed the record meanwhile, the attempt is void. -/
def tryAmend (registry : Registry σ) (target : String) (createMissing : Bool)
    (edit : Model → Model × Bool) : Step (InProgress σ) (Except Error Unit) := do
  let start : Option (Model × Expect) :=
    match ← lift (registry.backend.get target) with
    | some record => some (record.definition, .version record.version)
    | none => if createMissing then some (⟨target, []⟩, .absent) else none
  match start with
  | none => return .ok ()
  | some (definition, expect) =>
    let edited := edit definition
    if edited.2 then
      match ← Step.outcome (lift (registry.backend.put edited.1 expect)) with
      | .ok _ =>
        advance 1
        save registry.backend
        return .ok ()
      | .error error =>
        -- Only a record that was changed meanwhile is worth another attempt.
        if error.kind = .conflict then return .error error else .fail error
    else return .ok ()

/-- Change the record of a target, and begin again when someone else has changed it. -/
def amend (registry : Registry σ) (target : String) (createMissing : Bool)
    (edit : Model → Model × Bool) : Step (InProgress σ) Unit :=
  .retrying (registry.tryAmend target createMissing edit)
    registry.configuration.conflictRetries

/-- Apply the edit to one target: statements for its new columns, then its record. -/
def propagate (registry : Registry σ) (source : String) (edit : TargetEdit) :
    Step (InProgress σ) Unit := do
  -- Columns are added only to a target that has a table.
  if (← lift (registry.backend.get edit.target)).isSome then
    runBatch registry.backend source edit.columns
  -- A target that has gone meanwhile begins empty, without a table.
  registry.amend edit.target true (edit.apply source)

/-- Apply the edits to all targets, in order. -/
def propagateAll (registry : Registry σ) (source : String) :
    List TargetEdit → Step (InProgress σ) Unit
  | [] => .pure ()
  | edit :: rest => do
    registry.propagate source edit
    registry.propagateAll source rest

/-- Write the record of the model itself, unless its definition is stored already. -/
def storeOwn (registry : Registry σ) (plan : WritePlan) (old : Option Record) :
    Step (InProgress σ) Record :=
  let write : Step (InProgress σ) Record := do
    let record ← lift (registry.backend.put plan.definition plan.expect)
    advance 1
    return record
  match old with
  | some record => if record.definition.sameAs plan.definition then .pure record else write
  | none => write

/-- Carry out a plan: the statements of the model, then its targets, and its own record last. -/
def applyWrite (registry : Registry σ) (plan : WritePlan) (old : Option Record) :
    Step (InProgress σ) Record := do
  setStatus registry.backend .applying
  runBatch registry.backend plan.model plan.statements
  setStatus registry.backend .propagating
  registry.propagateAll plan.model plan.edits
  -- The own record comes behind those of the targets, so a write that stops leaves the old one.
  let record ← registry.storeOwn plan old
  lift registry.backend.flush
  return record

/-- Store a definition with the given fields, over an existing one or for the first time. -/
def write (registry : Registry σ) (name : String) (fields : List Field) (mustExist : Bool) :
    Step σ Record := do
  let _ ← Step.ofExcept (Identifier.checkAt (some ⟨name, none⟩) name)
  let configuration := registry.configuration
  let definition : Model :=
    ⟨name, if configuration.auditFields then withAuditFields fields else fields⟩
  let old ← .retrying (registry.tryLockForWrite definition) configuration.conflictRetries
  if mustExist && old.isNone then .fail (.notFound name)
  -- What is known is read under the names that the attempt has secured.
  else
    let known ← registry.knownModels
    let plan ← .ofExcept (Context.planWrite ⟨configuration.system, known⟩ old definition)
    let kind := if old.isSome then OperationKind.update else .define
    journaled registry.backend name kind (registry.applyWrite plan old)

/-- Create a model, or apply it again if it exists. -/
def define (registry : Registry σ) (name : String) (fields : List Field) : Step σ Record :=
  registry.write name fields false

/-- Replace the fields of an existing model. -/
def update (registry : Registry σ) (name : String) (fields : List Field) : Step σ Record :=
  registry.write name fields true

end Registry

end ModelCatalog
