import ModelCatalog.Relation.Resolution
import ModelCatalog.Relation.TableOrder
import ModelCatalog.Store.Record

/-! Repair of all stored models at once: every relation gets back its counterpart. -/

namespace ModelCatalog

/-- What a repair did. -/
structure RepairReport where
  modelsScanned : Nat
  fieldsAdded : Nat
  fieldsUpdated : Nat
  fieldsRemoved : Nat
  modelsUpdated : Nat
  statementsApplied : Nat
  operationsCleared : Nat
  deriving DecidableEq, Repr

/-- The report of a repair that found nothing to do among so many models. -/
def RepairReport.untouched (scanned : Nat) : RepairReport where
  modelsScanned := scanned
  fieldsAdded := 0
  fieldsUpdated := 0
  fieldsRemoved := 0
  modelsUpdated := 0
  statementsApplied := 0
  operationsCleared := 0

/-- Repaired definitions, and the statements that go with them. -/
structure RepairPlan where
  /-- The definitions that changed, each with the version it was read at. -/
  updates : List (Model × Nat)
  /-- The statements to run before the updates. -/
  statements : List Statement
  report : RepairReport

namespace RepairPlan

/-- Models under repair, with the counts of what has been done to them. -/
structure Progress where
  models : Models
  report : RepairReport

/-- The relation of a field leads to the model itself, a system model or a scanned one. -/
def leadsSomewhere (system : SystemModels) (scanned : Models) (model : String) (field : Field) :
    Bool :=
  match field.relation? with
  | some relation =>
    relation.target == model || system.contains relation.target ||
      scanned.contains relation.target
  | none => true

/-- The model without relations to models that are missing. -/
def prune (system : SystemModels) (scanned : Models) (model : Model) : Model :=
  { model with fields := model.fields.filter (leadsSomewhere system scanned model.name) }

/-- All models without relations to models that are missing. -/
def pruneAll (system : SystemModels) (scanned : Models) (report : RepairReport) : Progress :=
  -- Each model is pruned against the scanned ones, so the order does not matter.
  let models := scanned.map (prune system scanned) fun _ => rfl
  let removed := (scanned.members.map fun model =>
    model.fields.length - (prune system scanned model).fields.length).foldl (· + ·) 0
  { models := models
    report := { report with fieldsRemoved := report.fieldsRemoved + removed } }

/-- Resolve the relations of one model; a model that cannot be resolved stays as it is. -/
def resolveOne (system : SystemModels) (progress : Progress) (name : String) : Progress :=
  match progress.models.find? name with
  | none => progress
  | some model =>
    match Context.resolve ⟨system, progress.models⟩ (some model) model with
    | .error _ => progress
    | .ok resolved =>
      { models := progress.models.insert resolved
        report := { progress.report with
          fieldsAdded := progress.report.fieldsAdded +
            (resolved.fields.length - model.fields.length) } }

/-- The counts after a counterpart was put in place on a target. -/
def countUpsert (report : RepairReport) (existed : Bool) (before : Nat) (upsert : Upsert) :
    RepairReport :=
  let appended := if existed then 0 else 1
  { report with
    fieldsAdded := report.fieldsAdded + appended
    fieldsUpdated := report.fieldsUpdated + (if existed && upsert.changed then 1 else 0)
    fieldsRemoved :=
      report.fieldsRemoved + (before + appended - upsert.target.fields.length) }

/-- Put the counterpart of one field in place, unless an unrelated field has its name. -/
def mendField (system : SystemModels) (name : String) (progress : Progress)
    (fieldName : String) : Progress :=
  let found := do
    let field ← (← progress.models.find? name).field? fieldName
    let relation ← field.relation?
    -- Relations within a model were paired by resolution, and system models have no fields here.
    if relation.target = name || system.contains relation.target then none
    else
      let counterpart ← field.counterpart? name
      let target ← progress.models.find? relation.target
      -- A field of the name that leads elsewhere is in the way, and the relation stays unpaired.
      match target.field? counterpart.name with
      | some existing => if existing.targets name then some (target, counterpart) else none
      | none => some (target, counterpart)
  match found with
  | none => progress
  | some (target, counterpart) =>
    let existed := (target.counterpartIndex? name fieldName counterpart.name).isSome
    let upsert := target.upsertCounterpart name fieldName counterpart
    { models := progress.models.insert upsert.target
      report := countUpsert progress.report existed target.fields.length upsert }

/-- Put the counterparts of the relations of one model in place. -/
def mendOne (system : SystemModels) (progress : Progress) (name : String) : Progress :=
  match progress.models.find? name with
  | none => progress
  | some model =>
    (model.relations.map fun pair => pair.1.name).foldl (mendField system name) progress

/-- The models after repair, with the counts of fields added, updated and removed. -/
def repair (system : SystemModels) (scanned : Models) (report : RepairReport) : Progress :=
  -- Relations within models come first, for mending looks at what resolution has named.
  let pruned := pruneAll system scanned report
  let resolved := scanned.names.foldl (resolveOne system) pruned
  scanned.names.foldl (mendOne system) resolved

/-- The version of the last record of a name. -/
def versionOf (records : List Record) (name : String) : Option Nat :=
  (records.reverse.find? fun record => record.name == name).map Record.version

/-- The definitions that a repair changed, each with the version it was read at. -/
def updated (records : List Record) (scanned repaired : Models) : List (Model × Nat) :=
  repaired.members.filterMap fun model =>
    -- A definition that equals its stored version is not written again.
    let unchanged := (scanned.find? model.name).any fun before => before.sameAs model
    if unchanged then none
    else (versionOf records model.name).map fun version => (model, version)

/-- The statement that adds the column of a field, if it has one. -/
def columnStatement (context : Context) (model : Model) (field : Field) :
    Except Error (Option Statement) := do
  match ← context.column model field with
  | some column => return some (← Statement.addColumnTo model.name column)
  | none => return none

/-- The statements for the columns that one repaired model has and its old version lacked. -/
def missingColumnsOf (context : Context) (scanned : Models) (model : Model) :
    Except Error (List Statement) := do
  match scanned.find? model.name with
  | none => return []
  | some before =>
    if before.sameAs model then return []
    else
      let statements ← (model.fieldsWithNewColumns before).mapM (columnStatement context model)
      return statements.filterMap id

/-- The statements for the columns that repaired models have and their old versions lacked. -/
def missingColumns (system : SystemModels) (scanned repaired : Models) :
    Except Error (List Statement) := do
  return (← repaired.members.mapM (missingColumnsOf ⟨system, repaired⟩ scanned)).flatten

/-- The statements of one model, by the place they take when all are applied again. -/
structure Reapplied where
  table : Statement
  columns : List Statement
  joinTables : List Statement

/-- The statements of one model when all are applied again; keys are made with the table. -/
def reapplyOne (context : Context) (model : Model) : Except Error Reapplied := do
  let synthesis ← context.synthesize model
  -- The key is part of the table itself.
  let others := model.fields.filter fun field => field.name != idName && !field.isKey
  let columns ← others.mapM (columnStatement context model)
  return {
    table := synthesis.table
    columns := columns.filterMap id
    joinTables := synthesis.joinTables }

/-- The statements of all models: tables first, then columns, then each join table once. -/
def reapply (system : SystemModels) (repaired : Models) : Except Error (List Statement) := do
  let models := (repaired.tableOrder system).filterMap repaired.find?
  -- A join table is compiled from both of its sides, and made once.
  let parts ← models.mapM (reapplyOne ⟨system, repaired⟩)
  return parts.map Reapplied.table ++ parts.flatMap Reapplied.columns ++
    distinctBy (fun statement => statement.table.text) (parts.flatMap Reapplied.joinTables)

/-- Plan the repair of all stored models; with `reapplying`, run the statements of all again. -/
def ofRecords (system : SystemModels) (records : List Record) (reapplying : Bool) :
    Except Error RepairPlan := do
  let scanned : Models := Roster.ofList (records.map Record.definition)
  let repaired := repair system scanned (.untouched records.length)
  let updates := updated records scanned repaired.models
  let statements ←
    -- Without reapplying only the columns that counterparts have brought are added.
    if reapplying then reapply system repaired.models
    else missingColumns system scanned repaired.models
  return {
    updates := updates
    statements := statements
    report := { repaired.report with modelsUpdated := updates.length } }

end RepairPlan

end ModelCatalog
