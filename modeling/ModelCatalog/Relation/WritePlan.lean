import ModelCatalog.Relation.Resolution
import ModelCatalog.Store.Record

/-! Plans for writing a model: its own statements, and what its targets have to change. -/

namespace ModelCatalog

/-- A counterpart to take away: of this source field, under this name. -/
structure Removal where
  field : String
  name : String
  deriving DecidableEq, Repr

/-- A counterpart to put in place: of this source field. -/
structure Insertion where
  field : String
  counterpart : Field
  deriving DecidableEq

/-- What one target of the relations of a source has to change. -/
structure TargetEdit where
  target : String
  removals : List Removal
  insertions : List Insertion
  /-- Statements for the columns of new counterparts. -/
  columns : List Statement
  deriving DecidableEq

namespace TargetEdit

/-- Take away the counterparts that go. -/
def applyRemovals (source : String) (target : Model) (removals : List Removal) : Model :=
  removals.foldl
    (fun model removal => model.removeCounterpart source removal.field removal.name) target

/-- Put the counterparts that come in place, and tell whether any of them changed the target. -/
def applyInsertions (source : String) : Model → List Insertion → Model × Bool
  | target, [] => (target, false)
  | target, insertion :: rest =>
    let upsert := target.upsertCounterpart source insertion.field insertion.counterpart
    let after := applyInsertions source upsert.target rest
    (after.1, upsert.changed || after.2)

/-- Apply an edit, removals first, and tell whether the target changed. -/
def apply (edit : TargetEdit) (source : String) (target : Model) : Model × Bool :=
  let pruned := applyRemovals source target edit.removals
  let after := applyInsertions source pruned edit.insertions
  -- What counts is whether fields were lost on the way or an insertion has changed one.
  (after.1, target.lostFields pruned || after.2)

/-- Why a counterpart may not take over the field of its name on the target, if it may not. -/
def collision (source target : Model) (insertion : Insertion) : Option CounterpartFault :=
  let name := insertion.counterpart.name
  match target.field? name with
  | none => none
  | some existing =>
    match existing.relation? with
    | none => some (.notRelation name)
    | some relation =>
      if relation.target ≠ source.name then some (.relatedElsewhere name relation.target)
      else
        -- The field may be the counterpart of another relation of the source.
        match relation.inverseName with
        | none => none
        | some other =>
          let claimed := (source.field? other).any fun field => field.targets target.name
          if other ≠ insertion.field ∧ claimed = true then
            some (.alreadyPaired name source.name other)
          else none

/-- No counterpart takes over an unrelated field of the target. -/
def checkCollisions (source target : Model) : List Insertion → Except Error Unit
  | [] => .ok ()
  | insertion :: rest =>
    match collision source target insertion with
    | some fault =>
      .error (.invalidDefinition source.name (some insertion.field)
        (.inverseCollides target.name fault))
    | none => checkCollisions source target rest

/-- The names and columns that the fields of an edited target have taken so far. -/
structure Taken where
  names : List String
  columns : List String

/-- A field of an edited target has a name and a column of its own, and, as a counterpart of the
source, names that are identifiers. -/
def checkFieldFits (source target : String) (taken : Taken) (field : Field) :
    Except Error Taken := do
  let place : Option Place := some ⟨target, some field.name⟩
  if taken.names.contains field.name then
    throw (.invalidDefinition source (some field.name) (.inverseRepeatsField target field.name))
  if let .relation relation := field.kind then
    -- Only the counterparts that lead back to the source are held against the policy.
    if relation.target = source then
      let _ ← Identifier.checkAt place field.name
      if relation.kind.hasColumn then
        let _ ← Identifier.checkAt place (relation.columnName field.name)
  let columns ←
    match field.columnName? with
    | some column =>
      if taken.columns.contains column then
        throw (.invalidDefinition source (some field.name)
          (.inverseRepeatsColumn target column))
      else pure (column :: taken.columns)
    | none => pure taken.columns
  return { names := field.name :: taken.names, columns := columns }

/-- An edited target still has distinct names and columns, all within the policy. -/
def checkFit (source : String) (target : Model) : Except Error Unit := do
  let _ ← target.fields.foldlM (checkFieldFits source target.name) ⟨[], []⟩

/-- The statement for the column of one counterpart, if the target lacked it. -/
def columnFor (context : Context) (source : String) (before after : Model)
    (insertion : Insertion) : Except Error (Option Statement) := do
  let found := do
    let index ← after.counterpartIndex? source insertion.field insertion.counterpart.name
    after.fields[index]?
  match found with
  | none => return none
  | some field =>
    -- A column that the target had before is not declared a second time.
    let isNew := field.columnName?.any fun column => !before.columnNames.contains column
    if isNew then
      match ← context.column after field with
      | some column => return some (← Statement.addColumnTo before.name column)
      | none => return none
    else return none

/-- Check an edit against its target as it is known, and add the statements for new columns. -/
def complete (context : Context) (source before : Model) (edit : TargetEdit) :
    Except Error TargetEdit := do
  checkCollisions source before edit.insertions
  let after := (edit.apply source.name before).1
  checkFit source.name after
  let columns ← edit.insertions.mapM (columnFor context source.name before after)
  return { edit with columns := columns.filterMap id }

end TargetEdit

/-- Everything a definition or an update has to do. -/
structure WritePlan where
  model : String
  /-- The resolved definition to store. -/
  definition : Model
  /-- The statements of the model itself: drops of obsolete join tables, the table, new columns,
  join tables. -/
  statements : List Statement
  /-- The edits to related models, in order of name. -/
  edits : List TargetEdit
  /-- The state in which the record of the model has to be found. -/
  expect : Expect

namespace WritePlan

/-- The counterparts to take away from known targets, each with its target. -/
def removals (context : Context) (source : String) (removed : List Field) :
    List (String × Removal) :=
  removed.filterMap fun field => do
    let relation ← field.relation?
    -- A target that is not known, or is a system model, has nothing to be taken from.
    if relation.target = source || context.system.contains relation.target ||
        !context.known.contains relation.target then none
    else some (relation.target, ⟨field.name, field.counterpartName source⟩)

/-- The counterparts to put in place on other models of the catalog, each with its target. -/
def insertions (context : Context) (source : Model) : List (String × Insertion) :=
  source.fields.filterMap fun field => do
    let relation ← field.relation?
    if relation.target = source.name || context.system.contains relation.target then none
    else some (relation.target, ⟨field.name, ← field.counterpart? source.name⟩)

/-- The edits for all targets, in order of name, before any check. -/
def drafts (context : Context) (source : Model) (removed : List Field) : List TargetEdit :=
  let gone := removals context source.name removed
  let put := insertions context source
  -- A target may appear for relations that go, for relations that come, or for both.
  let targets : NameSet := Roster.ofList (gone.map Prod.fst ++ put.map Prod.fst)
  targets.members.map fun target =>
    { target := target
      removals := gone.filterMap fun pair => if pair.1 = target then some pair.2 else none
      insertions := put.filterMap fun pair => if pair.1 = target then some pair.2 else none
      columns := [] }

/-- The edits to related models, checked against what is known of them; columns are compiled in
the context after the write. -/
def propagation (context after : Context) (source : Model) (removed : List Field) :
    Except Error (List TargetEdit) :=
  (drafts context source removed).mapM fun edit =>
    match context.known.find? edit.target with
    | some before => edit.complete after source before
    -- A target that is not known has nothing to be checked against.
    | none => .ok edit

/-- The statements that add the columns a new version has and the old one lacks. -/
def newColumns (context : Context) (old model : Model) : Except Error (List Statement) := do
  let statements ← (model.fieldsWithNewColumns old).mapM fun field => do
    match ← context.column model field with
    | some column => return some (← Statement.addColumnTo model.name column)
    | none => return none
  return statements.filterMap id

end WritePlan

open WritePlan in
/-- Plan the first version of a model, or the next one when an old record is given. -/
def Context.planWrite (context : Context) (old : Option Record) (model : Model) :
    Except Error WritePlan := do
  -- The declared fields are checked before resolution, and all fields after it.
  model.validate context.system context.known
  let oldModel := old.map Record.definition
  let resolved ← context.resolve oldModel model
  resolved.validate context.system context.known
  let after : Context := { context with known := context.known.insert resolved }
  let change := RelationChange.between context.system oldModel resolved
  let drops ← change.obsoleteTables.mapM Statement.dropTableOf
  let synthesis ← after.synthesize resolved
  let columns ←
    match oldModel with
    | some oldModel => newColumns after oldModel resolved
    | none => pure []
  let edits ← propagation context after resolved change.removed
  return {
    model := resolved.name
    definition := resolved
    -- The table comes before its columns, and the join tables that refer to it come last.
    statements := drops ++ synthesis.table :: columns ++ synthesis.joinTables
    edits := edits
    expect := Expect.ofRecord old }

end ModelCatalog
