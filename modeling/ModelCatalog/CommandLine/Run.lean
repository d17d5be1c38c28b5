import ModelCatalog.CommandLine.Arguments
import ModelCatalog.Document.Reader
import ModelCatalog.Registry.Delete
import ModelCatalog.Registry.Reconcile

/-! Carrying out commands: statements are recorded and shown, and stored models stay as they are. -/

namespace ModelCatalog

/-- Why a command failed. -/
inductive CommandError where
  /-- A file could not be read. -/
  | unreadable (path reason : String)
  | catalog (error : Error)
  /-- The database could not be reached. -/
  | database (failure : StatementFailure)
  deriving DecidableEq, Repr

/-- The text of a failure. -/
def CommandError.message : CommandError → String
  | unreadable path reason => "failed to read " ++ path ++ ": " ++ reason
  | catalog error => error.message
  | database failure => failure.message

namespace Command

/-- The JSON form of a stored model. -/
def recordJson (record : Record) : Json :=
  .object ((ModelDocument.ofModel record.definition).members ++
    [("version", .ofNat record.version), ("createdAt", .ofNat record.createdAt),
      ("updatedAt", .ofNat record.updatedAt)])

/-- The JSON form of a statement. -/
def statementJson (statement : Statement) : Json :=
  .object [("kind", .string statement.kind.label), ("table", .string statement.table.text),
    ("sql", .string statement.sql)]

/-- The JSON form of an operation. -/
def operationJson (operation : Operation) : Json :=
  .object [("id", .ofNat operation.id), ("model", .string operation.model),
    ("kind", .string operation.kind.label), ("status", .string operation.status.label),
    ("completedSteps", .ofNat operation.completedSteps),
    ("error", .ofText? operation.error)]

/-- The JSON form of the report of a repair. -/
def reportJson (report : RepairReport) : Json :=
  .object [("modelsScanned", .ofNat report.modelsScanned),
    ("fieldsAdded", .ofNat report.fieldsAdded),
    ("fieldsUpdated", .ofNat report.fieldsUpdated),
    ("fieldsRemoved", .ofNat report.fieldsRemoved),
    ("modelsRewritten", .ofNat report.modelsUpdated),
    ("statementsApplied", .ofNat report.statementsApplied),
    ("operationsCleared", .ofNat report.operationsCleared)]

/-- The model of a document. -/
def modelOfText (text : String) : Except Error Model := do
  (← ModelDocument.ofText text).toModel

/-- Where the text of files comes from: the text, or the reason why there is none. -/
abbrev Files := String → Except String String

/-- Read the model of a document in a file. -/
def readModel (files : Files) (path : String) : Except CommandError Model :=
  match files path with
  | .ok text => (modelOfText text).mapError .catalog
  | .error reason => .error (.unreadable path reason)

/-- The database a command runs on: a fresh recorder, and for a command that changes models a
fresh journal, since its changes are given up afterwards. -/
def rehearsalOf (command : Command) (database : Database) : Database :=
  { database with
    recorder := .new false
    journal := if command.isMutating then .empty else database.journal }

/-- The output of a step that may have recorded statements. -/
def withRecorded {α : Type} (step : Step Database α) (json : α → Json) (database : Database) :
    Except CommandError Json :=
  match step database with
  | (.error error, _) => .error (.catalog error)
  | (.ok value, after) =>
    -- A step that has recorded nothing shows its result alone.
    if after.recorder.applied.isEmpty then .ok (json value)
    else .ok (.object [("result", json value),
      ("dryRun", .array (after.recorder.applied.map .string))])

/-- The output of a step that only looks. -/
def withResult {α : Type} (step : Step Database α) (json : α → Json) (database : Database) :
    Except CommandError Json :=
  match (step database).1 with
  | .error error => .error (.catalog error)
  | .ok value => .ok (json value)

/-- The statements that create the tables of a definition, as they are worked out from the stored
models other than the one of its name. What a definition would take over from the version stored of
it, such as the join table that a field has there, does not show. -/
def previewOf (registry : Registry Database) (definition : Model) :
    Step Database (List Statement) := do
  -- The model's own record is taken out of what is known, and with it all that its fields recorded.
  let known ← registry.knownModels
  .ofExcept (registry.preview (known.erase definition.name) definition)

/-- Carry out a command on a database. -/
def run (configuration : Configuration) (files : Files) (command : Command)
    (database : Database) : Except CommandError Json := do
  let registry : Registry Database := ⟨Database.backend, configuration⟩
  let database := command.rehearsalOf database
  match command with
  | .define file =>
    let model ← readModel files file
    withRecorded (registry.define model.name model.fields) recordJson database
  | .update file =>
    let model ← readModel files file
    withRecorded (registry.update model.name model.fields) recordJson database
  | .delete name =>
    withRecorded (registry.delete name) (fun _ => .object [("deleted", .string name)]) database
  | .display name => withResult (registry.record name) recordJson database
  | .list => withResult registry.names (fun names => .array (names.map .string)) database
  | .preview file =>
    let model ← readModel files file
    withResult (previewOf registry model)
      (fun statements => .array (statements.map statementJson)) database
  | .reconcile reapplying => withRecorded (registry.reconcile reapplying) reportJson database
  | .bootstrap =>
    withRecorded registry.bootstrap (fun count => .object [("statements", .ofNat count)]) database
  | .pending =>
    withResult registry.pendingOperations
      (fun operations => .array (operations.map operationJson)) database

end Command

/-- Carry out a command line. No database can be reached, so one must not be asked for. -/
def Arguments.run (arguments : Arguments) (files : Command.Files) (database : Database) :
    Except CommandError Json :=
  match arguments.databaseUrl with
  | some _ => .error (.database (.disconnected "built without PostgreSQL support"))
  | none => arguments.command.run arguments.configuration files database

end ModelCatalog
