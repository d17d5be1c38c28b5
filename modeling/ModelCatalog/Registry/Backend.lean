import ModelCatalog.Execution.Recorder
import ModelCatalog.Journal.Basic
import ModelCatalog.Registry.Step
import ModelCatalog.Sql.Statement
import ModelCatalog.Store.Basic

/-! What a registry works with: records, statements and the journal, on one shared state. -/

namespace ModelCatalog

/-- The services a registry calls, as steps on a state `σ`. -/
structure Backend (σ : Type) where
  /-- Read the record of a name. -/
  get : String → Step σ (Option Record)
  /-- Write a definition under a guard. -/
  put : Model → Expect → Step σ Record
  /-- Remove the record of a name under a guard. -/
  delete : String → Expect → Step σ Unit
  /-- Read all records, in order of name. -/
  listAll : Step σ (List Record)
  /-- Make sure that all writes will last. -/
  flush : Step σ Unit
  /-- Apply statements in order. -/
  executeBatch : List Statement → σ → Except StatementFailure Unit × σ
  /-- Batches are applied as a whole or not at all. -/
  isTransactional : σ → Bool
  /-- Note down a new operation. -/
  begin : String → OperationKind → σ → Operation × σ
  /-- Save the state of an operation. -/
  save : Operation → σ → σ
  /-- Forget an operation. -/
  remove : Nat → σ → σ
  /-- Forget all operations but one, and count them. -/
  clearExcept : Option Nat → σ → Nat × σ
  /-- The operations that have not ended well. -/
  pending : σ → List Operation

/-- The position at which a batch failed; a failure that does not tell it counts as that of the
first statement. -/
def failedIndex (failure : StatementFailure) : Nat := failure.splitBatch.1.getD 0

/-- The error for a failed batch, which tells of the statement that failed. -/
def Error.ofBatch (model : String) (first : Statement) (rest : List Statement)
    (failure : StatementFailure) : Error :=
  let index := failedIndex failure
  -- A position outside the batch is put down to the first statement.
  let failed := (first :: rest)[index]?.getD first
  .ofStatement model failed.table.text failed.kind index failure.splitBatch.2

/-- Records, executed statements and the journal, held in memory. -/
structure Database where
  store : Store
  journal : Journal
  recorder : Recorder
  /-- The time at which writes take place. -/
  now : Nat

namespace Database

/-- A database in which nothing is stored. -/
def empty (transactional : Bool) (now : Nat) : Database where
  store := ∅
  journal := .empty
  recorder := .new transactional
  now := now

/-- A database that holds definitions in their first versions. -/
def ofModels (models : List Model) (now : Nat) : Database :=
  { empty false now with
    store := Roster.ofList (models.map fun model => .intact (.first model now)) }

/-- Read the record of a name. -/
def get (name : String) : Step Database (Option Record) := fun database =>
  (database.store.get name, database)

/-- Write a definition under a guard. -/
def put (definition : Model) (expect : Expect) : Step Database Record := fun database =>
  match database.store.put definition expect database.now with
  | .ok (record, store) => (.ok record, { database with store := store })
  | .error error => (.error error, database)

/-- Remove the record of a name under a guard. -/
def delete (name : String) (expect : Expect) : Step Database Unit := fun database =>
  match database.store.delete name expect with
  | .ok store => (.ok (), { database with store := store })
  | .error error => (.error error, database)

/-- Read all records, in order of name. -/
def listAll : Step Database (List Record) := fun database =>
  (database.store.listAll, database)

/-- Apply statements in order. -/
def executeBatch (statements : List Statement) (database : Database) :
    Except StatementFailure Unit × Database :=
  -- The recorder sees the text of the statements and nothing else.
  let outcome := database.recorder.executeBatch (statements.map Statement.sql)
  (outcome.1, { database with recorder := outcome.2 })

/-- Note down a new operation. -/
def begin (model : String) (kind : OperationKind) (database : Database) : Operation × Database :=
  let begun := database.journal.begin model kind
  (begun.1, { database with journal := begun.2 })

/-- Forget all operations but one, and count them. -/
def clearExcept (keep : Option Nat) (database : Database) : Nat × Database :=
  let cleared := database.journal.clearExcept keep
  (cleared.1, { database with journal := cleared.2 })

/-- The services of a database that no one else uses. -/
def backend : Backend Database where
  get := get
  put := put
  delete := delete
  listAll := listAll
  flush := Step.pure ()
  executeBatch := executeBatch
  isTransactional := fun database => database.recorder.transactional
  begin := begin
  save := fun operation database =>
    { database with journal := database.journal.save operation }
  remove := fun id database => { database with journal := database.journal.remove id }
  clearExcept := clearExcept
  pending := fun database => database.journal.pending

end Database

end ModelCatalog
