import ModelCatalog.Registry.Backend

/-! Operations under way: effects are counted and the journal follows them. -/

namespace ModelCatalog

/-- A state together with the operation that is changing it. -/
structure InProgress (σ : Type) where
  operation : Operation
  state : σ

namespace InProgress

variable {σ α : Type}

/-- Take a step on the state while the operation is under way. -/
def lift (step : Step σ α) : Step (InProgress σ) α := fun progress =>
  let after := step progress.state
  (after.1, { progress with state := after.2 })

/-- Count steps as done. -/
def advance (steps : Nat) : Step (InProgress σ) Unit :=
  .ofUpdate fun progress =>
    ((), { progress with operation := progress.operation.advance steps })

/-- Save the operation as it stands. -/
def save (backend : Backend σ) : Step (InProgress σ) Unit :=
  .ofUpdate fun progress =>
    ((), { progress with state := backend.save progress.operation progress.state })

/-- Bring the operation into another status, and save it. -/
def setStatus (backend : Backend σ) (status : OperationStatus) : Step (InProgress σ) Unit := do
  .ofUpdate fun progress =>
    ((), { progress with operation := progress.operation.transition status })
  save backend

/-- Apply statements for a model as one batch, and count those that took effect. -/
def runBatch (backend : Backend σ) (model : String) : List Statement → Step (InProgress σ) Unit
  | [] => .pure ()
  | first :: rest => fun progress =>
    let statements := first :: rest
    let transactional := backend.isTransactional progress.state
    match backend.executeBatch statements progress.state with
    | (.ok _, state) =>
      (do advance statements.length; save backend) { progress with state := state }
    | (.error failure, state) =>
      -- Without a transaction the statements before the failed one stay applied.
      let operation :=
        if transactional then progress.operation
        else progress.operation.advance (failedIndex failure)
      (.error (.ofBatch model first rest failure), { operation := operation, state := state })

/-- The error an operation ends with, which tells whether effects stay behind. -/
def failure (operation : Operation) (error : Error) : Error :=
  -- Where no step was done there is nothing to be recovered, and the error stands for itself.
  if operation.completedSteps = 0 then error
  else .partway operation.model operation.id operation.completedSteps error

/-- Carry out an operation under the eyes of the journal: one that ends well leaves no entry, and
one that fails leaves its error. -/
def journaled (backend : Backend σ) (model : String) (kind : OperationKind)
    (work : Step (InProgress σ) α) : Step σ α := fun state =>
  let begun := backend.begin model kind state
  match work { operation := begun.1, state := begun.2 } with
  | (.ok value, done) => (.ok value, backend.remove done.operation.id done.state)
  | (.error error, stopped) =>
    (.error (failure stopped.operation error),
      backend.save (stopped.operation.fail error.message) stopped.state)

end InProgress

end ModelCatalog
