/-! Operations on the catalog and how far they have come. -/

namespace ModelCatalog

/-- What an operation does. -/
inductive OperationKind where
  | define
  | update
  | delete
  | reconcile
  deriving DecidableEq, Repr

/-- The word for a kind of operation. -/
def OperationKind.label : OperationKind → String
  | define => "define"
  | update => "update"
  | delete => "delete"
  | reconcile => "reconcile"

/-- The kind of a word, if it is one. -/
def OperationKind.ofLabel? : String → Option OperationKind
  | "define" => some define
  | "update" => some update
  | "delete" => some delete
  | "reconcile" => some reconcile
  | _ => none

/-- How far an operation has come. -/
inductive OperationStatus where
  /-- Noted down, nothing applied yet. -/
  | pending
  /-- Its own statements are being applied. -/
  | applying
  /-- Related models are being changed. -/
  | propagating
  | complete
  | failed
  deriving DecidableEq, Repr

/-- The word for a status. -/
def OperationStatus.label : OperationStatus → String
  | pending => "pending"
  | applying => "applying"
  | propagating => "propagating"
  | complete => "complete"
  | failed => "failed"

/-- The status of a word, if it is one. -/
def OperationStatus.ofLabel? : String → Option OperationStatus
  | "pending" => some pending
  | "applying" => some applying
  | "propagating" => some propagating
  | "complete" => some complete
  | "failed" => some failed
  | _ => none

/-- One operation. -/
structure Operation where
  id : Nat
  model : String
  kind : OperationKind
  status : OperationStatus
  /-- The statements applied and the records written or removed so far. -/
  completedSteps : Nat
  /-- The text of the error that ended the operation. -/
  error : Option String
  deriving DecidableEq, Repr

namespace Operation

/-- An operation that has not begun. -/
def new (id : Nat) (model : String) (kind : OperationKind) : Operation where
  id := id
  model := model
  kind := kind
  status := .pending
  completedSteps := 0
  error := none

/-- The operation in another status. -/
def transition (operation : Operation) (status : OperationStatus) : Operation :=
  { operation with status := status }

/-- The operation some steps further. -/
def advance (operation : Operation) (steps : Nat) : Operation :=
  { operation with completedSteps := operation.completedSteps + steps }

/-- The operation ended by an error. -/
def fail (operation : Operation) (message : String) : Operation :=
  { operation with status := .failed, error := some message }

/-- The operation as it is read back from a file, which keeps 32 bits of the count of steps. The
journal keeps operations and no files, and counts without a bound: the two agree on an operation
that has taken fewer than `2 ^ 32` steps. -/
def recorded (operation : Operation) : Operation :=
  { operation with completedSteps := operation.completedSteps % Nat.pow 2 32 }

/-- A file keeps an operation exactly when the count of its steps has 32 bits. -/
theorem recorded_eq_self_iff {operation : Operation} :
    operation.recorded = operation ↔ operation.completedSteps < Nat.pow 2 32 := by
  constructor
  · intro same
    have kept : operation.completedSteps % Nat.pow 2 32 = operation.completedSteps :=
      congrArg completedSteps same
    rw [← kept]
    exact Nat.mod_lt _ (by decide)
  · -- A small count is its own remainder, and nothing but the count is cut.
    intro small
    rw [recorded, Nat.mod_eq_of_lt small]

/-- The operation ended well. -/
def isComplete (operation : Operation) : Bool := operation.status = .complete

end Operation

end ModelCatalog
