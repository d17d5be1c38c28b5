import ModelCatalog.Duration

/-! Ways in which the execution of a statement fails. -/

namespace ModelCatalog

/-- Why a statement, or a batch of them, was not executed. -/
inductive StatementFailure where
  /-- The database refused the statement, perhaps with a code. -/
  | rejected (message : String) (code : Option String)
  /-- The statement did not finish within its time. -/
  | timedOut (limit : Duration)
  /-- The connection failed or was lost. -/
  | disconnected (reason : String)
  /-- A statement of a batch failed. -/
  | inBatch (index : Nat) (cause : StatementFailure)
  deriving DecidableEq, Repr

namespace StatementFailure

/-- The text of a failure. -/
def message : StatementFailure → String
  | rejected message _ => "statement rejected: " ++ message
  | timedOut limit => "statement timed out after " ++ limit.text
  | disconnected reason => "connection error: " ++ reason
  | inBatch index cause =>
    "batch statement " ++ toString index ++ " failed: " ++ cause.message

/-- The failure may go away when the statement is tried again. -/
def isTransient : StatementFailure → Bool
  | rejected .. => false
  | timedOut _ => true
  | disconnected _ => true
  | inBatch _ cause => cause.isTransient

/-- The position of the failed statement in its batch, and the cause. -/
def splitBatch : StatementFailure → Option Nat × StatementFailure
  | inBatch index cause => (some index, cause)
  | other => (none, other)

end StatementFailure

end ModelCatalog
