import ModelCatalog.Duration
import ModelCatalog.Model.System

/-! The settings of a registry. -/

namespace ModelCatalog

/-- The settings of a registry. -/
structure Configuration where
  system : SystemModels
  /-- How long an operation waits for its names. -/
  lockTimeout : Duration
  /-- How long a statement may take, where the executor can limit it. -/
  statementTimeout : Duration
  /-- How often a write is tried again when the record has changed. -/
  conflictRetries : Nat
  /-- Every model gets the audit fields. -/
  auditFields : Bool

/-- The settings unless others are given. -/
def Configuration.standard : Configuration where
  system := .standard
  lockTimeout := .ofSeconds 30
  statementTimeout := .ofSeconds 30
  conflictRetries := 3
  auditFields := false

end ModelCatalog
