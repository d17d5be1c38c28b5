import ModelCatalog.CommandLine.Arguments
import ModelCatalog.CommandLine.Run
import ModelCatalog.CommandLine.Usage
import ModelCatalog.Document.Basic
import ModelCatalog.Document.Reader
import ModelCatalog.Duration
import ModelCatalog.Error
import ModelCatalog.Execution.Failure
import ModelCatalog.Execution.Recorder
import ModelCatalog.Identifier
import ModelCatalog.Journal.Basic
import ModelCatalog.Journal.Operation
import ModelCatalog.Json.Draft
import ModelCatalog.Json.Indented
import ModelCatalog.Json.Numeral
import ModelCatalog.Json.Value
import ModelCatalog.Locks
import ModelCatalog.Main
import ModelCatalog.Model.Basic
import ModelCatalog.Model.Columns
import ModelCatalog.Model.DefaultValue
import ModelCatalog.Model.Field
import ModelCatalog.Model.Relation
import ModelCatalog.Model.ScalarType
import ModelCatalog.Model.System
import ModelCatalog.Model.Validation
import ModelCatalog.Number.Binary64
import ModelCatalog.Number.Layout
import ModelCatalog.Number.Shortest
import ModelCatalog.Proofs.Accounting
import ModelCatalog.Proofs.BatchModes
import ModelCatalog.Proofs.BracketedLists
import ModelCatalog.Proofs.Catalog
import ModelCatalog.Proofs.ChangeLocality
import ModelCatalog.Proofs.Clearing
import ModelCatalog.Proofs.Columns
import ModelCatalog.Proofs.Commutation
import ModelCatalog.Proofs.Compilation
import ModelCatalog.Proofs.Completion
import ModelCatalog.Proofs.Consistency
import ModelCatalog.Proofs.Contention
import ModelCatalog.Proofs.Counterpart
import ModelCatalog.Proofs.CounterpartPlacement
import ModelCatalog.Proofs.Declarations
import ModelCatalog.Proofs.DeclaredColumns
import ModelCatalog.Proofs.DeleteRun
import ModelCatalog.Proofs.Deletion
import ModelCatalog.Proofs.Drafts
import ModelCatalog.Proofs.Edition
import ModelCatalog.Proofs.Executor
import ModelCatalog.Proofs.Export
import ModelCatalog.Proofs.FailureLog
import ModelCatalog.Proofs.FieldCounts
import ModelCatalog.Proofs.Footprint
import ModelCatalog.Proofs.Formation
import ModelCatalog.Proofs.GraphSteps
import ModelCatalog.Proofs.GraphWrite
import ModelCatalog.Proofs.History
import ModelCatalog.Proofs.Idempotence
import ModelCatalog.Proofs.Intact
import ModelCatalog.Proofs.Interference
import ModelCatalog.Proofs.JoinTableOwners
import ModelCatalog.Proofs.JoinTables
import ModelCatalog.Proofs.Journaling
import ModelCatalog.Proofs.KeyColumn
import ModelCatalog.Proofs.KeyTypes
import ModelCatalog.Proofs.LockSets
import ModelCatalog.Proofs.Locking
import ModelCatalog.Proofs.MendTurn
import ModelCatalog.Proofs.Mending
import ModelCatalog.Proofs.Noting
import ModelCatalog.Proofs.Numbers
import ModelCatalog.Proofs.Outcome
import ModelCatalog.Proofs.PlainFields
import ModelCatalog.Proofs.PlanLocality
import ModelCatalog.Proofs.PlannedLiterals
import ModelCatalog.Proofs.PlannedStatements
import ModelCatalog.Proofs.Preview
import ModelCatalog.Proofs.PrimaryKey
import ModelCatalog.Proofs.Reading
import ModelCatalog.Proofs.Reapplication
import ModelCatalog.Proofs.ReconcileRun
import ModelCatalog.Proofs.Recording
import ModelCatalog.Proofs.RecoveredRelations
import ModelCatalog.Proofs.Recovery
import ModelCatalog.Proofs.RedactedPlans
import ModelCatalog.Proofs.RedactedRelations
import ModelCatalog.Proofs.RedactedRepair
import ModelCatalog.Proofs.Redaction
import ModelCatalog.Proofs.Redefinition
import ModelCatalog.Proofs.Refill
import ModelCatalog.Proofs.Refusal
import ModelCatalog.Proofs.Rejection
import ModelCatalog.Proofs.RelationGraph
import ModelCatalog.Proofs.RelationInvariant
import ModelCatalog.Proofs.Repair
import ModelCatalog.Proofs.RepairFootprint
import ModelCatalog.Proofs.RepairSteps
import ModelCatalog.Proofs.RepairTurns
import ModelCatalog.Proofs.RepairedFields
import ModelCatalog.Proofs.RepairedValidity
import ModelCatalog.Proofs.RepeatedEdits
import ModelCatalog.Proofs.Replanning
import ModelCatalog.Proofs.Reresolution
import ModelCatalog.Proofs.Resolution
import ModelCatalog.Proofs.Rest
import ModelCatalog.Proofs.Retracing
import ModelCatalog.Proofs.Retry
import ModelCatalog.Proofs.Room
import ModelCatalog.Proofs.Roster
import ModelCatalog.Proofs.Sameness
import ModelCatalog.Proofs.Schema
import ModelCatalog.Proofs.SchemaInvariant
import ModelCatalog.Proofs.SchemaSteps
import ModelCatalog.Proofs.SealedSql
import ModelCatalog.Proofs.SelfMates
import ModelCatalog.Proofs.SelfPairing
import ModelCatalog.Proofs.SelfRepair
import ModelCatalog.Proofs.ServiceInvariants
import ModelCatalog.Proofs.Settled
import ModelCatalog.Proofs.StatementTokens
import ModelCatalog.Proofs.StoredValidity
import ModelCatalog.Proofs.Submission
import ModelCatalog.Proofs.Synthesis
import ModelCatalog.Proofs.TableDrops
import ModelCatalog.Proofs.TableOrder
import ModelCatalog.Proofs.TableUse
import ModelCatalog.Proofs.Tally
import ModelCatalog.Proofs.TargetEdit
import ModelCatalog.Proofs.Tokens
import ModelCatalog.Proofs.TornGraph
import ModelCatalog.Proofs.TornPlanning
import ModelCatalog.Proofs.Undoing
import ModelCatalog.Proofs.Validation
import ModelCatalog.Proofs.VersionGuard
import ModelCatalog.Proofs.WritePlan
import ModelCatalog.Proofs.WriteRun
import ModelCatalog.Registry.Backend
import ModelCatalog.Registry.Basic
import ModelCatalog.Registry.Configuration
import ModelCatalog.Registry.Delete
import ModelCatalog.Registry.Progress
import ModelCatalog.Registry.Reconcile
import ModelCatalog.Registry.Rehearsal
import ModelCatalog.Registry.Step
import ModelCatalog.Registry.Write
import ModelCatalog.Relation.Change
import ModelCatalog.Relation.Counterpart
import ModelCatalog.Relation.DeletePlan
import ModelCatalog.Relation.RepairPlan
import ModelCatalog.Relation.Resolution
import ModelCatalog.Relation.TableOrder
import ModelCatalog.Relation.WritePlan
import ModelCatalog.Roster
import ModelCatalog.Sql.Builtin
import ModelCatalog.Sql.Column
import ModelCatalog.Sql.Statement
import ModelCatalog.Sql.StatementKind
import ModelCatalog.Sql.Synthesis
import ModelCatalog.Store.Basic
import ModelCatalog.Store.Record
import ModelCatalog.Text.CapitalRuns
import ModelCatalog.Text.CodePoints
import ModelCatalog.Text.Lowercase
import ModelCatalog.Text.Quoted
