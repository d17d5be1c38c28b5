import ModelCatalog.Execution.Failure
import ModelCatalog.Sql.StatementKind
import ModelCatalog.Text.Quoted

/-! Errors of the catalog: their causes, their classes and their wording. -/

namespace ModelCatalog

/-- Where in a model an error lies: at the model itself or at one of its fields. -/
structure Place where
  model : String
  field : Option String
  deriving DecidableEq, Repr

/-- What is wrong with the type of a field. -/
inductive TypeFault where
  | noOptions
  | repeatedOption (option : String)
  | emptyOptionList
  | unknownRelationKind (kind : String)
  | unknownType (type : String)
  | stated (reason : String)
  deriving DecidableEq, Repr

/-- The text of a fault in a type. -/
def TypeFault.reason : TypeFault → String
  | noOptions => "enum requires at least one option"
  | repeatedOption option => "duplicate enum option " ++ Text.quoted option
  | emptyOptionList => "enum requires a non-empty `options` list"
  | unknownRelationKind kind => "unknown relation kind " ++ Text.quoted kind
  | unknownType type => "unknown field type " ++ Text.quoted type
  | stated reason => reason

/-- Why a counterpart may not take its place on the target of a relation. -/
inductive CounterpartFault where
  | notRelation (name : String)
  | relatedElsewhere (name target : String)
  | alreadyPaired (name source field : String)
  deriving DecidableEq, Repr

/-- The text of a fault in the place of a counterpart. -/
def CounterpartFault.reason : CounterpartFault → String
  | notRelation name => name ++ " is a non-relation field"
  | relatedElsewhere name target => name ++ " is a relation to " ++ target
  | alreadyPaired name source field =>
    name ++ " already pairs with " ++ source ++ "." ++ field

/-- What is wrong with the structure of a definition. -/
inductive DefinitionFault where
  | repeatedField
  | nonFiniteDefault
  | keyNotId
  | secondKey
  | sharedColumn (column : String)
  | equalJoinColumns
  | noRelationKind
  | noTarget
  | unknownOnDelete (action : String)
  | defaultNotScalar (value : String)
  | asymmetricSelfInverse
  | inverseTaken (target name field : String)
  | inverseCollides (target : String) (fault : CounterpartFault)
  | inverseRepeatsField (target field : String)
  | inverseRepeatsColumn (target column : String)
  | stated (reason : String)
  deriving DecidableEq, Repr

/-- The text of a fault in a definition. -/
def DefinitionFault.reason : DefinitionFault → String
  | repeatedField => "duplicate field name"
  | nonFiniteDefault => "default must be a finite number"
  | keyNotId => "primary key must be the `id` field; `id` is synthesized when absent"
  | secondKey => "multiple primary key fields"
  | sharedColumn column => "column " ++ column ++ " is produced by more than one field"
  | equalJoinColumns => "join table columns collide"
  | noRelationKind => "relation requires `relation` kind"
  | noTarget => "relation requires a `target`"
  | unknownOnDelete action => "unknown onDelete action " ++ Text.quoted action
  | defaultNotScalar value => "default must be a scalar literal, got " ++ value
  | asymmetricSelfInverse =>
    "a self-relation can only be its own inverse when one-to-one or many-to-many"
  | inverseTaken target name field =>
    "inverse " ++ target ++ "." ++ name ++ " is already claimed by field " ++ field
  | inverseCollides target fault =>
    "inverse collides on " ++ target ++ ": " ++ fault.reason
  | inverseRepeatsField target field =>
    "inverse on " ++ target ++ ": duplicate field " ++ field
  | inverseRepeatsColumn target column =>
    "inverse on " ++ target ++ ": duplicate column " ++ column
  | stated reason => reason

/-- Why an operation may succeed when it is tried again. -/
inductive TransientCause where
  | lockTimeout (limit : Duration)
  | relationsChanging
  | referencesChanging
  | modelsChanging
  | statement (kind : StatementKind) (table : String) (failure : StatementFailure)
  | stated (reason : String)
  deriving DecidableEq, Repr

/-- The text of a transient cause. -/
def TransientCause.reason : TransientCause → String
  | lockTimeout limit => "timed out after " ++ limit.text ++ " waiting for model lock"
  | relationsChanging => "related models kept changing while locking"
  | referencesChanging => "referencing models kept changing while locking"
  | modelsChanging => "models kept changing while locking"
  | statement kind table failure =>
    kind.label ++ " on " ++ table ++ ": " ++ failure.message
  | stated reason => reason

/-- Everything that can go wrong in the catalog. -/
inductive Error where
  /-- A name failed the identifier policy. -/
  | invalidIdentifier (name : String) (place : Option Place)
  /-- A field has an unknown type or malformed type attributes. -/
  | unsupportedType (model field : String) (fault : TypeFault)
  /-- A relation targets a model that is neither known nor a system model. -/
  | targetNotFound (model field target : String)
  /-- The structure of a definition is wrong. -/
  | invalidDefinition (model : String) (field : Option String) (fault : DefinitionFault)
  /-- The database refused a statement. -/
  | execution (model table : String) (kind : StatementKind) (index : Nat)
      (failure : StatementFailure)
  /-- Something timed out or was lost, or the state kept changing. -/
  | transient (model : String) (cause : TransientCause)
  /-- The model does not exist. -/
  | notFound (model : String)
  /-- The stored record is not in the state that was expected. -/
  | conflict (model expected found : String)
  /-- The storage failed. -/
  | storage (reason : String)
  /-- A record could not be encoded. -/
  | unencodable (reason : String)
  /-- A record could not be decoded. -/
  | undecodable (reason : String)
  /-- An operation failed after it had taken effect in part. -/
  | partway (model : String) (operation steps : Nat) (cause : Error)
  deriving DecidableEq, Repr

/-- The class of an error, which stays the same when the error is wrapped. -/
inductive ErrorKind where
  | invalidIdentifier
  | unsupportedType
  | targetNotFound
  | invalidDefinition
  | execution
  | transient
  | notFound
  | conflict
  | storage
  | serialization
  deriving DecidableEq, Repr

namespace Error

/-- The class of an error; one that was wrapped keeps its own. -/
def kind : Error → ErrorKind
  | invalidIdentifier .. => .invalidIdentifier
  | unsupportedType .. => .unsupportedType
  | targetNotFound .. => .targetNotFound
  | invalidDefinition .. => .invalidDefinition
  | execution .. => .execution
  | transient .. => .transient
  | notFound _ => .notFound
  | conflict .. => .conflict
  | storage _ => .storage
  | unencodable _ => .serialization
  | undecodable _ => .serialization
  | partway _ _ _ cause => cause.kind

/-- Effects had been applied before the failure. -/
def isPartial : Error → Bool
  | partway .. => true
  | _ => false

/-- The same operation may succeed when it is tried again. -/
def isRetryable (error : Error) : Bool :=
  error.kind = .transient || error.kind = .conflict

/-- Say where a refused name was found; other errors stay as they are. -/
def locate (place : Place) : Error → Error
  | invalidIdentifier name _ => invalidIdentifier name (some place)
  | other => other

/-- The error for a failed statement, which depends on whether it may be tried again. -/
def ofStatement (model table : String) (kind : StatementKind) (index : Nat)
    (failure : StatementFailure) : Error :=
  -- What may be tried again is told apart by the failure, not by the statement.
  if failure.isTransient then .transient model (.statement kind table failure)
  else .execution model table kind index failure

/-- The text of an error. -/
def message : Error → String
  | invalidIdentifier name place =>
    "invalid identifier " ++ Text.quoted name ++
      match place with
      | some ⟨model, some field⟩ => " in " ++ model ++ "." ++ field
      | some ⟨model, none⟩ => " in " ++ model
      | none => ""
  | unsupportedType model field fault =>
    "unsupported type for " ++ model ++ "." ++ field ++ ": " ++ fault.reason
  | targetNotFound model field target =>
    "relation " ++ model ++ "." ++ field ++ " targets unknown model " ++ target
  | invalidDefinition model field fault =>
    "invalid definition for " ++ model ++
      (match field with | some field => "." ++ field | none => "") ++ ": " ++ fault.reason
  | execution model table kind index failure =>
    kind.label ++ " on table " ++ table ++ " (statement " ++ toString index ++
      ") failed for model " ++ model ++ ": " ++ failure.message
  | transient model cause => "transient failure for model " ++ model ++ ": " ++ cause.reason
  | notFound model => "model not found: " ++ model
  | conflict model expected found =>
    "version conflict on " ++ model ++ ": expected " ++ expected ++ ", found " ++ found
  | storage reason => "storage error: " ++ reason
  | unencodable reason => "serialization error: " ++ reason
  | undecodable reason => "deserialization error: " ++ reason
  | partway model operation steps cause =>
    "operation " ++ toString operation ++ " on " ++ model ++ " failed after " ++
      toString steps ++ " applied step(s): " ++ cause.message

end Error

end ModelCatalog
