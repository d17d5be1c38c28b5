import ModelCatalog.Error
import ModelCatalog.Model.Basic

/-! Stored versions of models, and the guards under which they are written. -/

namespace ModelCatalog

/-- A stored model with its bookkeeping. -/
structure Record where
  definition : Model
  /-- One at first, and one more with every write. -/
  version : Nat
  /-- When the first version was written. -/
  createdAt : Nat
  /-- When this version was written. -/
  updatedAt : Nat
  deriving DecidableEq

namespace Record

/-- The name of the stored model. -/
def name (record : Record) : String := record.definition.name

/-- The fingerprint of the stored definition. -/
def fingerprint (record : Record) : Fingerprint := record.definition.fingerprint

/-- The first version of a model. -/
def first (definition : Model) (now : Nat) : Record :=
  { definition := definition, version := 1, createdAt := now, updatedAt := now }

/-- The next version of a model; time does not run backwards. -/
def next (record : Record) (definition : Model) (now : Nat) : Record :=
  { definition := definition
    version := record.version + 1
    createdAt := record.createdAt
    -- A clock that was set back does not make the new version older than the last.
    updatedAt := max now record.updatedAt }

/-- Equality of records, by which numeric defaults compare as numbers. -/
def sameAs (left right : Record) : Bool :=
  left.definition.sameAs right.definition && left.version == right.version &&
    left.createdAt == right.createdAt && left.updatedAt == right.updatedAt

end Record

instance : Named Record := ⟨Record.name⟩

/-- The state in which a record has to be for a write to take place. -/
inductive Expect where
  /-- Any state will do. -/
  | any
  /-- There must be no record. -/
  | absent
  /-- The record must be there in this version. -/
  | version (number : Nat)
  deriving DecidableEq, Repr

namespace Expect

/-- The words for an expected state. -/
def text : Expect → String
  | any => "any"
  | absent => "absent"
  | version number => "version " ++ toString number

/-- The state in which a record was read. -/
def ofRecord : Option Record → Expect
  | some record => version record.version
  | none => absent

/-- The words for the state a record was found in. -/
def found : Option Record → String
  | some record => "version " ++ toString record.version
  | none => "absent"

/-- The record is in the expected state. -/
def holds : Expect → Option Record → Bool
  | any, _ => true
  | absent, current => current.isNone
  | version number, some record => record.version == number
  | version _, none => false

/-- Refuse a write to a record that is not in the expected state. -/
def check (expect : Expect) (model : String) (current : Option Record) : Except Error Unit :=
  if expect.holds current then .ok ()
  else .error (.conflict model expect.text (found current))

end Expect

end ModelCatalog
