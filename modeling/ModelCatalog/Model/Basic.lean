import ModelCatalog.Model.Field
import ModelCatalog.Roster

/-! Model definitions and the collections they are known by. -/

namespace ModelCatalog

/-- A model: a name and the fields in the order of their columns. -/
structure Model where
  name : String
  fields : List Field
  deriving DecidableEq

instance : Named Model := ⟨Model.name⟩

/-- Known models, each under its own name. -/
abbrev Models := Roster Model

namespace Model

/-- The first field of a name. -/
def field? (model : Model) (name : String) : Option Field :=
  model.fields.find? fun field => field.name == name

/-- The position of the first field of a name. -/
def fieldIndex? (model : Model) (name : String) : Option Nat :=
  model.fields.findIdx? fun field => field.name == name

/-- The fields that stand for relations, each with its relation. -/
def relations (model : Model) : List (Field × Relation) :=
  model.fields.filterMap fun field => field.relation?.map fun relation => (field, relation)

/-- Some field is a relation to this model. -/
def references (model : Model) (target : String) : Bool :=
  model.fields.any fun field => field.targets target

/-- Equality of definitions, by which numeric defaults compare as numbers. -/
def sameAs (left right : Model) : Bool :=
  left.name == right.name && Field.sameList left.fields right.fields

end Model

/-- What identifies the exact content of a definition: digests of two definitions agree exactly
when the definitions do. -/
structure Fingerprint where
  content : Model
  deriving DecidableEq

/-- The number of hexadecimal digits in which a fingerprint is reported. -/
def Fingerprint.digits : Nat := 64

/-- The fingerprint of a definition. -/
def Model.fingerprint (model : Model) : Fingerprint := ⟨model⟩

end ModelCatalog
