import ModelCatalog.Model.DefaultValue
import ModelCatalog.Model.Relation
import ModelCatalog.Model.ScalarType

/-! Fields of models. -/

namespace ModelCatalog

/-- What a field holds. -/
inductive FieldKind where
  /-- One plain value. -/
  | scalar (type : ScalarType) (primary autoIncrement : Bool)
  /-- One of a list of words. -/
  | choice (options : List String)
  /-- Rows of another model. -/
  | relation (relation : Relation)
  deriving DecidableEq

/-- A field of a model. -/
structure Field where
  name : String
  required : Bool
  unique : Bool
  default : Option DefaultValue
  kind : FieldKind
  deriving DecidableEq

namespace Field

/-- A field of which only the name and the kind are given. -/
def ofKind (name : String) (kind : FieldKind) : Field where
  name := name
  required := false
  unique := false
  default := none
  kind := kind

/-- An optional field of a scalar type. -/
def ofScalar (name : String) (type : ScalarType) : Field :=
  ofKind name (.scalar type false false)

/-- A field that stands for one side of a relation. -/
def ofRelation (name : String) (relation : Relation) : Field := ofKind name (.relation relation)

/-- The same field, never empty. -/
def asRequired (field : Field) : Field := { field with required := true }

/-- The same field, without equal values. -/
def asUnique (field : Field) : Field := { field with unique := true }

/-- The same field with a default. -/
def withDefault (field : Field) (value : DefaultValue) : Field :=
  { field with default := some value }

/-- The same field as the primary key; only scalar fields can be one. -/
def asPrimaryKey (field : Field) : Field :=
  match field.kind with
  | .scalar type _ autoIncrement => { field with kind := .scalar type true autoIncrement }
  | _ => field

/-- The same field, numbered by the database; only scalar fields can be. -/
def asAutoIncrement (field : Field) : Field :=
  match field.kind with
  | .scalar type primary _ => { field with kind := .scalar type primary true }
  | _ => field

/-- The relation a field stands for, if it does. -/
def relation? (field : Field) : Option Relation :=
  match field.kind with
  | .relation relation => some relation
  | _ => none

/-- The field is a relation to this model. -/
def targets (field : Field) (model : String) : Bool :=
  match field.kind with
  | .relation relation => relation.target == model
  | _ => false

/-- The word for the type of a field in model documents. -/
def typeLabel (field : Field) : String :=
  match field.kind with
  | .scalar type _ _ => type.label
  | .choice _ => "enum"
  | .relation _ => "relation"

/-- The field is, or carries, a primary key. -/
def isKey (field : Field) : Bool :=
  match field.kind with
  | .scalar _ primary autoIncrement => primary || autoIncrement
  | _ => false

/-- Equality of fields, by which numeric defaults compare as numbers. -/
def sameAs (left right : Field) : Bool :=
  left.name == right.name && left.required == right.required &&
    left.unique == right.unique && left.kind == right.kind &&
    match left.default, right.default with
    | none, none => true
    | some one, some other => one.sameAs other
    | _, _ => false

/-- Equality of lists of fields, in order. -/
def sameList (left right : List Field) : Bool := left.isEqv right sameAs

end Field

end ModelCatalog
