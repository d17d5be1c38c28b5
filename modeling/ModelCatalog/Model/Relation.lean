/-! Relations between models, as one side declares them. -/

namespace ModelCatalog

/-- How many rows stand on either side of a relation, seen from the side that declares it. -/
inductive RelationKind where
  | oneToOne
  | oneToMany
  | manyToOne
  | manyToMany
  deriving DecidableEq, Repr

namespace RelationKind

/-- The kind as the other side sees it. -/
def inverse : RelationKind → RelationKind
  | oneToOne => oneToOne
  | oneToMany => manyToOne
  | manyToOne => oneToMany
  | manyToMany => manyToMany

/-- This side holds the foreign key in a column of its own. -/
def hasColumn : RelationKind → Bool
  | oneToOne | manyToOne => true
  | oneToMany | manyToMany => false

/-- The relation lives in a table of its own. -/
def usesJoinTable (kind : RelationKind) : Bool := kind = manyToMany

/-- The word for a kind in model documents. -/
def label : RelationKind → String
  | oneToOne => "one-to-one"
  | oneToMany => "one-to-many"
  | manyToOne => "many-to-one"
  | manyToMany => "many-to-many"

/-- The kind of a word, if it is one. -/
def ofLabel? : String → Option RelationKind
  | "one-to-one" => some oneToOne
  | "one-to-many" => some oneToMany
  | "many-to-one" => some manyToOne
  | "many-to-many" => some manyToMany
  | _ => none

end RelationKind

/-- What happens to referring rows when the row they refer to is deleted. -/
inductive OnDelete where
  | cascade
  | restrict
  | setNull
  deriving DecidableEq, Repr

namespace OnDelete

/-- The words for an action in SQL. -/
def sql : OnDelete → String
  | cascade => "CASCADE"
  | restrict => "RESTRICT"
  | setNull => "SET NULL"

/-- The action of a word in model documents, in unaccented letters of either case. -/
def ofLabel? (word : String) : Option OnDelete :=
  match word.toUpper with
  | "CASCADE" => some cascade
  | "RESTRICT" => some restrict
  | "SET NULL" | "SET_NULL" => some setNull
  | _ => none

end OnDelete

/-- One side of a relation between two models. -/
structure Relation where
  kind : RelationKind
  /-- The model on the other side. -/
  target : String
  /-- The field of the target that stands for the other side. -/
  inverseName : Option String
  /-- The foreign-key column, where it was named. -/
  foreignKey : Option String
  /-- The join table, where it was named. -/
  joinTable : Option String
  onDelete : Option OnDelete
  deriving DecidableEq, Repr

/-- A relation of which only the kind and the target are given. -/
def Relation.to (kind : RelationKind) (target : String) : Relation where
  kind := kind
  target := target
  inverseName := none
  foreignKey := none
  joinTable := none
  onDelete := none

end ModelCatalog
