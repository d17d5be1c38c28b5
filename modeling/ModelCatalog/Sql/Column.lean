import ModelCatalog.Model.Columns

/-! Columns of tables and their declarations in SQL. -/

namespace ModelCatalog

/-- What a column declaration says after the name and the type. -/
inductive Constraint where
  | primaryKey
  /-- The database numbers the rows. -/
  | identity
  | unique
  | notNull
  /-- The value is one of these words. -/
  | oneOf (options : List String)
  /-- The value is a key of another table. -/
  | references (table : Identifier) (onDelete : Option OnDelete)
  | default (value : DefaultValue)
  deriving DecidableEq

/-- A column of a table: its name, its type and the constraints in the order written. -/
structure Column where
  name : Identifier
  type : String
  constraints : List Constraint
  /-- The name stands without quotes. -/
  bare : Bool := false
  deriving DecidableEq

/-- The key column every table has. -/
def idIdentifier : Identifier := ⟨idName, by decide⟩

namespace Column

/-- The name of a column as its declaration writes it. -/
def nameSql (column : Column) : String :=
  if column.bare then column.name.text else column.name.quoted

/-- A constraint on a column, as SQL writes it. -/
def constraintSql (column : Column) : Constraint → String
  | .primaryKey => "PRIMARY KEY"
  | .identity => "GENERATED ALWAYS AS IDENTITY"
  | .unique => "UNIQUE"
  | .notNull => "NOT NULL"
  | .oneOf options =>
    "CHECK (" ++ column.nameSql ++ " IN (" ++
      String.intercalate ", " (options.map quoteLiteral) ++ "))"
  | .references table onDelete =>
    "REFERENCES " ++ table.quoted ++ "(" ++ idIdentifier.quoted ++ ")" ++
      match onDelete with
      | some action => " ON DELETE " ++ action.sql
      | none => ""
  | .default value => "DEFAULT " ++ value.sql

/-- The declaration of a column. -/
def sql (column : Column) : String :=
  String.intercalate " "
    (column.nameSql :: column.type :: column.constraints.map column.constraintSql)

/-- The column that numbers the rows of a table and is its key. -/
def numbered (name : Identifier) : Column :=
  { name := name, type := "INT", constraints := [.primaryKey, .identity] }

end Column

end ModelCatalog
