import ModelCatalog.Sql.Column
import ModelCatalog.Sql.StatementKind

/-! Statements that change a database schema. -/

namespace ModelCatalog

/-- A statement that changes one table. -/
inductive Statement where
  /-- Create the table of a model, unless it exists. -/
  | createTable (table : Identifier) (columns : List Column)
  /-- Create a table of pairs of keys, unless it exists. -/
  | createJoinTable (table : Identifier) (left right : Column)
  /-- Add a column to a table, unless it has it. -/
  | addColumn (table : Identifier) (column : Column)
  /-- Remove a table and what depends on it, if it exists. -/
  | dropTable (table : Identifier)
  deriving DecidableEq

namespace Statement

/-- What the statement does. -/
def kind : Statement → StatementKind
  | createTable .. => .createTable
  | createJoinTable .. => .createJoinTable
  | addColumn .. => .addColumn
  | dropTable _ => .dropTable

/-- The table the statement changes. -/
def table : Statement → Identifier
  | createTable table _ => table
  | createJoinTable table _ _ => table
  | addColumn table _ => table
  | dropTable table => table

/-- The beginning of a statement that creates a table, with the parts in brackets. -/
def creationSql (table : Identifier) (parts : List String) : String :=
  "CREATE TABLE IF NOT EXISTS " ++ table.quoted ++ " (\n  " ++
    String.intercalate ",\n  " parts ++ "\n)"

/-- The SQL of a statement, without a final semicolon. -/
def sql : Statement → String
  | createTable table columns => creationSql table (columns.map Column.sql)
  | createJoinTable table left right =>
    creationSql table
      [left.sql, right.sql, "PRIMARY KEY (" ++ left.nameSql ++ ", " ++ right.nameSql ++ ")"]
  | addColumn table column =>
    "ALTER TABLE " ++ table.quoted ++ " ADD COLUMN IF NOT EXISTS " ++ column.sql
  | dropTable table => "DROP TABLE IF EXISTS " ++ table.quoted ++ " CASCADE"

/-- The statement with its final semicolon. -/
def text (statement : Statement) : String := statement.sql ++ ";"

/-- Add a column to the table of a name, if it is an identifier. -/
def addColumnTo (table : String) (column : Column) : Except Error Statement :=
  (Identifier.check table).map fun table => addColumn table column

/-- Remove the table of a name, if it is an identifier. -/
def dropTableOf (table : String) : Except Error Statement :=
  (Identifier.check table).map dropTable

end Statement

end ModelCatalog
