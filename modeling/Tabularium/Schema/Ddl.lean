import Tabularium.Numeric.Layout
import Tabularium.Schema.Basic
import Tabularium.Text.Pieces
import Tabularium.Text.Quoted

namespace Tabularium

def Literal.sql : Literal → String
  | null => "NULL"
  | now => "(CURRENT_TIMESTAMP)"
  | bool b => if b then "1" else "0"
  | int n => Int.repr n.toInt
  | float x => x.text .statement
  | text s => quoteText s

/-- The text behind the word for a default; an expression stands in parentheses. -/
def DefaultValue.sql : DefaultValue → String
  | raw sql => "(" ++ sql ++ ")"
  | value literal => literal.sql

/-- The part of a column that may be added to a table with rows. -/
structure BareColumn where
  name : String
  type : ColumnType
  notNull : Bool
  default : Option DefaultValue
deriving DecidableEq

def defaultClause : Option DefaultValue → String
  | some value => " DEFAULT " ++ value.sql
  | none => ""

def BareColumn.sql (c : BareColumn) : String :=
  c.name ++ " " ++ c.type.sqlName ++ (if c.notNull then " NOT NULL" else "")
    ++ defaultClause c.default

def Reference.clause (r : Reference) : String :=
  " REFERENCES " ++ r.table ++ "(" ++ r.column ++ ")"
    ++ match r.onDelete with
      | some action => " ON DELETE " ++ action.sql
      | none => ""

namespace Column

/-- The column without the clauses that only a new table can have. -/
def bare (c : Column) : BareColumn :=
  ⟨c.name, c.type, c.notNull, c.default⟩

/-- The condition that a column holds one of its values. -/
def enumClause (name : String) (values : List String) : String :=
  " CHECK (" ++ name ++ " IN (" ++ separated ", " (values.map quoteText) ++ "))"

/-- The definition of a column with all of its clauses. -/
def sql (c : Column) : String :=
  c.name ++ " " ++ c.type.sqlName
    ++ (if c.primaryKey then " PRIMARY KEY" else "")
    ++ (if c.notNull then " NOT NULL" else "")
    ++ (if c.unique then " UNIQUE" else "")
    ++ defaultClause c.default
    ++ (match c.enumValues with
      | some values => enumClause c.name values
      | none => "")
    ++ match c.references with
      | some reference => reference.clause
      | none => ""

end Column

/-- A statement that changes a schema. -/
inductive Ddl where
  | createTable (table : Table)
  | createIndex (table : String) (index : Index)
  | dropIndex (name : String)
  | addColumn (table : String) (column : BareColumn)
  | dropColumn (table column : String)
deriving DecidableEq

namespace Ddl

/-- The lines between the parentheses of a new table. -/
def tableParts (t : Table) : List String :=
  t.columns.map Column.sql ++ t.checks.map fun check => "CHECK (" ++ check ++ ")"

/-- The text of a statement. -/
def sql : Ddl → String
  | createTable t =>
    "CREATE TABLE IF NOT EXISTS " ++ t.name ++ " (\n  " ++ separated ",\n  " (tableParts t) ++ "\n)"
  | createIndex table index =>
    "CREATE " ++ (if index.unique then "UNIQUE " else "") ++ "INDEX IF NOT EXISTS " ++ index.name
      ++ " ON " ++ table ++ "(" ++ separated ", " index.columns ++ ")"
  | dropIndex name => "DROP INDEX IF EXISTS " ++ name
  | addColumn table column => "ALTER TABLE " ++ table ++ " ADD COLUMN " ++ column.sql
  | dropColumn table column => "ALTER TABLE " ++ table ++ " DROP COLUMN " ++ column

/-- The text of statements, each with a semicolon and a line break behind it. -/
def script (statements : List Ddl) : String :=
  String.join (statements.map fun s => s.sql ++ ";\n")

end Ddl

/-- The statements that create a table with its indexes. -/
def Table.ddl (t : Table) : List Ddl :=
  .createTable t :: t.indexes.map (.createIndex t.name)

namespace Schema

/-- The statements that create all tables and indexes in declaration order. -/
def ddl (s : Schema) : List Ddl :=
  s.tables.flatMap Table.ddl

/-- The script that creates all tables and indexes. -/
def toSql (s : Schema) : String :=
  Ddl.script s.ddl

end Schema

end Tabularium
