import Tabularium.Migration.History
import Tabularium.Schema.Ddl
import Tabularium.Sql.Identifier
import Tabularium.Text.Ascii
import Tabularium.Text.Escaped

namespace Tabularium

/-- A column as a store reports it. -/
structure ColumnInfo where
  name : String
  columnType : String
  notNull : Bool
  hasDefault : Bool
  primaryKey : Bool
deriving DecidableEq, Repr

namespace ColumnInfo

def toJson (c : ColumnInfo) : Json :=
  .record [("name", .text c.name), ("column_type", .text c.columnType),
    ("not_null", .bool c.notNull), ("has_default", .bool c.hasDefault),
    ("primary_key", .bool c.primaryKey)]

/-- The word for a truth value. -/
def flagWord (b : Bool) : String :=
  if b then "true" else "false"

def shown (c : ColumnInfo) : String :=
  "ColumnInfo \x7b name: " ++ escapedText c.name ++ ", column_type: " ++ escapedText c.columnType
    ++ ", not_null: " ++ flagWord c.notNull ++ ", has_default: " ++ flagWord c.hasDefault
    ++ ", primary_key: " ++ flagWord c.primaryKey ++ " \x7d"

/-- An integer under a key that is not zero. -/
def isSet (row : Row) (key : String) : Bool :=
  match ((row.get? key).bind Json.int?).bind int64? with
  | some n => n != 0
  | none => false

/-- The column that a row of the catalog describes; a row without a name describes none. -/
def ofRow? (row : Row) : Option ColumnInfo := do
  let name ← (row.get? "name").bind Json.text?
  let columnType := ((row.get? "type").bind Json.text?).getD ""
  let hasDefault := match row.get? "dflt_value" with
    | some value => !value.isNull
    | none => false
  return ⟨name, asciiUpper columnType, isSet row "notnull", hasDefault, isSet row "pk"⟩

/-- What a store should report for a column. -/
def ofColumn (c : Column) : ColumnInfo :=
  ⟨c.name, c.type.sqlName, c.notNull, c.default.isSome, c.primaryKey⟩

end ColumnInfo

/-- What a store should report for the columns of a table. -/
def Table.expectedColumns (t : Table) : List ColumnInfo :=
  t.columns.map .ofColumn

inductive Drift where
  | missingTable (table : String)
  | missingColumn (table column : String)
  | extraColumn (table column : String)
  | mismatch (table : String) (expected actual : ColumnInfo)
deriving DecidableEq, Repr

namespace Drift

def message : Drift → String
  | missingTable table => "table '" ++ table ++ "' is missing"
  | missingColumn table column => "column '" ++ table ++ "." ++ column ++ "' is missing"
  | extraColumn table column => "column '" ++ table ++ "." ++ column ++ "' is not in the schema"
  | mismatch table expected actual =>
    "column '" ++ table ++ "." ++ expected.name ++ "' differs: expected " ++ expected.shown
      ++ ", found " ++ actual.shown

/-- The difference of an expected column from the first reported one of its name. -/
def ofExpected (table : String) (actual : List ColumnInfo) (c : ColumnInfo) : Option Drift :=
  match actual.find? fun live => live.name == c.name with
  | none => some (.missingColumn table c.name)
  | some live => if live = c then none else some (.mismatch table c live)

/-- The difference of a reported column that is not expected. -/
def ofActual (table : String) (expected : List ColumnInfo) (c : ColumnInfo) : Option Drift :=
  if expected.any fun e => e.name == c.name then none else some (.extraColumn table c.name)

/-- The differences of a table from the columns that a store reports for it; a table without
columns is missing. -/
def ofTable (t : Table) (actual : List ColumnInfo) : List Drift :=
  if actual.isEmpty then [.missingTable t.name]
  else t.expectedColumns.filterMap (ofExpected t.name actual)
    ++ actual.filterMap (ofActual t.name t.expectedColumns)

end Drift

namespace Introspection

/-- The rows that a store answers with when it is asked about a table. -/
def askRows (table sql : String) : Dialogue (Except MigrationError (List Row)) := do
  let r ← Dialogue.call (.exec (.raw sql)) none
  return if r.success then .ok (r.data.getD [])
    else .error (.introspection table (r.error.getD ""))

/-- The catalog of the tables of a store. -/
def catalogName : String := "sqlite_master"

/-- The names of the tables without those of the store itself and the history. -/
def tableNames : Dialogue (Except MigrationError (List String)) := do
  let rows ← askRows catalogName ("SELECT name FROM " ++ catalogName
    ++ " WHERE type = 'table' AND name NOT LIKE 'sqlite_%' ORDER BY name")
  return rows.map fun rows => (rows.filterMap fun row => (row.get? "name").bind Json.text?).filter
    fun name => name != MigrationHistory.tableName

/-- The columns of a table, none when there is no such table. -/
def columns (table : String) : Dialogue (Except MigrationError (List ColumnInfo)) :=
  if isIdentifier table then do
    let rows ← askRows table ("PRAGMA table_info(" ++ table ++ ")")
    return rows.map fun rows => rows.filterMap ColumnInfo.ofRow?
  else pure (.error (.introspection table "invalid table name"))

/-- The differences of tables from a store, in the order of the tables. -/
def verifyTables : List Table → Dialogue (Except MigrationError (List Drift))
  | [] => pure (.ok [])
  | t :: ts => do
    match ← columns t.name with
    | .error e => return .error e
    | .ok actual =>
      let rest ← verifyTables ts
      return rest.map fun drift => Drift.ofTable t actual ++ drift

/-- The differences of a schema from a store. -/
def verify (s : Schema) : Dialogue (Except MigrationError (List Drift)) :=
  verifyTables s.tables

end Introspection

end Tabularium
