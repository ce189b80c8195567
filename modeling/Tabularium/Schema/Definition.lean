import Tabularium.OrderedMap
import Tabularium.Schema.Column.Text
import Tabularium.Sql.Identifier

namespace Tabularium

/-- What stands under a column key: the text of a column, or the switch of a mixin. -/
inductive ColumnEntry where
  | text (s : String)
  | splice (on : Bool)
deriving DecidableEq

/-- The declaration of a table. -/
structure TableDefinition where
  columns : OrderedMap ColumnEntry := .empty
  indexes : List Index := []
  checks : List String := []
deriving DecidableEq

/-- The declaration of a schema: named column sets to mix in, and tables. -/
structure Definition where
  name : String
  version : UInt32 := 1
  mixins : OrderedMap (OrderedMap String) := .empty
  tables : OrderedMap TableDefinition := .empty
deriving DecidableEq

namespace Definition

/-- The mark in front of a key that mixes a column set in. -/
def mixinMark : String := "..."

/-- The key that mixes a column set in. -/
def mixinKey (mixin : String) : String :=
  mixinMark ++ mixin

/-- The column set that a key mixes in. -/
def mixinOf? (key : String) : Option String :=
  match key.toList with
  | '.' :: '.' :: '.' :: rest => some (String.ofList rest)
  | _ => none

def mixin (d : Definition) (name : String) (columns : List (String × String)) : Definition :=
  { d with mixins := d.mixins.insert name (.ofList columns) }

/-- Declares a table if it is not yet there. -/
def table (d : Definition) (name : String) : Definition :=
  { d with tables := d.tables.ensure name {} }

/-- Changes a table, which is declared first if it is not yet there. -/
def changeTable (d : Definition) (name : String) (change : TableDefinition → TableDefinition) :
    Definition :=
  { d with tables := d.tables.update name {} change }

/-- Stores an entry under a column key. -/
def entry (d : Definition) (table key : String) (value : ColumnEntry) : Definition :=
  d.changeTable table fun t => { t with columns := t.columns.insert key value }

def column (d : Definition) (table name text : String) : Definition :=
  d.entry table name (.text text)

/-- Mixes a column set in behind the columns so far. -/
def mixinInto (d : Definition) (table mixin : String) : Definition :=
  d.entry table (mixinKey mixin) (.splice true)

def index (d : Definition) (table : String) (index : Index) : Definition :=
  d.changeTable table fun t => { t with indexes := t.indexes ++ [index] }

def check (d : Definition) (table expression : String) : Definition :=
  d.changeTable table fun t => { t with checks := t.checks ++ [expression] }

def requireIdentifier (name : String) : Except SchemaError Unit :=
  if isIdentifier name then .ok () else .error (.invalidIdentifier name)

/-- The columns with one more that a text declares. -/
def addColumn (table : String) (columns : List Column) (name text : String) :
    Except SchemaError (List Column) :=
  match Column.ofText name text with
  | .error fault => .error (.column table name fault)
  | .ok column => do
    requireIdentifier name
    if columns.any (·.name == name) then throw (.duplicateColumn table name)
    return columns ++ [column]

/-- The columns with those that an entry stands for. -/
def addEntry (mixins : OrderedMap (OrderedMap String)) (table : String) (columns : List Column)
    (key : String) (value : ColumnEntry) : Except SchemaError (List Column) :=
  match mixinOf? key, value with
  | some mixin, _ =>
    match mixins.get? mixin with
    | none => .error (.unknownMixin table mixin)
    | some set => set.entries.foldlM (fun columns (name, text) => addColumn table columns name text)
        columns
  | none, .text text => addColumn table columns key text
  | none, .splice _ => .error (.column table key (.unexpected "true"))

/-- Refuses an index with a name that would need quotes or over a column that is not there. -/
def requireIndex (table : String) (columns : List Column) (index : Index) :
    Except SchemaError Unit := do
  requireIdentifier index.name
  index.columns.forM fun name =>
    if columns.any (·.name == name) then .ok ()
    else .error (.unknownIndexColumn table index.name name)

/-- The table that a declaration compiles to. -/
def compileTable (mixins : OrderedMap (OrderedMap String)) (name : String)
    (declared : TableDefinition) : Except SchemaError Table := do
  requireIdentifier name
  let columns ← declared.columns.entries.foldlM
    (fun columns (key, value) => addEntry mixins name columns key value) []
  declared.indexes.forM (requireIndex name columns)
  return { name, columns, indexes := declared.indexes, checks := declared.checks }

/-- Refuses a reference to a column that the schema does not have. -/
def requireReference (schema : Schema) (table : String) (column : Column) :
    Except SchemaError Unit :=
  match column.references with
  | none => .ok ()
  | some target =>
    match (schema.table? target.table).bind (·.column? target.column) with
    | some _ => .ok ()
    | none => .error (.unknownReference table column.name (target.table ++ "." ++ target.column))

def compile (d : Definition) : Except SchemaError Schema := do
  let tables ← d.tables.entries.mapM fun (name, declared) => compileTable d.mixins name declared
  let schema : Schema := { name := d.name, version := d.version, tables }
  schema.tables.forM fun table => table.columns.forM (requireReference schema table.name)
  return schema

end Definition

end Tabularium
