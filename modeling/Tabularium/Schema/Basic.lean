import Tabularium.Numeric.Binary64

namespace Tabularium

/-- How a column is stored. -/
inductive ColumnType where
  | text
  | integer
  | real
  | blob
  | json
deriving DecidableEq, Repr

/-- The storage class of a type. Documents are stored as text. -/
def ColumnType.sqlName : ColumnType → String
  | text => "TEXT"
  | integer => "INTEGER"
  | real => "REAL"
  | blob => "BLOB"
  | json => "TEXT"

/-- What the integers of a column stand for. -/
inductive ColumnMode where
  | boolean
  | timestampMs
deriving DecidableEq, Repr

/-- A literal default. -/
inductive Literal where
  | null
  /-- The time of the insertion. -/
  | now
  | bool (b : Bool)
  | int (n : Int64)
  | float (x : Binary64)
  | text (s : String)
deriving DecidableEq

/-- Equality of literals, numbers compared by value. -/
def Literal.same : Literal → Literal → Bool
  | .float x, .float y => x.same y
  | a, b => a == b

/-- The default of a column: an expression taken as it is written, or a literal. -/
inductive DefaultValue where
  | raw (sql : String)
  | value (literal : Literal)
deriving DecidableEq

namespace DefaultValue

/-- Equality of defaults, numbers compared by value. -/
def same : DefaultValue → DefaultValue → Bool
  | .value a, .value b => a.same b
  | a, b => a == b

/-- The default does not depend on when it is evaluated. -/
def isConstant : DefaultValue → Bool
  | .raw _ => false
  | .value .now => false
  | .value _ => true

end DefaultValue

/-- What happens to a row when the row that it refers to is deleted. -/
inductive DeleteAction where
  | cascade
  | restrict
  | setNull
  | setDefault
  | noAction
deriving DecidableEq, Repr

def DeleteAction.sql : DeleteAction → String
  | cascade => "CASCADE"
  | restrict => "RESTRICT"
  | setNull => "SET NULL"
  | setDefault => "SET DEFAULT"
  | noAction => "NO ACTION"

structure Reference where
  table : String
  column : String
  onDelete : Option DeleteAction := none
deriving DecidableEq

/-- A compiled column. -/
structure Column where
  name : String
  type : ColumnType
  mode : Option ColumnMode := none
  notNull : Bool := false
  unique : Bool := false
  primaryKey : Bool := false
  enumValues : Option (List String) := none
  default : Option DefaultValue := none
  references : Option Reference := none
deriving DecidableEq

/-- Equality of columns, numbers in defaults compared by value. -/
def Column.same (a b : Column) : Bool :=
  a.name == b.name && a.type == b.type && a.mode == b.mode && a.notNull == b.notNull
    && a.unique == b.unique && a.primaryKey == b.primaryKey && a.enumValues == b.enumValues
    && a.references == b.references
    && match a.default, b.default with
      | none, none => true
      | some x, some y => x.same y
      | _, _ => false

structure Index where
  name : String
  columns : List String
  unique : Bool := false
deriving DecidableEq

/-- A compiled table. -/
structure Table where
  name : String
  columns : List Column
  indexes : List Index := []
  checks : List String := []
deriving DecidableEq

namespace Table

def column? (t : Table) (name : String) : Option Column :=
  t.columns.find? fun c => c.name == name

def index? (t : Table) (name : String) : Option Index :=
  t.indexes.find? fun i => i.name == name

end Table

/-- A compiled schema, its tables in declaration order. -/
structure Schema where
  name : String
  version : UInt32
  tables : List Table
deriving DecidableEq

namespace Schema

/-- The schema without tables from which a first migration starts. -/
def empty (name : String) : Schema := ⟨name, 0, []⟩

def table? (s : Schema) (name : String) : Option Table :=
  s.tables.find? fun t => t.name == name

def tableNames (s : Schema) : List String :=
  s.tables.map (·.name)

end Schema

end Tabularium
