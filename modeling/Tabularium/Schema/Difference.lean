import Tabularium.Schema.Ddl

namespace Tabularium

/-- A clause that a column cannot be added with. -/
inductive Constraint where
  | primaryKey
  | unique
  | references
  | enumeration
deriving DecidableEq, Repr

def Constraint.word : Constraint → String
  | primaryKey => "PRIMARY KEY"
  | unique => "UNIQUE"
  | references => "REFERENCES"
  | enumeration => "ENUM"

/-- What a migration does not do or cannot undo. -/
inductive Warning where
  | notNullWithoutDefault (table column : String)
  | rebuildRequired (table column : String) (constraints : List Constraint)
  | nonConstantDefault (table column default : String)
  | columnDropped (table column : String)
  | columnChanged (table column : String)
  | indexDropped (table index : String) (columns : List String)
  | checksChanged (table : String)
  | tableRemoved (table : String)
deriving DecidableEq, Repr

def Warning.message : Warning → String
  | notNullWithoutDefault table column =>
    table ++ "." ++ column
      ++ " is NOT NULL without a default; added as nullable, backfill and rebuild to enforce"
  | rebuildRequired table column constraints =>
    table ++ "." ++ column ++ " added without "
      ++ separated ", " (constraints.map Constraint.word)
      ++ "; a table rebuild is required to enforce them"
  | nonConstantDefault table column default =>
    table ++ "." ++ column ++ " added without DEFAULT " ++ default
      ++ "; SQLite only accepts constant defaults on ADD COLUMN, a table rebuild is required"
  | columnDropped table column => "dropping " ++ table ++ "." ++ column ++ " loses its data"
  | columnChanged table column =>
    table ++ "." ++ column ++ " definition changed; a table rebuild is required, nothing emitted"
  | indexDropped table index columns =>
    "dropping index " ++ index ++ " on " ++ table ++ "(" ++ separated ", " columns ++ ")"
  | checksChanged table =>
    table ++ " CHECK constraints changed; a table rebuild is required, nothing emitted"
  | tableRemoved table =>
    "table " ++ table ++ " is no longer in the schema; drop it by hand if intended"

/-- The statements that lead from one schema to another, and what they leave out. -/
structure Difference where
  statements : List Ddl := []
  warnings : List Warning := []
deriving DecidableEq

namespace Difference

/-- Nothing is done and nothing is left out. -/
def isEmpty (d : Difference) : Bool :=
  d.statements.isEmpty && d.warnings.isEmpty

/-- One difference behind another. -/
def append (d e : Difference) : Difference :=
  ⟨d.statements ++ e.statements, d.warnings ++ e.warnings⟩

instance : Append Difference := ⟨append⟩

/-- The differences of all items in order. -/
def collect {α : Type} (items : List α) (f : α → Difference) : Difference :=
  ⟨items.flatMap fun x => (f x).statements, items.flatMap fun x => (f x).warnings⟩

/-- The script of a migration: the warnings as comments, then the statements. -/
def toSql (d : Difference) : String :=
  String.join (d.warnings.map fun w => "-- warning: " ++ w.message ++ "\n")
    ++ Ddl.script d.statements

/-- The clauses of a column that it cannot be added with. -/
def lostConstraints (c : Column) : List Constraint :=
  (if c.primaryKey then [.primaryKey] else []) ++ (if c.unique then [.unique] else [])
    ++ (if c.references.isSome then [.references] else [])
    ++ (if c.enumValues.isSome then [.enumeration] else [])

/-- The part of a column that can be added to a table with rows: a default has to be constant, and
a column without one may be null. -/
def addable (c : Column) : BareColumn :=
  let kept := c.default.filter (·.isConstant)
  { c.bare with notNull := c.notNull && kept.isSome, default := kept }

/-- What is said about a column that is added. -/
def addWarnings (table : String) (c : Column) : List Warning :=
  (if lostConstraints c = [] then [] else [.rebuildRequired table c.name (lostConstraints c)])
    ++ (match c.default with
      | some value =>
        if value.isConstant then [] else [.nonConstantDefault table c.name value.sql]
      | none => [])
    ++ if c.notNull && !(addable c).notNull then [.notNullWithoutDefault table c.name] else []

def ofNewColumn (table : String) (c : Column) : Difference :=
  ⟨[.addColumn table (addable c)], addWarnings table c⟩

/-- An index of the old table: it is dropped when it is gone or has changed. -/
def ofOldIndex (target : Table) (i : Index) : Difference :=
  match target.index? i.name with
  | none => ⟨[.dropIndex i.name], [.indexDropped target.name i.name i.columns]⟩
  | some next => if next = i then {} else ⟨[.dropIndex i.name], []⟩

/-- A column of the new table: it is added when it is new, and only reported when it has changed. -/
def ofColumn (previous target : Table) (c : Column) : Difference :=
  match previous.column? c.name with
  | none => ofNewColumn target.name c
  | some old => if old.same c then {} else ⟨[], [.columnChanged target.name c.name]⟩

/-- A column of the old table: it is dropped when it is gone. -/
def ofOldColumn (target : Table) (c : Column) : Difference :=
  match target.column? c.name with
  | none => ⟨[.dropColumn target.name c.name], [.columnDropped target.name c.name]⟩
  | some _ => {}

/-- An index of the new table: it is created unless it was there. -/
def ofIndex (previous target : Table) (i : Index) : Difference :=
  if previous.index? i.name = some i then {} else ⟨[.createIndex target.name i], []⟩

/-- The difference between two tables of one name. -/
def ofTable (previous target : Table) : Difference :=
  collect previous.indexes (ofOldIndex target) ++ collect target.columns (ofColumn previous target)
    ++ collect previous.columns (ofOldColumn target)
    ++ collect target.indexes (ofIndex previous target)
    ++ if previous.checks = target.checks then {} else ⟨[], [.checksChanged target.name]⟩

def ofNewTable (previous : Schema) (target : Table) : Difference :=
  match previous.table? target.name with
  | none => ⟨target.ddl, []⟩
  | some old => ofTable old target

/-- A table of the old schema: it is only reported when it is gone. -/
def ofOldTable (target : Schema) (t : Table) : Difference :=
  match target.table? t.name with
  | none => ⟨[], [.tableRemoved t.name]⟩
  | some _ => {}

/-- What leads from one schema to another. Tables and columns are added, columns are dropped, and
what a table with rows cannot take is only reported. -/
def between (previous target : Schema) : Difference :=
  collect target.tables (ofNewTable previous) ++ collect previous.tables (ofOldTable target)

end Difference

end Tabularium
