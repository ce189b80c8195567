import Tabularium.Query.Condition
import Tabularium.Schema.Relation
import Tabularium.Sql.Statement

namespace Tabularium

inductive Order where
  | asc
  | desc
deriving DecidableEq, Repr

namespace Order

def sql : Order → String
  | asc => "ASC"
  | desc => "DESC"

/-- The direction of a word in either case. -/
def ofText (direction : String) : Except CompileError Order :=
  match asciiLower direction with
  | "asc" => .ok asc
  | "desc" => .ok desc
  | _ => .error (.invalidDirection direction)

end Order

/-- Where the rows of a query start. -/
inductive Offset where
  /-- Behind a number of rows. -/
  | rows (n : UInt64)
  /-- With a page, counted from one. -/
  | page (n : UInt64)
deriving DecidableEq

/-- How many rows are passed over; beyond the largest word that one is taken. Page zero is read as
the first page. -/
def Offset.skipped (size : UInt64) : Offset → Nat
  | rows n => n.toNat
  | page n => min ((n.toNat - 1) * size.toNat) (Nat.pow 2 64 - 1)

/-- A condition on rows: of each group at least one condition has to hold. -/
abbrev Filter := List (List Condition)

namespace Filter

/-- The filter that groups of documents stand for; empty conditions and empty groups are left
out. -/
def ofJson (groups : List (List Json)) : Except CompileError Filter := do
  let groups ← groups.mapM fun group => group.mapM Condition.ofJson
  return (groups.map fun group => group.filter (!·.isEmpty)).filter (!·.isEmpty)

/-- The text of a group: alternatives stand in parentheses. -/
def groupSql : List Condition → String
  | [condition] => condition.sql
  | group => separated " OR " (group.map fun condition => "(" ++ condition.sql ++ ")")

/-- The text of a filter: beside other groups, alternatives stand in parentheses. -/
def sql : Filter → String
  | [group] => groupSql group
  | groups =>
    separated " AND " (groups.map fun group =>
      if 1 < group.length then "(" ++ groupSql group ++ ")" else groupSql group)

/-- The clause of a filter, which is left out when there is nothing to test. -/
def clause (f : Filter) : String :=
  if f.isEmpty then "" else " WHERE " ++ f.sql

def params (f : Filter) : List SqlValue :=
  f.flatMap fun group => group.flatMap Condition.params

end Filter

structure Query where
  table : String
  groups : List (List Json) := []
  order : List (String × Order) := []
  /-- The columns asked for, all of them when there are none. -/
  columns : List String := []
  limit : Option UInt64 := none
  offset : Option Offset := none
  includes : List String := []

namespace Query

/-- Opens a group with a condition. -/
def filterBy (q : Query) (conditions : Json) : Query :=
  { q with groups := q.groups ++ [[conditions]] }

/-- The groups with an alternative in the last one. -/
def addAlternative (conditions : Json) : List (List Json) → List (List Json)
  | [] => [[conditions]]
  | [group] => [group ++ [conditions]]
  | group :: groups => group :: addAlternative conditions groups

/-- Adds an alternative to the last group, or opens the first one. -/
def orWhere (q : Query) (conditions : Json) : Query :=
  { q with groups := addAlternative conditions q.groups }

/-- Adds an order below those so far. -/
def orderBy (q : Query) (column : String) (order : Order) : Query :=
  { q with order := q.order ++ [(column, order)] }

/-- Asks for columns in place of those so far. -/
def select (q : Query) (columns : List String) : Query :=
  { q with columns }

/-- Takes at most a number of rows. -/
def take (q : Query) (n : UInt64) : Query :=
  { q with limit := some n }

/-- Passes over rows, or over pages when the number of rows is already limited. -/
def skip (q : Query) (n : UInt64) : Query :=
  { q with offset := some (if q.limit.isSome then .page n else .rows n) }

/-- Asks for the related rows of a table, once. -/
def including (q : Query) (related : String) : Query :=
  if q.includes.contains related then q else { q with includes := q.includes ++ [related] }

/-- The relations to the tables whose rows are asked for. -/
def relations (q : Query) (m : RelationMap) : Except CompileError (List Relation) :=
  q.includes.mapM fun related =>
    match m.get? q.table related with
    | some r => .ok r
    | none => .error (.unknownRelation q.table related)

/-- The text of the columns asked for. -/
def projection (columns : List String) : Except CompileError String := do
  columns.forM requireIdentifier
  return if columns.isEmpty then "*" else separated ", " columns

def orderClause (order : List (String × Order)) : Except CompileError String := do
  order.forM fun (column, _) => requireIdentifier column
  return if order.isEmpty then ""
    else " ORDER BY " ++ separated ", " (order.map fun (column, o) => column ++ " " ++ o.sql)

def limitClause : Option UInt64 → String
  | some n => " LIMIT " ++ Nat.repr n.toNat
  | none => ""

/-- The clause of an offset, the pages being of the size of the limit. -/
def offsetClause (q : Query) : String :=
  match q.offset with
  | some offset => " OFFSET " ++ Nat.repr (offset.skipped (q.limit.getD 0))
  | none => ""

def render (q : Query) (limit : Option UInt64) : Except CompileError Statement := do
  requireIdentifier q.table
  let columns ← projection q.columns
  let filter ← Filter.ofJson q.groups
  let order ← orderClause q.order
  return ⟨"SELECT " ++ columns ++ " FROM " ++ q.table ++ filter.clause ++ order ++ limitClause limit
    ++ q.offsetClause, filter.params⟩

def compile (q : Query) : Except CompileError Statement :=
  q.render q.limit

def compileFirst (q : Query) : Except CompileError Statement :=
  q.render (some 1)

/-- The statement for the number of rows of a query, whatever their order and limit. -/
def compileCount (q : Query) : Except CompileError Statement := do
  requireIdentifier q.table
  let filter ← Filter.ofJson q.groups
  return ⟨"SELECT COUNT(*) as count FROM " ++ q.table ++ filter.clause, filter.params⟩

end Query

end Tabularium
