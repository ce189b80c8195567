import Tabularium.Schema.Relation
import Tabularium.Sql.Statement

namespace Tabularium

namespace Relation

/-- The column of the base table whose values related rows are looked up by. -/
def keyColumn (r : Relation) : String :=
  match r.kind with
  | .belongsTo => r.foreignKey
  | .hasMany => r.targetKey

/-- The column of the related table that is compared with them. -/
def filterColumn (r : Relation) : String :=
  match r.kind with
  | .belongsTo => r.targetKey
  | .hasMany => r.foreignKey

/-- The first of several documents of one text each. -/
def distinctKeys (seen : List String) : List Json → List Json
  | [] => []
  | key :: keys =>
    if seen.contains key.compact then distinctKeys seen keys
    else key :: distinctKeys (key.compact :: seen) keys

/-- The values in a column that are there and not null, each once in order of appearance. -/
def lookupKeys (column : String) (rows : List Row) : List Json :=
  distinctKeys [] ((rows.filterMap fun row => row.get? column).filter fun key => !key.isNull)

/-- The statement for the rows related to given ones, unless there is nothing to look up. -/
def relatedStatement? (r : Relation) (rows : List Row) : Option Statement :=
  match lookupKeys r.keyColumn rows with
  | [] => none
  | keys =>
    some ⟨"SELECT * FROM " ++ r.related ++ " WHERE " ++ r.filterColumn ++ " IN ("
      ++ SqlValue.placeholders keys.length ++ ")", keys.map SqlValue.ofJson⟩

/-- The rows whose value in a column has a text. -/
def rowsWithKey (column key : String) (rows : List Row) : List Row :=
  rows.filter fun row => (row.get? column).any fun value => value.compact == key

/-- What a row gets under the name of the relation: the last row that its foreign key refers to or
null, or all rows that refer to it. -/
def attachment (r : Relation) (related : List Row) (row : Row) : Json :=
  match r.kind with
  | .belongsTo =>
    match (row.get? r.foreignKey).filter fun key => !key.isNull with
    | some key => ((rowsWithKey r.targetKey key.compact related).getLast?.map Json.ofRow).getD .null
    | none => .null
  | .hasMany =>
    match row.get? r.targetKey with
    | some key => .list ((rowsWithKey r.foreignKey key.compact related).map Json.ofRow)
    | none => .list []

/-- The rows with the related ones put under the name of the relation. -/
def attach (r : Relation) (rows related : List Row) : List Row :=
  rows.map fun row => row.insert r.name (attachment r related row)

end Relation

end Tabularium
