import Tabularium.Json.Draft
import Tabularium.Schema.Basic

namespace Tabularium

/-- The text without an end that it has. -/
def dropEnd? (ending : List Char) (cs : List Char) : Option (List Char) :=
  if ending.isSuffixOf cs then some (cs.take (cs.length - ending.length)) else none

/-- The endings that stand for one `s` less and one `e` less. -/
def sibilantEndings : List (List Char) :=
  [['s', 's', 'e', 's'], ['x', 'e', 's'], ['c', 'h', 'e', 's'], ['s', 'h', 'e', 's']]

/-- The singular of the name of a table, from which the names of foreign keys are made. -/
def singularChars (cs : List Char) : List Char :=
  match dropEnd? ['i', 'e', 's'] cs with
  | some stem => stem ++ ['y']
  | none =>
    if sibilantEndings.any fun ending => ending.isSuffixOf cs then cs.take (cs.length - 2)
    else (dropEnd? ['s'] cs).getD cs

/-- The singular of the name of a table, from which the names of foreign keys are made. -/
def singular (name : String) : String :=
  String.ofList (singularChars name.toList)

/-- Which table holds the foreign key of a relation. -/
inductive RelationKind where
  /-- The base table holds it. -/
  | belongsTo
  /-- The related table holds it. -/
  | hasMany
deriving DecidableEq, Repr

def RelationKind.word : RelationKind → String
  | belongsTo => "BelongsTo"
  | hasMany => "HasMany"

/-- A relation from a base table to a related table. -/
structure Relation where
  /-- The key under which related rows are put. -/
  name : String
  kind : RelationKind
  table : String
  related : String
  foreignKey : String
  /-- The column that the foreign key refers to. -/
  targetKey : String
deriving DecidableEq

namespace Relation

def toJson (r : Relation) : Json :=
  .record [("name", .text r.name),
    ("kind", .text r.kind.word),
    ("table", .text r.table), ("related", .text r.related), ("foreignKey", .text r.foreignKey),
    ("targetKey", .text r.targetKey)]

def read : Draft → Except Fault Relation :=
  Draft.asRecord
    [.required "name" Draft.asText fun r name => { r with name },
      .required "kind" (Draft.asName [.belongsTo, .hasMany] RelationKind.word) fun r kind =>
        { r with kind },
      .required "table" Draft.asText fun r table => { r with table },
      .required "related" Draft.asText fun r related => { r with related },
      .required "foreignKey" Draft.asText fun r foreignKey => { r with foreignKey },
      .required "targetKey" Draft.asText fun r targetKey => { r with targetKey }]
    ⟨"", .belongsTo, "", "", "", ""⟩

/-- The relation stands for a base table and a related table. -/
def joins (r : Relation) (table related : String) : Bool :=
  r.table == table && r.related == related

/-- The relation that the names of columns imply: a foreign key is named after the singular of the
table that it refers to. -/
def byConvention? (base other : Table) : Option Relation :=
  let ownKey := singular other.name ++ "Id"
  let otherKey := singular base.name ++ "Id"
  if base.name = other.name then none
  else if (base.column? ownKey).isSome then
    some ⟨other.name, .belongsTo, base.name, other.name, ownKey, "id"⟩
  else if (other.column? otherKey).isSome then
    some ⟨other.name, .hasMany, base.name, other.name, otherKey, "id"⟩
  else none

/-- The two relations that a reference of a column implies. -/
def byReference (table : String) (column : Column) : List Relation :=
  match column.references with
  | none => []
  | some target =>
    if target.table = table then []
    else
      [⟨target.table, .belongsTo, table, target.table, column.name, target.column⟩,
        ⟨table, .hasMany, target.table, table, column.name, target.column⟩]

end Relation

/-- The relations of a schema, at most one from a table to another. -/
structure RelationMap where
  relations : List Relation
deriving DecidableEq

namespace RelationMap

def get? (m : RelationMap) (table related : String) : Option Relation :=
  m.relations.find? fun r => r.joins table related

def size (m : RelationMap) : Nat :=
  m.relations.length

/-- The relations with one that takes the place of a former one between its tables. -/
def put (r : Relation) : List Relation → List Relation
  | [] => [r]
  | r' :: rest => if r'.joins r.table r.related then r :: rest else r' :: put r rest

/-- The relations with one behind unless there is one between its tables. -/
def add (rs : List Relation) (r : Relation) : List Relation :=
  if rs.any fun r' => r'.joins r.table r.related then rs else rs ++ [r]

/-- The relations that the names of columns imply. -/
def conventional (s : Schema) : List Relation :=
  (s.tables.flatMap fun base => s.tables.filterMap (Relation.byConvention? base)).foldl
    (fun rs r => put r rs) []

/-- The relations that references imply, in declaration order. -/
def referenced (s : Schema) : List Relation :=
  s.tables.flatMap fun table => table.columns.flatMap (Relation.byReference table.name)

/-- The relations of a schema: those that the names of columns imply, and between tables that these
leave open those that references imply, the first one winning. -/
def resolve (s : Schema) : RelationMap :=
  ⟨(referenced s).foldl add (conventional s)⟩

end RelationMap

end Tabularium
