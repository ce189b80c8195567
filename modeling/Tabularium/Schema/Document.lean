import Tabularium.Json.Draft
import Tabularium.Schema.Definition

namespace Tabularium

def ColumnType.word : ColumnType → String
  | text => "text"
  | integer => "integer"
  | real => "real"
  | blob => "blob"
  | json => "json"

def ColumnType.all : List ColumnType :=
  [text, integer, real, blob, json]

def ColumnMode.word : ColumnMode → String
  | boolean => "boolean"
  | timestampMs => "timestamp_ms"

def ColumnMode.all : List ColumnMode :=
  [boolean, timestampMs]

def DeleteAction.word : DeleteAction → String
  | cascade => "cascade"
  | restrict => "restrict"
  | setNull => "set_null"
  | setDefault => "set_default"
  | noAction => "no_action"

def DeleteAction.all : List DeleteAction :=
  [cascade, restrict, setNull, setDefault, noAction]

namespace Literal

/-- The document for a literal: a bare word, or one entry that names its kind. -/
def toJson : Literal → Json
  | null => .text "null"
  | now => .text "now"
  | bool b => .record [("bool", .bool b)]
  | int n => .record [("int", .int n.toInt)]
  | float x => .record [("float", Json.ofNumber x)]
  | text s => .record [("text", .text s)]

/-- A word carries nothing, which an empty record stands for as well. -/
def isBare : Option Draft → Bool
  | some (.record _ [] _) => true
  | carried => Draft.isUnit carried

def read (d : Draft) : Except Fault Literal := do
  let (kind, carried) ← Draft.asVariant d
  match kind, carried with
  | "null", _ => if isBare carried then return .null else throw .unfit
  | "now", _ => if isBare carried then return .now else throw .unfit
  | "bool", some d => .bool <$> Draft.asBool d
  | "int", some d => .int <$> Draft.asWord int64? d
  | "float", some d => .float <$> Draft.asNumber d
  | "text", some d => .text <$> Draft.asText d
  | _, _ => throw .unfit

end Literal

namespace DefaultValue

def toJson : DefaultValue → Json
  | raw sql => .record [("kind", .text "raw"), ("sql", .text sql)]
  | value literal => .record [("kind", .text "value"), ("value", literal.toJson)]

def readKind (kind : String) (others : Draft) : Except Fault DefaultValue :=
  match kind with
  | "raw" => Draft.asRecord [.required "sql" Draft.asText fun _ sql => .raw sql] (.raw "") others
  | "value" =>
    Draft.asRecord [.required "value" Literal.read fun _ literal => .value literal] (.value .null)
      others
  | _ => .error .unfit

/-- The entries under a key and the other ones. -/
def partitionKey (key : String) (entries : List (Option String × Draft)) :
    List (Option String × Draft) × List (Option String × Draft) :=
  entries.partition fun entry => entry.1 == some key

/-- Reads a default, whose kind may stand anywhere in a record and stands first in a list. -/
def readTagged : Draft → Except Fault DefaultValue
  | .record _ entries _ =>
    match partitionKey "kind" entries with
    | ([(_, .text kind)], others) => readKind kind (.record false others true)
    | _ => .error .unfit
  | .list _ (.text kind :: items) _ => readKind kind (.list false items true)
  | d => .error d.mismatch

def read : Draft → Except Fault DefaultValue :=
  Draft.settled readTagged

end DefaultValue

namespace Reference

def toJson (r : Reference) : Json :=
  .record ([("table", .text r.table), ("column", .text r.column)]
    ++ Json.optional "onDelete" (r.onDelete.map fun action => .text action.word))

def read : Draft → Except Fault Reference :=
  Draft.asRecord
    [.required "table" Draft.asText fun r table => { r with table },
      .required "column" Draft.asText fun r column => { r with column },
      .optional "onDelete" (Draft.asName DeleteAction.all DeleteAction.word) fun r onDelete =>
        { r with onDelete }]
    ⟨"", "", none⟩

end Reference

namespace Column

/-- The document for a column; what is absent is left out. -/
def toJson (c : Column) : Json :=
  .record ([("name", .text c.name), ("type", .text c.type.word)]
    ++ Json.optional "mode" (c.mode.map fun mode => .text mode.word)
    ++ [("notNull", .bool c.notNull), ("unique", .bool c.unique),
      ("primaryKey", .bool c.primaryKey)]
    ++ Json.optional "enum" (c.enumValues.map Json.texts)
    ++ Json.optional "default" (c.default.map DefaultValue.toJson)
    ++ Json.optional "references" (c.references.map Reference.toJson))

def read : Draft → Except Fault Column :=
  Draft.asRecord
    [.required "name" Draft.asText fun c name => { c with name },
      .required "type" (Draft.asName ColumnType.all ColumnType.word) fun c type => { c with type },
      .optional "mode" (Draft.asName ColumnMode.all ColumnMode.word) fun c mode => { c with mode },
      .defaulted "notNull" Draft.asBool fun c notNull => { c with notNull },
      .defaulted "unique" Draft.asBool fun c unique => { c with unique },
      .defaulted "primaryKey" Draft.asBool fun c primaryKey => { c with primaryKey },
      .optional "enum" (Draft.asList Draft.asText) fun c enumValues => { c with enumValues },
      .optional "default" DefaultValue.read fun c value => { c with default := value },
      .optional "references" Reference.read fun c references => { c with references }]
    { name := "", type := .text }

end Column

namespace Index

def toJson (i : Index) : Json :=
  .record [("name", .text i.name), ("columns", Json.texts i.columns), ("unique", .bool i.unique)]

def read : Draft → Except Fault Index :=
  Draft.asRecord
    [.required "name" Draft.asText fun i name => { i with name },
      .required "columns" (Draft.asList Draft.asText) fun i columns => { i with columns },
      .defaulted "unique" Draft.asBool fun i unique => { i with unique }]
    ⟨"", [], false⟩

end Index

namespace Table

def toJson (t : Table) : Json :=
  .record [("name", .text t.name), ("columns", .list (t.columns.map Column.toJson)),
    ("indexes", .list (t.indexes.map Index.toJson)), ("checks", Json.texts t.checks)]

def read : Draft → Except Fault Table :=
  Draft.asRecord
    [.required "name" Draft.asText fun t name => { t with name },
      .required "columns" (Draft.asList Column.read) fun t columns => { t with columns },
      .defaulted "indexes" (Draft.asList Index.read) fun t indexes => { t with indexes },
      .defaulted "checks" (Draft.asList Draft.asText) fun t checks => { t with checks }]
    ⟨"", [], [], []⟩

end Table

namespace Schema

def toJson (s : Schema) : Json :=
  .record [("name", .text s.name), ("version", .int s.version.toNat),
    ("tables", .list (s.tables.map Table.toJson))]

def read : Draft → Except Fault Schema :=
  Draft.asRecord
    [.required "name" Draft.asText fun s name => { s with name },
      .required "version" (Draft.asWord uint32?) fun s version => { s with version },
      .required "tables" (Draft.asList Table.read) fun s tables => { s with tables }]
    (.empty "")

end Schema

namespace ColumnEntry

def toJson : ColumnEntry → Json
  | text s => .text s
  | splice on => .bool on

def read : Draft → Except Fault ColumnEntry :=
  Draft.settled fun
    | .text s => .ok (text s)
    | .bool b => .ok (splice b)
    | d => .error d.mismatch

end ColumnEntry

namespace TableDefinition

def toJson (t : TableDefinition) : Json :=
  .record [("columns", t.columns.toJson ColumnEntry.toJson),
    ("indexes", .list (t.indexes.map Index.toJson)), ("checks", Json.texts t.checks)]

def read : Draft → Except Fault TableDefinition :=
  Draft.asRecord
    [.required "columns" (Draft.asMap ColumnEntry.read) fun t columns => { t with columns },
      .defaulted "indexes" (Draft.asList Index.read) fun t indexes => { t with indexes },
      .defaulted "checks" (Draft.asList Draft.asText) fun t checks => { t with checks }]
    {}

end TableDefinition

namespace Definition

def mixinJson (columns : OrderedMap String) : Json :=
  columns.toJson .text

def toJson (d : Definition) : Json :=
  .record [("name", .text d.name), ("version", .int d.version.toNat),
    ("mixins", d.mixins.toJson mixinJson), ("tables", d.tables.toJson TableDefinition.toJson)]

def read : Draft → Except Fault Definition :=
  Draft.asRecord
    [.required "name" Draft.asText fun d name => { d with name },
      .defaulted "version" (Draft.asWord uint32?) fun d version => { d with version },
      .defaulted "mixins" (Draft.asMap (Draft.asMap Draft.asText)) fun d mixins =>
        { d with mixins },
      .defaulted "tables" (Draft.asMap TableDefinition.read) fun d tables => { d with tables }]
    { name := "" }

end Definition

end Tabularium
