import Tabularium.Sql.Value

namespace Tabularium

/-- A statement with the values bound to its marks in order. -/
structure Statement where
  sql : String
  params : List SqlValue
deriving DecidableEq, Inhabited

namespace Statement

/-- A statement without bound values. -/
def raw (sql : String) : Statement := ⟨sql, []⟩

def entries (s : Statement) : List (String × Json) :=
  [("query", .text s.sql), ("params", .list (s.params.map SqlValue.toJson))]

def toJson (s : Statement) : Json :=
  .record s.entries

/-- Reads the bound values of a statement. -/
def readParams : Draft → Except Fault (List SqlValue) :=
  Draft.asList SqlValue.read

/-- The fields of a statement; the bound values may be left out. -/
def fields : List (Field Statement) :=
  [.required "query" Draft.asText fun s sql => { s with sql },
    .defaulted "params" readParams fun s params => { s with params }]

def read : Draft → Except Fault Statement :=
  Draft.asRecord fields default

end Statement

end Tabularium
