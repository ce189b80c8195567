import Tabularium.Store.Operation

namespace Tabularium

/-- The routes of a gateway, one for each operation. -/
inductive Route where
  | run
  | exec
  | batch
  | raw
  | first
deriving DecidableEq, Repr

namespace Route

def path : Route → String
  | run => "/api/run"
  | exec => "/api/exec"
  | batch => "/api/batch"
  | raw => "/api/raw"
  | first => "/api/first"

def all : List Route :=
  [run, exec, batch, raw, first]

def ofPath? (p : String) : Option Route :=
  all.find? fun r => r.path == p

def readScript : Draft → Except Fault Operation :=
  Draft.asRecord [.required "query" Draft.asText fun _ sql => .script sql] (.script "")

def readBatch : Draft → Except Fault Operation :=
  Draft.asRecord [.required "batch" (Draft.asList Statement.read) fun _ ss => .batch ss] (.batch [])

/-- Reads a statement whose rows are wanted as lists. -/
def readRaw (d : Draft) : Except Fault Operation :=
  (Draft.asJoined [.defaulted "columnNames" Draft.asBool fun _ names => names] false Statement.read
    d).map fun (s, columnNames) => .raw s columnNames

/-- Reads a statement whose first row is wanted. -/
def readFirst (d : Draft) : Except Fault Operation :=
  (Draft.asJoined [.optional "columnName" Draft.asText fun _ name => name] none Statement.read
    d).map fun (s, column) => .first s column

/-- Reads the operation that the body of a request to a route asks for. -/
def read : Route → Draft → Except Fault Operation
  | run, d => (Statement.read d).map .exec
  | exec, d => readScript d
  | batch, d => readBatch d
  | raw, d => readRaw d
  | first, d => readFirst d

end Route

namespace Operation

def route : Operation → Route
  | exec _ => .run
  | batch _ => .batch
  | raw _ _ => .raw
  | first _ _ => .first
  | script _ => .exec

def toJson : Operation → Json
  | exec s => s.toJson
  | batch ss => .record [("batch", .list (ss.map Statement.toJson))]
  | raw s columnNames => .record (s.entries ++ [("columnNames", .bool columnNames)])
  | first s column => .record (s.entries ++ Json.optional "columnName" (column.map .text))
  | script sql => .record [("query", .text sql)]

end Operation

structure ErrorBody where
  error : String
  /-- The code of the cause. -/
  reason : Option String := none
deriving DecidableEq

namespace ErrorBody

def toJson (b : ErrorBody) : Json :=
  .record (("error", .text b.error) :: Json.optional "reason" (b.reason.map .text))

def read : Draft → Except Fault ErrorBody :=
  Draft.asRecord
    [.required "error" Draft.asText fun b error => { b with error },
      .optional "reason" Draft.asText fun b reason => { b with reason }]
    ⟨"", none⟩

end ErrorBody

/-! The headers of requests to a gateway. -/

namespace Header

def dbName : String := "x-db-name"

def dbToken : String := "x-db-token"

/-- The point of consistency, in answers as well. -/
def bookmark : String := "x-d1-bookmark"

/-- The key of the gateway. -/
def authorization : String := "authorization"

def contentType : String := "content-type"

end Header

end Tabularium
