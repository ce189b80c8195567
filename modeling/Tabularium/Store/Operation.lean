import Tabularium.Sql.Script
import Tabularium.Store.Dialogue

namespace Tabularium

inductive Operation where
  | exec (statement : Statement)
  | batch (statements : List Statement)
  /-- One statement whose rows are wanted as lists of values, perhaps with the column names. -/
  | raw (statement : Statement) (columnNames : Bool)
  /-- One statement whose first row is wanted, or one column of it. -/
  | first (statement : Statement) (column : Option String)
  /-- Several statements in one text. -/
  | script (sql : String)
deriving DecidableEq

/-- The rows as lists of values, the names of the columns of the first row in front when they are
asked for. -/
def rowsToArrays (rows : List Row) (columnNames : Bool) : List (List Json) :=
  let values := rows.map fun row => row.entries.map Prod.snd
  match columnNames, rows with
  | true, row :: _ => row.keys.map Json.text :: values
  | _, _ => values

/-- The first row, or the value of one of its columns; what is not there is null. -/
def firstValue (rows : List Row) (column : Option String) : Json :=
  match rows, column with
  | [], _ => .null
  | row :: _, none => .ofRow row
  | row :: _, some name => (row.get? name).getD .null

namespace Operation

/-- What an operation answers with when it succeeds. -/
def Payload : Operation → Type
  | exec _ => List Row
  | batch _ => List Row
  | raw _ _ => List (List Json)
  | first _ _ => Json
  | script _ => List Row

/-- What the store is asked to do for an operation. -/
def request : Operation → Request
  | exec s => .exec s
  | batch ss => .batch ss
  | raw s _ => .exec s
  | first s _ => .exec s
  | script sql => .batch ((splitStatements sql).map .raw)

/-- What an operation makes of the rows of the store. -/
def shape : (op : Operation) → List Row → op.Payload
  | exec _, rows => rows
  | batch _, rows => rows
  | raw _ columnNames, rows => rowsToArrays rows columnNames
  | first _ column, rows => firstValue rows column
  | script _, rows => rows

/-- The operation with a point of consistency. -/
def perform (op : Operation) (bookmark : Option String) : Dialogue (QueryResult op.Payload) := do
  return (← Dialogue.call op.request bookmark).map op.shape

/-- The document for what an operation answers with. -/
def payloadJson : (op : Operation) → op.Payload → Json
  | exec _, rows => .ofRows rows
  | batch _, rows => .ofRows rows
  | raw _ _, arrays => .list (arrays.map .list)
  | first _ _, value => value
  | script _, rows => .ofRows rows

def readPayload : (op : Operation) → Draft → Except Fault op.Payload
  | exec _ => Row.readAll
  | batch _ => Row.readAll
  | raw _ _ => Draft.asList (Draft.asList Draft.settle)
  | first _ _ => Draft.settle
  | script _ => Row.readAll

def resultJson (op : Operation) (r : QueryResult op.Payload) : Json :=
  r.toJson op.payloadJson

def readResult (op : Operation) : Draft → Except Fault (QueryResult op.Payload) :=
  QueryResult.read op.readPayload

end Operation

end Tabularium
