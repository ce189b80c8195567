import Tabularium.Numeric.Binary64
import Tabularium.OrderedMap

namespace Tabularium

/-- A document. Integers are kept apart from numbers with a point. -/
inductive Json where
  | null
  | bool (b : Bool)
  | int (n : Int)
  | float (x : Binary64)
  | text (s : String)
  | list (items : List Json)
  | record (entries : List (String × Json))
deriving Inhabited, BEq, Repr

/-- A row: column names with their values, in column order. -/
abbrev Row := OrderedMap Json

namespace Json

/-- The document for a number, which is `null` when the number is not finite. -/
def ofNumber (x : Binary64) : Json :=
  if x.isFinite then .float x else .null

def texts (items : List String) : Json :=
  .list (items.map .text)

def ofRow (row : Row) : Json :=
  .record row.entries

def field? (key : String) : Json → Option Json
  | .record entries => entries.lookup key
  | _ => none

def isNull : Json → Bool
  | .null => true
  | _ => false

def text? : Json → Option String
  | .text s => some s
  | _ => none

def int? : Json → Option Int
  | .int n => some n
  | _ => none

/-- The row that a record holds. -/
def toRow? : Json → Option Row
  | .record entries => some (OrderedMap.ofList entries)
  | _ => none

/-- An entry that is written only when its value is there. -/
def optional (key : String) (value : Option Json) : List (String × Json) :=
  match value with
  | some v => [(key, v)]
  | none => []

end Json

/-- The document for a map, its entries in their order. -/
def OrderedMap.toJson {α : Type} (write : α → Json) (m : OrderedMap α) : Json :=
  .record (m.entries.map fun (key, x) => (key, write x))

end Tabularium
