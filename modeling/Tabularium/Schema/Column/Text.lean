import Tabularium.Schema.Column.Clause

namespace Tabularium

namespace Column

/-- The types that a column is declared with; two of them are integers with a mode. -/
def typeWords : List (String × ColumnType × Option ColumnMode) :=
  [("text", .text, none), ("integer", .integer, none), ("real", .real, none), ("blob", .blob, none),
    ("json", .json, none), ("boolean", .integer, some .boolean),
    ("timestamp_ms", .integer, some .timestampMs)]

/-- The column with the clauses that tokens make up applied in order. -/
def applyClauses (column : Column) (tokens : List Token) : Except ColumnFault Column :=
  match tokens with
  | [] => .ok column
  | token :: rest =>
    match h : Clause.read token rest with
    | .error fault => .error fault
    | .ok (clause, rest') =>
      have := Clause.read_length h
      applyClauses (clause.apply column) rest'
termination_by tokens.length
decreasing_by simp_wf; omega

/-- The column that tokens declare: a type and clauses in any order. -/
def ofTokens (name : String) : List Token → Except ColumnFault Column
  | .word w :: rest =>
    match typeWords.lookup (asciiLower w) with
    | some (type, mode) => applyClauses { name, type, mode } rest
    | none => .error (.unknownType w)
  | token :: _ => .error (.unexpected token.describe)
  | [] => .error .empty

def ofText (name text : String) : Except ColumnFault Column := do
  ofTokens name (← Token.readAll text.toList)

end Column

end Tabularium
