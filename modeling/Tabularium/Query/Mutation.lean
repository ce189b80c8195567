import Tabularium.Query.Basic

namespace Tabularium

namespace Mutation

/-- The condition on the rows that are changed; there has to be one. -/
def requireCondition (action : String) (conditions : Json) : Except CompileError Condition := do
  let condition ← Condition.ofJson conditions
  if condition.isEmpty then throw (.unboundedMutation action)
  return condition

/-- The columns of a row with the values that are bound for them. -/
def bindRow (action : String) (row : Row) : Except CompileError (List (String × SqlValue)) :=
  if row.isEmpty then .error (.emptyRow action)
  else row.entries.mapM fun (column, j) => do
    requireIdentifier column
    return (column, .ofJson j)

def insert (table : String) (row : Row) : Except CompileError Statement := do
  requireIdentifier table
  let cells ← bindRow "insert" row
  return ⟨"INSERT INTO " ++ table ++ " (" ++ separated ", " (cells.map Prod.fst) ++ ") VALUES ("
    ++ SqlValue.placeholders cells.length ++ ")", cells.map Prod.snd⟩

def update (table : String) (conditions : Json) (patch : Row) : Except CompileError Statement := do
  requireIdentifier table
  let cells ← bindRow "update" patch
  let condition ← requireCondition "update" conditions
  return ⟨"UPDATE " ++ table ++ " SET "
    ++ separated ", " (cells.map fun (column, _) => column ++ " = ?") ++ " WHERE " ++ condition.sql,
    cells.map Prod.snd ++ condition.params⟩

def delete (table : String) (conditions : Json) : Except CompileError Statement := do
  requireIdentifier table
  let condition ← requireCondition "delete" conditions
  return ⟨"DELETE FROM " ++ table ++ " WHERE " ++ condition.sql, condition.params⟩

def count (table : String) (conditions : Json) : Except CompileError Statement :=
  (Query.filterBy { table } conditions).compileCount

end Mutation

end Tabularium
