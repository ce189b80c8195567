import Tabularium.Query.Error
import Tabularium.Sql.Identifier
import Tabularium.Sql.Value

namespace Tabularium

/-- A comparison by order. -/
inductive Comparison where
  | lt
  | lte
  | gt
  | gte
deriving DecidableEq, Repr

namespace Comparison

def sql : Comparison → String
  | lt => "<"
  | lte => "<="
  | gt => ">"
  | gte => ">="

def word : Comparison → String
  | lt => "lt"
  | lte => "lte"
  | gt => "gt"
  | gte => "gte"

def ofWord? (w : String) : Option Comparison :=
  [lt, lte, gt, gte].find? fun c => c.word == w

end Comparison

inductive Test where
  | eq (value : SqlValue)
  | like (pattern : String)
  | oneOf (values : List SqlValue)
  | isNull
  | isNotNull
  | compare (op : Comparison) (value : SqlValue)
deriving DecidableEq

namespace Test

/-- The text of a test of a column. No value is one of none. -/
def sql (column : String) : Test → String
  | eq _ => column ++ " = ?"
  | like _ => column ++ " LIKE ?"
  | oneOf [] => "1 = 0"
  | oneOf values => column ++ " IN (" ++ SqlValue.placeholders values.length ++ ")"
  | isNull => column ++ " IS NULL"
  | isNotNull => column ++ " IS NOT NULL"
  | compare op _ => column ++ " " ++ op.sql ++ " ?"

def params : Test → List SqlValue
  | eq value => [value]
  | like pattern => [.text pattern]
  | oneOf values => values
  | isNull => []
  | isNotNull => []
  | compare _ value => [value]

def operand (column : String) (j : Json) : Except CompileError SqlValue :=
  match j with
  | .list _ => .error (.unsupportedPredicate column ("expected a scalar, got " ++ j.compact))
  | .record _ => .error (.unsupportedPredicate column ("expected a scalar, got " ++ j.compact))
  | _ => .ok (.ofJson j)

/-- The test that an operator with its operand stands for. -/
def ofOperator (column key : String) (j : Json) : Except CompileError Test :=
  match key with
  | "in" =>
    match j with
    | .list items => oneOf <$> items.mapM (operand column)
    | _ => .error (.unsupportedPredicate column "'in' expects an array")
  | "isNullish" =>
    match j with
    | .bool true => .ok isNull
    | .bool false => .ok isNotNull
    | _ => .error (.unsupportedPredicate column "'isNullish' expects a boolean")
  | _ =>
    match Comparison.ofWord? key with
    | some op => compare op <$> operand column j
    | none => .error (.unsupportedPredicate column ("unknown operator '" ++ key ++ "'"))

/-- The tests that the condition on a column stands for, all of which have to hold. -/
def ofJson (column : String) (j : Json) : Except CompileError (List Test) :=
  match j with
  | .null => .ok [isNull]
  | .text s => .ok [if s.toList.contains '%' then like s else eq (.text s)]
  | .list _ =>
    .error (.unsupportedPredicate column
      "bare arrays are not allowed, use \x7b\"in\": [...]\x7d")
  | .record [] => .error (.unsupportedPredicate column "empty operator object")
  | .record entries => entries.mapM fun (key, operand) => ofOperator column key operand
  | _ => .ok [eq (.ofJson j)]

end Test

structure ColumnTest where
  column : String
  test : Test
deriving DecidableEq

namespace ColumnTest

def sql (t : ColumnTest) : String :=
  t.test.sql t.column

def params (t : ColumnTest) : List SqlValue :=
  t.test.params

end ColumnTest

def requireIdentifier (name : String) : Except CompileError Unit :=
  if isIdentifier name then .ok () else .error (.invalidIdentifier name)

abbrev Condition := List ColumnTest

namespace Condition

/-- The condition that a record of columns stands for. -/
def ofJson : Json → Except CompileError Condition
  | .record entries => do
    let tests ← entries.mapM fun (column, j) => do
      requireIdentifier column
      return (← Test.ofJson column j).map fun test => ⟨column, test⟩
    return tests.flatten
  | j => .error (.conditionsNotObject j.compact)

def sql (c : Condition) : String :=
  separated " AND " (c.map ColumnTest.sql)

def params (c : Condition) : List SqlValue :=
  c.flatMap ColumnTest.params

end Condition

end Tabularium
