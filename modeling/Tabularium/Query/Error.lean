namespace Tabularium

/-- Why the description of a query or of a change does not compile. -/
inductive CompileError where
  | unsupportedPredicate (column reason : String)
  | conditionsNotObject (found : String)
  | invalidIdentifier (name : String)
  | invalidDirection (direction : String)
  | unboundedMutation (action : String)
  | emptyRow (action : String)
  | unknownRelation (table related : String)
deriving DecidableEq, Repr

def CompileError.message : CompileError → String
  | unsupportedPredicate column reason =>
    "unsupported predicate for column '" ++ column ++ "': " ++ reason
  | conditionsNotObject found => "conditions must be an object, got " ++ found
  | invalidIdentifier name => "invalid identifier '" ++ name ++ "'"
  | invalidDirection direction => "invalid order direction '" ++ direction ++ "'"
  | unboundedMutation action => "refusing to " ++ action ++ " without a WHERE condition"
  | emptyRow action => "nothing to write: " ++ action ++ " has no columns"
  | unknownRelation table related => "no relation from '" ++ table ++ "' to '" ++ related ++ "'"

end Tabularium
