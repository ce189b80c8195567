namespace Tabularium

inductive ColumnFault where
  | unknownType (found : String)
  | unexpected (found : String)
  /-- A word without the argument that it asks for. -/
  | missing (keyword expected : String)
  /-- A quoted text or a group is not closed. -/
  | unterminated (what : String)
  | empty
deriving DecidableEq, Repr

def ColumnFault.message : ColumnFault → String
  | unknownType found => "unknown type '" ++ found ++ "'"
  | unexpected found => "unexpected token '" ++ found ++ "'"
  | missing keyword expected => "'" ++ keyword ++ "' expects " ++ expected
  | unterminated what => "unterminated " ++ what
  | empty => "empty definition"

inductive SchemaError where
  | column (table column : String) (fault : ColumnFault)
  | unknownMixin (table mixin : String)
  | duplicateColumn (table column : String)
  | invalidIdentifier (name : String)
  | unknownIndexColumn (table index column : String)
  | unknownReference (table column target : String)
deriving DecidableEq, Repr

def SchemaError.message : SchemaError → String
  | column table name fault => "column '" ++ table ++ "." ++ name ++ "': " ++ fault.message
  | unknownMixin table mixin => "table '" ++ table ++ "': unknown mixin '" ++ mixin ++ "'"
  | duplicateColumn table name => "table '" ++ table ++ "': duplicate column '" ++ name ++ "'"
  | invalidIdentifier name => "invalid identifier '" ++ name ++ "'"
  | unknownIndexColumn table index name =>
    "index '" ++ index ++ "' on '" ++ table ++ "' references unknown column '" ++ name ++ "'"
  | unknownReference table name target =>
    "column '" ++ table ++ "." ++ name ++ "' references unknown '" ++ target ++ "'"

end Tabularium
