import Tabularium.Text.Ascii
import Tabularium.Text.Blank

namespace Tabularium

/-- The characters that a name may start with. -/
def isNameStart (c : Char) : Bool :=
  c.isAlpha || c == '_'

/-- The characters that a name is made of. -/
def isNameChar (c : Char) : Bool :=
  c.isAlphanum || c == '_'

/-- The text can stand for a table, column or index without quotes. -/
def isIdentifier (name : String) : Bool :=
  match name.toList with
  | [] => false
  | c :: cs => isNameStart c && cs.all isNameChar

/-- The words that open a statement that only reads. -/
def readingKeywords : List String :=
  ["SELECT", "WITH", "PRAGMA", "EXPLAIN", "VALUES"]

/-- The statement opens with a word for reading. -/
def isReadOnly (sql : String) : Bool :=
  let word := (trimStart sql.toList).takeWhile Char.isAlpha
  readingKeywords.contains (asciiUpper (String.ofList word))

end Tabularium
