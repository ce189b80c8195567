import Tabularium.Json.Basic
import Tabularium.Numeric.Layout

namespace Tabularium

namespace Json

/-- The lower-case hexadecimal digit of a number below sixteen. -/
def hexDigit (n : Nat) : Char :=
  Nat.digitChar (n % 16)

/-- The written form of a character inside a quoted text: the quote, the backslash and the control
characters below the space are escaped. -/
def escapeChar (c : Char) : List Char :=
  if c = '\x22' then ['\\', '\x22']
  else if c = '\\' then ['\\', '\\']
  else if c = '\x08' then ['\\', 'b']
  else if c = '\t' then ['\\', 't']
  else if c = '\n' then ['\\', 'n']
  else if c = '\x0c' then ['\\', 'f']
  else if c = '\r' then ['\\', 'r']
  else if c.toNat < 0x20 then ['\\', 'u', '0', '0', hexDigit (c.toNat / 16), hexDigit c.toNat]
  else [c]

def quotedChars (s : String) : List Char :=
  '\x22' :: (s.toList.flatMap escapeChar ++ ['\x22'])

/-- The text of a document that holds no other document. -/
def scalarChars : Json → List Char
  | .null => ['n', 'u', 'l', 'l']
  | .bool true => ['t', 'r', 'u', 'e']
  | .bool false => ['f', 'a', 'l', 's', 'e']
  | .int n => (Int.repr n).toList
  | .float x => if x.isFinite then x.chars .document else ['n', 'u', 'l', 'l']
  | .text s => quotedChars s
  | .list _ => ['[', ']']
  | .record _ => ['\x7b', '\x7d']

mutual

/-- The text of a document without blanks. -/
def compactChars : Json → List Char
  | .list items => '[' :: (compactItems true items ++ [']'])
  | .record entries => '\x7b' :: (compactEntries true entries ++ ['\x7d'])
  | scalar => scalarChars scalar
termination_by structural j => j

/-- The items of a list, a comma in front of all but the first. -/
def compactItems (first : Bool) : List Json → List Char
  | [] => []
  | item :: rest => (if first then [] else [',']) ++ compactChars item ++ compactItems false rest
termination_by structural items => items

/-- The entries of a record, a comma in front of all but the first. -/
def compactEntries (first : Bool) : List (String × Json) → List Char
  | [] => []
  | (key, value) :: rest =>
    (if first then [] else [',']) ++ quotedChars key ++ ':' :: compactChars value
      ++ compactEntries false rest
termination_by structural entries => entries

end

def compact (j : Json) : String :=
  String.ofList j.compactChars

/-- A line break and two blanks for each level. -/
def lineBreak (depth : Nat) : List Char :=
  '\n' :: List.replicate (2 * depth) ' '

mutual

/-- The text of a document with each item and entry on a line of its own. -/
def prettyChars (depth : Nat) : Json → List Char
  | .list [] => ['[', ']']
  | .list (item :: rest) =>
    '[' :: lineBreak (depth + 1) ++ prettyChars (depth + 1) item ++ prettyItems (depth + 1) rest
      ++ lineBreak depth ++ [']']
  | .record [] => ['\x7b', '\x7d']
  | .record ((key, value) :: rest) =>
    '\x7b' :: lineBreak (depth + 1) ++ quotedChars key
      ++ ':' :: ' ' :: prettyChars (depth + 1) value ++ prettyEntries (depth + 1) rest
      ++ lineBreak depth ++ ['\x7d']
  | scalar => scalarChars scalar
termination_by structural j => j

/-- The items behind the first one. -/
def prettyItems (depth : Nat) : List Json → List Char
  | [] => []
  | item :: rest => ',' :: lineBreak depth ++ prettyChars depth item ++ prettyItems depth rest
termination_by structural items => items

/-- The entries behind the first one. -/
def prettyEntries (depth : Nat) : List (String × Json) → List Char
  | [] => []
  | (key, value) :: rest =>
    ',' :: lineBreak depth ++ quotedChars key ++ ':' :: ' ' :: prettyChars depth value
      ++ prettyEntries depth rest
termination_by structural entries => entries

end

/-- The text of a document with two blanks of indentation for each level. -/
def pretty (j : Json) : String :=
  String.ofList (j.prettyChars 0)

end Json

end Tabularium
