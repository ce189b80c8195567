import Tabularium.Text.Hexadecimal
import Tabularium.Text.Pieces

namespace Tabularium

namespace Toml

/-- A character that may stand in a text or a comment: a tab, or one that is no control. -/
def isPlain (c : Char) : Bool :=
  c == '\t' || (0x20 ≤ c.toNat && c.toNat ≠ 0x7F)

def skipSpaces (cs : List Char) : List Char :=
  cs.dropWhile fun c => c == ' ' || c == '\t'

/-- What follows a line break. -/
def skipBreak? : List Char → Option (List Char)
  | '\n' :: rest => some rest
  | '\r' :: '\n' :: rest => some rest
  | _ => none

/-- The text without the spaces, tabs and line breaks in front. -/
def skipLines : List Char → List Char
  | '\r' :: '\n' :: rest => skipLines rest
  | c :: rest => if c == ' ' || c == '\t' || c == '\n' then skipLines rest else c :: rest
  | [] => []

/-- The character whose code point is written in a number of hexadecimal digits, with what follows
them. -/
def readPoint? (count : Nat) (cs : List Char) : Option (Char × List Char) :=
  match hexNumber? (cs.take count) with
  | some point =>
    if count ≤ cs.length ∧ point.isValidChar then some (Char.ofNat point, cs.drop count) else none
  | none => none

/-- The character that an escape denotes, behind its backslash, with what follows it. -/
def readEscape? : List Char → Option (Char × List Char)
  | '\x22' :: rest => some ('\x22', rest)
  | '\\' :: rest => some ('\\', rest)
  | 'b' :: rest => some ('\x08', rest)
  | 'f' :: rest => some ('\x0c', rest)
  | 'n' :: rest => some ('\n', rest)
  | 'r' :: rest => some ('\r', rest)
  | 't' :: rest => some ('\t', rest)
  | 'u' :: rest => readPoint? 4 rest
  | 'U' :: rest => readPoint? 8 rest
  | _ => none

def prepend (c : Char) : List Char × List Char → List Char × List Char
  | (text, rest) => (c :: text, rest)

/-- The text up to a closing double quote, with what follows it; each character takes a step of the
fuel. -/
def readQuoted? : Nat → List Char → Option (List Char × List Char)
  | 0, _ => none
  | fuel + 1, cs =>
    match cs with
    | [] => none
    | '\x22' :: rest => some ([], rest)
    | '\\' :: rest => do
      let (c, rest) ← readEscape? rest
      return prepend c (← readQuoted? fuel rest)
    | c :: rest => if isPlain c then (readQuoted? fuel rest).map (prepend c) else none

/-- What follows three quotes: up to two more of them still belong to the text, which they then
end. -/
def closeLong (quote : Char) (rest : List Char) : List Char × List Char :=
  let quotes := (rest.takeWhile (· == quote)).take 2
  (quotes, rest.drop quotes.length)

/-- The text up to three closing double quotes, with what follows them. A backslash at the end of a
line takes the blanks behind it away. -/
def readLongQuoted? : Nat → List Char → Option (List Char × List Char)
  | 0, _ => none
  | fuel + 1, cs =>
    match cs with
    | [] => none
    | '\x22' :: '\x22' :: '\x22' :: rest => some (closeLong '\x22' rest)
    | '\\' :: rest =>
      match skipBreak? (skipSpaces rest) with
      | some rest => readLongQuoted? fuel (skipLines rest)
      | none => do
        let (c, rest) ← readEscape? rest
        return prepend c (← readLongQuoted? fuel rest)
    | c :: rest =>
      match skipBreak? (c :: rest) with
      | some rest => (readLongQuoted? fuel rest).map (prepend '\n')
      | none => if isPlain c then (readLongQuoted? fuel rest).map (prepend c) else none

/-- The text up to a closing single quote, with what follows it; nothing is escaped. -/
def readLiteral? (cs : List Char) : Option (List Char × List Char) :=
  (splitOnce? '\x27' cs).filter fun (text, _) => text.all isPlain

/-- The text up to three closing single quotes, with what follows them. -/
def readLongLiteral? : List Char → Option (List Char × List Char)
  | [] => none
  | '\x27' :: '\x27' :: '\x27' :: rest => some (closeLong '\x27' rest)
  | '\r' :: '\n' :: rest => (readLongLiteral? rest).map (prepend '\n')
  | c :: rest =>
    if isPlain c || c == '\n' then (readLongLiteral? rest).map (prepend c) else none

/-- A text on one line between quotes, with what follows it. -/
def readShort? : List Char → Option (String × List Char)
  | '\x22' :: rest =>
    (readQuoted? (rest.length + 1) rest).map fun (text, rest) => (String.ofList text, rest)
  | '\x27' :: rest => (readLiteral? rest).map fun (text, rest) => (String.ofList text, rest)
  | _ => none

/-- A text between quotes, with what follows it. One between three of them goes over lines, and a
line break at its start is left out. -/
def readText? (cs : List Char) : Option (String × List Char) :=
  match cs with
  | '\x22' :: '\x22' :: '\x22' :: rest =>
    let body := (skipBreak? rest).getD rest
    (readLongQuoted? (body.length + 1) body).map fun (text, rest) => (String.ofList text, rest)
  | '\x27' :: '\x27' :: '\x27' :: rest =>
    (readLongLiteral? ((skipBreak? rest).getD rest)).map fun (text, rest) =>
      (String.ofList text, rest)
  | cs => readShort? cs

end Toml

end Tabularium
