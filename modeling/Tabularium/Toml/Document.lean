import Tabularium.Toml.Moment
import Tabularium.Toml.Number
import Tabularium.Toml.Table
import Tabularium.Toml.Text

namespace Tabularium

namespace Toml

/-- The characters of a key without quotes. -/
def isKeyChar (c : Char) : Bool :=
  c.isAlphanum || c == '_' || c == '-'

def readKey? (cs : List Char) : Option (String × List Char) :=
  match readShort? cs with
  | some read => some read
  | none =>
    let key := cs.takeWhile isKeyChar
    if key.isEmpty then none else some (String.ofList key, cs.dropWhile isKeyChar)

/-- At most a number of keys with points between them, with what follows the last one and the
blanks behind it. -/
def readKeys? : Nat → List Char → Option (List String × List Char)
  | 0, _ => none
  | count + 1, cs => do
    let (key, rest) ← readKey? (skipSpaces cs)
    match skipSpaces rest with
    | '.' :: rest =>
      let (keys, rest) ← readKeys? count rest
      return (key :: keys, rest)
    | rest => return ([key], rest)

/-- Keys with points and the nesting of values stay below eighty. -/
def depthLimit : Nat := 79

/-- A value that does not hold others. -/
def readPlain? (cs : List Char) : Option (Json × List Char) :=
  match cs with
  | 't' :: 'r' :: 'u' :: 'e' :: rest => some (.bool true, rest)
  | 'f' :: 'a' :: 'l' :: 's' :: 'e' :: rest => some (.bool false, rest)
  | cs =>
    match readText? cs, readMoment? cs with
    | some (s, rest), _ => some (.text s, rest)
    | none, some (moment, rest) => some (.record [("", .text moment)], rest)
    | none, none => readNumber? cs

/-- The text without the blanks, line breaks and comments in front. -/
def skipFiller (inComment : Bool) : List Char → List Char
  | [] => []
  | '\r' :: '\n' :: rest => skipFiller false rest
  | c :: rest =>
    if c = '\n' then skipFiller false rest
    else if inComment && isPlain c then skipFiller true rest
    else if !inComment && c == '#' then skipFiller true rest
    else if !inComment && (c == ' ' || c == '\t') then skipFiller false rest
    else c :: rest

/-- The values of a list up to its end; each takes a step of the fuel. -/
def readItems? (read : List Char → Option (Json × List Char)) :
    Nat → List Char → Option (List Json × List Char)
  | 0, _ => none
  | fuel + 1, cs =>
    match skipFiller false cs with
    | ']' :: rest => some ([], rest)
    | cs => do
      let (item, rest) ← read cs
      match skipFiller false rest with
      | ',' :: rest =>
        let (items, rest) ← readItems? read fuel rest
        return (item :: items, rest)
      | ']' :: rest => return ([item], rest)
      | _ => none

/-- A key with points and its value, put into a table. -/
def readEntry? (read : List Char → Option (Json × List Char)) (cs : List Char) :
    Option ((List String × Json) × List Char) := do
  let (keys, rest) ← readKeys? depthLimit cs
  let (value, rest) ← read (skipSpaces (← skipChar? '=' rest))
  return ((keys, value), skipSpaces rest)

/-- The entries of a table on one line, of which there is at least one, up to its end; each takes a
step of the fuel. -/
def readEntries? (read : List Char → Option (Json × List Char)) :
    Nat → Entries → List Char → Option (Entries × List Char)
  | 0, _, _ => none
  | fuel + 1, entries, cs => do
    let ((keys, value), rest) ← readEntry? read cs
    let entries ← put? keys value entries
    match rest with
    | ',' :: rest => readEntries? read fuel entries rest
    | '\x7d' :: rest => return (entries, rest)
    | _ => none

/-- A value, which holds others down to a depth, with what follows it. -/
def readValue? : Nat → List Char → Option (Json × List Char)
  | depth + 1, '[' :: rest =>
    (readItems? (readValue? depth) (rest.length + 1) rest).map fun (items, rest) =>
      (.list items, rest)
  | depth + 1, '\x7b' :: rest =>
    match skipSpaces rest with
    | '\x7d' :: rest => some (.record [], rest)
    | rest =>
      (readEntries? (readValue? depth) (rest.length + 1) [] rest).map fun (entries, rest) =>
        (.record (entriesJson entries), rest)
  | _, cs => readPlain? cs

/-- What follows the end of a line, in front of which a comment may stand. -/
def skipLine? (cs : List Char) : Option (List Char) :=
  let rest := match skipSpaces cs with
    | '#' :: rest => rest.dropWhile isPlain
    | rest => rest
  if rest.isEmpty then some [] else skipBreak? rest

/-- What was read of a file: its entries and the heading of the table that was opened last. -/
structure Progress where
  entries : Entries := []
  heading : List String := []

/-- Reads a line that is not empty: a heading, or a key with its value. -/
def readLine? (p : Progress) (cs : List Char) : Option (Progress × List Char) :=
  match cs with
  | '[' :: '[' :: rest => do
    let (heading, rest) ← readKeys? depthLimit rest
    let rest ← skipChar? ']' (← skipChar? ']' rest)
    return ({ entries := ← openNext? heading p.entries, heading }, rest)
  | '[' :: rest => do
    let (heading, rest) ← readKeys? depthLimit rest
    return ({ entries := ← openTable? heading p.entries, heading }, ← skipChar? ']' rest)
  | cs => do
    let ((keys, value), rest) ← readEntry? (readValue? depthLimit) cs
    return ({ p with entries := ← putUnder? p.heading keys value p.entries }, rest)

/-- Reads lines up to the end of the text; each takes a step of the fuel. -/
def readLines? : Nat → Progress → List Char → Option Progress
  | 0, _, _ => none
  | fuel + 1, p, cs =>
    if cs.isEmpty then some p
    else
      match skipLine? cs with
      | some rest => readLines? fuel p rest
      | none => do
        let (p, rest) ← readLine? p (skipSpaces cs)
        readLines? fuel p (← skipLine? rest)

/-- The document that a text denotes, in front of which a byte order mark may stand. -/
def read? (s : String) : Option Json :=
  let cs := match s.toList with
    | c :: rest => if c.toNat = 0xFEFF then rest else c :: rest
    | [] => []
  (readLines? (cs.length + 1) {} cs).map fun p => .record (entriesJson p.entries)

end Toml

end Tabularium
