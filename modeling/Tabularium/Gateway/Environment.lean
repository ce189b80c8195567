import Tabularium.Json.Overlay
import Tabularium.Text.Ascii
import Tabularium.Text.Blank
import Tabularium.Toml.Document

namespace Tabularium

namespace Environment

/-- The characters that part the values in the environment. -/
def isSeparator (c : Char) : Bool :=
  ",[]\x7b\x7d".toList.contains c

/-- The text without the ASCII blanks in front. -/
def skipSpace (cs : List Char) : List Char :=
  cs.dropWhile fun c => c == ' ' || c == '\t' || c == '\n' || c == '\x0c' || c == '\r'

/-- A word without quotes: a number with a point, an integer that a word has room for, or a text
without blanks at its ends. -/
def wordValue (word : List Char) : Json :=
  let text := trim word
  match if text.contains '.' then Binary64.read? text else none with
  | some x => .float x
  | none =>
    match (readInteger? text).filter fun n => (uint64? n).isSome || (int64? n).isSome with
    | some n => .int n
    | none => .text (String.ofList text)

/-- The values of a list up to its end; each takes a step of the fuel. -/
def readItems? (read : List Char → Option (Json × List Char)) :
    Nat → List Char → Option (List Json × List Char)
  | 0, _ => none
  | fuel + 1, cs =>
    match cs with
    | ']' :: rest => some ([], rest)
    | cs => do
      let (item, rest) ← read cs
      match rest with
      | ',' :: rest =>
        let (items, rest) ← readItems? read fuel rest
        return (item :: items, rest)
      | ']' :: rest => return ([item], rest)
      | _ => none

/-- A key with what follows it, without the blanks around it. -/
def readKey? (cs : List Char) : Option (String × List Char) := do
  let (key, rest) ← match skipSpace cs with
    | '\x22' :: rest => Toml.readQuoted? (rest.length + 1) rest
    | rest =>
      let key := rest.takeWhile Toml.isKeyChar
      if key.isEmpty then none else some (key, rest.drop key.length)
  return (String.ofList key, skipSpace rest)

/-- The entries of a record up to its end, of which the last one under a key stays; each takes a
step of the fuel. -/
def readEntries? (read : List Char → Option (Json × List Char)) :
    Nat → List (String × Json) → List Char → Option (List (String × Json) × List Char)
  | 0, _, _ => none
  | fuel + 1, entries, cs =>
    match cs with
    | '\x7d' :: rest => some (entries, rest)
    | cs => do
      let (key, rest) ← readKey? cs
      let (value, rest) ← read (← Toml.skipChar? '=' rest)
      let entries := OrderedMap.insertEntry key value entries
      match rest with
      | ',' :: rest => readEntries? read fuel entries rest
      | '\x7d' :: rest => return (entries, rest)
      | _ => none

/-- A value with what follows it, without the blanks around it; each level of nesting takes a step
of the fuel. -/
def readValue? : Nat → List Char → Option (Json × List Char)
  | 0, _ => none
  | fuel + 1, cs => do
    let (value, rest) ← match skipSpace cs with
      | 't' :: 'r' :: 'u' :: 'e' :: rest => some (.bool true, rest)
      | 'f' :: 'a' :: 'l' :: 's' :: 'e' :: rest => some (.bool false, rest)
      | '[' :: rest =>
        (readItems? (readValue? fuel) (rest.length + 1) rest).map fun (items, rest) =>
          (.list items, rest)
      | '\x7b' :: rest =>
        (readEntries? (readValue? fuel) (rest.length + 1) [] rest).map fun (entries, rest) =>
          (.record entries, rest)
      | '\x22' :: rest =>
        (Toml.readQuoted? (rest.length + 1) rest).map fun (text, rest) =>
          (.text (String.ofList text), rest)
      | '\x27' :: c :: '\x27' :: rest => some (.text (String.singleton c), rest)
      | '\x27' :: _ => none
      | rest =>
        let word := rest.takeWhile (!isSeparator ·)
        some (wordValue word, rest.drop word.length)
    return (value, skipSpace rest)

/-- The value of a setting in the environment. A text that is not written like a value is taken as
it is. -/
def valueOf (s : String) : Json :=
  match readValue? (s.length + 1) s.toList with
  | some (value, []) => value
  | _ => .text s

/-- Two underscores in a name are a point. -/
def withPoints : List Char → List Char
  | '_' :: '_' :: cs => '.' :: withPoints cs
  | c :: cs => c :: withPoints cs
  | [] => []

/-- The keys that a name in the environment stands for, in either case; none when one of them is
empty. -/
def keysOf? (name : String) : Option (List String) :=
  let keys := splitAtEach '.' (trim (withPoints name.toList))
  if keys.any List.isEmpty then none
  else some (keys.map fun key => asciiLower (String.ofList key))

/-- The settings in the environment; a later one is laid over an earlier one, and a name that is
given again keeps its place. -/
def settings (environment : List (String × String)) : Json :=
  (OrderedMap.ofList environment).entries.foldl (fun settings (name, value) =>
    match keysOf? name with
    | some keys => settings.overlay (Json.nested keys (valueOf value))
    | none => settings) (.record [])

end Environment

end Tabularium
