namespace Tabularium

/-- Puts a character in front of the first piece. -/
def keepChar (c : Char) : List (List Char) → List (List Char)
  | [] => [[c]]
  | piece :: pieces => (c :: piece) :: pieces

/-- The pieces between the occurrences of a separator; a text without one is a single piece. -/
def splitAtEach (separator : Char) : List Char → List (List Char)
  | [] => [[]]
  | c :: cs =>
    if c = separator then [] :: splitAtEach separator cs else keepChar c (splitAtEach separator cs)

/-- The text in front of the first occurrence of a separator and the text behind it. -/
def splitOnce? (separator : Char) : List Char → Option (List Char × List Char)
  | [] => none
  | c :: cs =>
    if c = separator then some ([], cs)
    else (splitOnce? separator cs).map fun (front, back) => (c :: front, back)

/-- The texts in order with a separator between neighbours. -/
def separated (separator : String) : List String → String
  | [] => ""
  | [s] => s
  | s :: t :: rest => s ++ separator ++ separated separator (t :: rest)

end Tabularium
