import Tabularium.Numeric.Integer

namespace Tabularium

namespace Toml

/-- A number that is written with some digits, with what follows it. -/
def readFixed? (count : Nat) (cs : List Char) : Option (Nat × List Char) :=
  let digits := cs.take count
  if digits.length = count ∧ digits.all Char.isDigit then
    some (digitsValue digits, cs.drop count)
  else none

/-- A number of two digits in a range, with what follows it. -/
def readPair? (least most : Nat) (cs : List Char) : Option (Nat × List Char) :=
  (readFixed? 2 cs).filter fun (n, _) => least ≤ n && n ≤ most

/-- What follows a character at the start. -/
def skipChar? (c : Char) : List Char → Option (List Char)
  | d :: rest => if d = c then some rest else none
  | [] => none

def isLeapYear (year : Nat) : Bool :=
  year % 4 == 0 && (year % 100 != 0 || year % 400 == 0)

def daysOf (year month : Nat) : Nat :=
  if month = 2 then if isLeapYear year then 29 else 28
  else if [4, 6, 9, 11].contains month then 30
  else 31

def skipDate? (cs : List Char) : Option (List Char) := do
  let (year, rest) ← readFixed? 4 cs
  let (month, rest) ← readPair? 1 12 (← skipChar? '-' rest)
  let (_, rest) ← readPair? 1 (daysOf year month) (← skipChar? '-' rest)
  return rest

/-- What follows the digits of a part of a second, if there are any. -/
def skipFraction? : List Char → Option (List Char)
  | '.' :: rest => if rest.head?.any Char.isDigit then some (rest.dropWhile Char.isDigit) else none
  | cs => some cs

/-- What follows an hour and a minute. -/
def skipMinute? (cs : List Char) : Option (List Char) := do
  let (_, rest) ← readPair? 0 23 cs
  let (_, rest) ← readPair? 0 59 (← skipChar? ':' rest)
  return rest

/-- What follows a time of day; a minute may have a leap second. -/
def skipTime? (cs : List Char) : Option (List Char) := do
  let (_, rest) ← readPair? 0 60 (← skipChar? ':' (← skipMinute? cs))
  skipFraction? rest

/-- What follows the distance of a time zone, if there is one. -/
def skipZone? : List Char → Option (List Char)
  | 'Z' :: rest => some rest
  | 'z' :: rest => some rest
  | '+' :: rest => skipMinute? rest
  | '-' :: rest => skipMinute? rest
  | cs => some cs

/-- What follows a date, which may have a time of day. -/
def skipDateTime? (cs : List Char) : Option (List Char) := do
  let rest ← skipDate? cs
  match rest with
  | c :: time =>
    if c == 'T' || c == 't' || c == ' ' then
      match skipTime? time with
      | some rest => skipZone? rest
      | none => return rest
    else return rest
  | [] => return rest

/-- A date, a time of day or both, with what follows. -/
def readMoment? (cs : List Char) : Option (String × List Char) :=
  ((skipDateTime? cs).or (skipTime? cs)).map fun rest =>
    (String.ofList (cs.take (cs.length - rest.length)), rest)

end Toml

end Tabularium
