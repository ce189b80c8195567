import Tabularium.Json.Basic
import Tabularium.Numeric.Layout
import Tabularium.Text.Hexadecimal
import Tabularium.Text.Pieces

namespace Tabularium

namespace Toml

/-- A run of digits, without the single underscores that may stand between them, and what follows
it. -/
def readDigits? (isDigit : Char → Bool) (cs : List Char) : Option (List Char × List Char) :=
  let run := cs.takeWhile fun c => isDigit c || c == '_'
  let pieces := splitAtEach '_' run
  if pieces.any List.isEmpty then none else some (pieces.flatten, cs.drop run.length)

/-- The digits of a decimal number in front of its point; a zero stands alone. -/
def readWhole? : List Char → Option (List Char × List Char)
  | '0' :: rest => some (['0'], rest)
  | cs => readDigits? Char.isDigit cs

/-- The digits behind a point with the point, if there is one. -/
def readPlaces? : List Char → Option (List Char × List Char)
  | '.' :: rest => (readDigits? Char.isDigit rest).map fun (digits, rest) => ('.' :: digits, rest)
  | cs => some ([], cs)

/-- An exponent with its mark and its sign, if there is one. -/
def readExponent? (cs : List Char) : Option (List Char × List Char) :=
  match cs with
  | c :: rest =>
    if c = 'e' ∨ c = 'E' then
      let sign := rest.takeWhile fun c => c == '+' || c == '-'
      if 1 < sign.length then none
      else
        (readDigits? Char.isDigit (rest.drop sign.length)).map fun (digits, rest) =>
          ('e' :: sign ++ digits, rest)
    else some ([], cs)
  | [] => some ([], cs)

/-- An integer with a sign, when a word has room for it. -/
def wordInteger? (n : Int) : Option Json :=
  if (int64? n).isSome then some (.int n) else none

/-- An integer in a base, behind its mark. -/
def readBased? (base : Nat) (cs : List Char) : Option (Json × List Char) := do
  let (digits, rest) ← readDigits? (fun c => (hexValue? c).any (· < base)) cs
  let n := digits.foldl (fun n c => base * n + (hexValue? c).getD 0) 0
  return (← wordInteger? n, rest)

/-- A decimal number with a sign: an integer, or a number with a point or an exponent, which may not
grow beyond the largest one. -/
def readDecimal? (cs : List Char) : Option (Json × List Char) := do
  let (negative, body) := splitSign cs
  let (whole, rest) ← readWhole? body
  let (places, rest) ← readPlaces? rest
  let (exponent, rest) ← readExponent? rest
  if places.isEmpty && exponent.isEmpty then
    return (← wordInteger? (signed negative (digitsValue whole)), rest)
  else
    let x ← Binary64.read? (whole ++ places ++ exponent)
    if !negative && !x.isFinite then none else return (.float (x.withSign negative), rest)

def readNumber? (cs : List Char) : Option (Json × List Char) :=
  match cs with
  | '0' :: 'x' :: rest => readBased? 16 rest
  | '0' :: 'o' :: rest => readBased? 8 rest
  | '0' :: 'b' :: rest => readBased? 2 rest
  | cs =>
    let (negative, body) := splitSign cs
    match body with
    | 'i' :: 'n' :: 'f' :: rest => some (.float (.infinity negative), rest)
    | 'n' :: 'a' :: 'n' :: rest => some (.float .nan, rest)
    | _ => readDecimal? cs

end Toml

end Tabularium
