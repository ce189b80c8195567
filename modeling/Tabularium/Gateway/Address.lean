import Tabularium.Numeric.Integer
import Tabularium.Text.Hexadecimal
import Tabularium.Text.Pieces

namespace Tabularium

/-- An address in a network: four bytes, or eight groups of 16 bits. -/
inductive IpAddress where
  | v4 (a b c d : UInt8)
  | v6 (groups : List UInt16) (isEight : groups.length = 8)
deriving DecidableEq

namespace IpAddress

/-- Reads a byte as one to three digits without a zero in front. -/
def readByte? (cs : List Char) : Option UInt8 :=
  if cs.isEmpty || 3 < cs.length || !cs.all Char.isDigit then none
  else if cs.head? = some '0' ∧ 1 < cs.length then none
  else byte? (digitsValue cs)

/-- Reads four bytes with points between them. -/
def readV4? (cs : List Char) : Option (UInt8 × UInt8 × UInt8 × UInt8) :=
  match (splitAtEach '.' cs).mapM readByte? with
  | some [a, b, c, d] => some (a, b, c, d)
  | _ => none

/-- Reads a group as one to four hexadecimal digits. -/
def readGroup? (cs : List Char) : Option UInt16 :=
  if cs.isEmpty || 4 < cs.length then none else (hexNumber? cs).map UInt16.ofNat

/-- Two bytes as a group. -/
def joinBytes (a b : UInt8) : UInt16 :=
  a.toUInt16 * 256 + b.toUInt16

/-- Reads groups of which the last two may be written as four bytes. -/
def readTail? : List (List Char) → Option (List UInt16)
  | [] => some []
  | [piece] =>
    match readV4? piece with
    | some (a, b, c, d) => some [joinBytes a b, joinBytes c d]
    | none => (readGroup? piece).map ([·])
  | piece :: pieces => do return (← readGroup? piece) :: (← readTail? pieces)

/-- The pieces between colons, none in an empty text. -/
def piecesOf (cs : List Char) : List (List Char) :=
  if cs.isEmpty then [] else splitAtEach ':' cs

/-- The text in front of the first double colon and the text behind it. -/
def splitDouble? : List Char → Option (List Char × List Char)
  | ':' :: ':' :: cs => some ([], cs)
  | c :: cs => (splitDouble? cs).map fun (front, back) => (c :: front, back)
  | [] => none

/-- Reads eight groups; a double colon stands for at least one group of zero. -/
def readGroups? (cs : List Char) : Option (List UInt16) :=
  match splitDouble? cs with
  | none => readTail? (piecesOf cs)
  | some (front, back) => do
    let front ← (piecesOf front).mapM readGroup?
    let back ← readTail? (piecesOf back)
    if front.length + back.length < 8 then
      return front ++ List.replicate (8 - front.length - back.length) 0 ++ back
    else none

def ofText? (s : String) : Option IpAddress :=
  match readV4? s.toList with
  | some (a, b, c, d) => some (.v4 a b c d)
  | none => do
    let groups ← readGroups? s.toList
    if h : groups.length = 8 then return .v6 groups h else none

/-- Four bytes with points between them. -/
def dotted (a b c d : UInt8) : String :=
  separated "." ([a, b, c, d].map fun byte => Nat.repr byte.toNat)

def colons (groups : List UInt16) : String :=
  separated ":" (groups.map fun group => String.ofList (Nat.toDigits 16 group.toNat))

/-- How many zeros stand in front. -/
def zerosInFront (groups : List UInt16) : Nat :=
  (groups.takeWhile (· == 0)).length

/-- Where the first of the longest runs of zeros starts. -/
def longestRun (groups : List UInt16) : Nat :=
  (List.range groups.length).foldl (fun best start =>
    if zerosInFront (groups.drop best) < zerosInFront (groups.drop start) then start else best) 0

/-- The shortest text of eight groups: a double colon stands for the longest run of zeros when there
is more than one. -/
def groupsText (groups : List UInt16) : String :=
  let start := longestRun groups
  let length := zerosInFront (groups.drop start)
  if 1 < length then
    colons (groups.take start) ++ "::" ++ colons (groups.drop (start + length))
  else colons groups

/-- The text of an address; four bytes that are embedded in groups are shown as such. -/
def text : IpAddress → String
  | v4 a b c d => dotted a b c d
  | v6 groups _ =>
    match groups with
    | [0, 0, 0, 0, 0, 0xFFFF, ab, cd] =>
      "::ffff:" ++ dotted (ab / 256).toUInt8 ab.toUInt8 (cd / 256).toUInt8 cd.toUInt8
    | _ => groupsText groups

def socketText (a : IpAddress) (number : UInt16) : String :=
  let host := match a with
    | v4 _ _ _ _ => a.text
    | v6 _ _ => "[" ++ a.text ++ "]"
  host ++ ":" ++ Nat.repr number.toNat

end IpAddress

end Tabularium
