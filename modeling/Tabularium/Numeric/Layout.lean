import Tabularium.Numeric.Integer
import Tabularium.Numeric.Shortest

namespace Tabularium

/-- The decisions that a decimal layout of double precision numbers makes. -/
structure NumberLayout where
  /-- How two equally near decimals are told apart. -/
  tie : Tie
  /-- The least and the greatest power of the first digit that need no exponent mark; `none` when
  the mark is never used. -/
  positional : Option (Int × Int)
  /-- A whole number is written with one zero behind its point. -/
  keepsPoint : Bool

namespace NumberLayout

/-- The digits of a decimal around its point. -/
def positionalChars (keepsPoint : Bool) (d : Decimal) : List Char :=
  let digits := d.digitChars
  if 0 ≤ d.exponent then
    digits ++ List.replicate d.exponent.toNat '0' ++ (if keepsPoint then ['.', '0'] else [])
  else
    let places := (-d.exponent).toNat
    if places < digits.length then
      digits.take (digits.length - places) ++ '.' :: digits.drop (digits.length - places)
    else '0' :: '.' :: (List.replicate (places - digits.length) '0' ++ digits)

/-- The digits of a decimal with a point behind the first one, and a signed power of ten. -/
def exponentChars (d : Decimal) : List Char :=
  let mantissa := match d.digitChars with
    | [] => []
    | [c] => [c]
    | c :: cs => c :: '.' :: cs
  let power := d.leading
  mantissa ++ 'e' :: (if power < 0 then '-' else '+') :: Nat.toDigits 10 power.natAbs

def finiteChars (layout : NumberLayout) (x : Binary64) : List Char :=
  let d := x.shortest layout.tie
  let sign := if x.isNegative then ['-'] else []
  match layout.positional with
  | none => sign ++ positionalChars layout.keepsPoint d
  | some (least, greatest) =>
    if least ≤ d.leading ∧ d.leading ≤ greatest then sign ++ positionalChars layout.keepsPoint d
    else sign ++ exponentChars d

/-- Numbers in documents have a point or an exponent mark, and an exponent mark below `10 ^ (-5)`
and from `10 ^ 16` on. -/
def document : NumberLayout := ⟨.even, some (-5, 15), true⟩

/-- Numbers in statements never have an exponent mark, and whole ones no point. -/
def statement : NumberLayout := ⟨.up, none, false⟩

end NumberLayout

namespace Binary64

/-- The text of a number; the words for the numbers that are not finite are fixed. -/
def chars (layout : NumberLayout) (x : Binary64) : List Char :=
  if x.isNaN then ['N', 'a', 'N']
  else if !x.isFinite then (if x.isNegative then ['-', 'i', 'n', 'f'] else ['i', 'n', 'f'])
  else layout.finiteChars x

def text (layout : NumberLayout) (x : Binary64) : String :=
  String.ofList (x.chars layout)

/-- The digits of a decimal text before its exponent mark, with the number of places behind the
point; a point needs a digit on one side at least. -/
def readMantissa? (cs : List Char) : Option (Nat × Nat) :=
  let whole := cs.takeWhile Char.isDigit
  match cs.dropWhile Char.isDigit with
  | [] => if whole.isEmpty then none else some (digitsValue whole, 0)
  | '.' :: places =>
    if places.all Char.isDigit && !(whole.isEmpty && places.isEmpty) then
      some (digitsValue (whole ++ places), places.length)
    else none
  | _ => none

def readUnsigned? (negative : Bool) (cs : List Char) : Option Binary64 :=
  let mantissa := cs.takeWhile fun c => c != 'e' && c != 'E'
  match readMantissa? mantissa, cs.drop mantissa.length with
  | some (digits, places), [] => some (ofDecimal negative digits (-places))
  | some (digits, places), _ :: power =>
    (readInteger? power).map fun e => ofDecimal negative digits (e - places)
  | none, _ => none

/-- Reads a whole text as a decimal number: a sign, digits with a point, an exponent mark, or a
word for a number that is not finite. -/
def read? (cs : List Char) : Option Binary64 :=
  match splitSign cs with
  | (negative, body) =>
    match String.ofList (body.map Char.toLower) with
    | "inf" | "infinity" => some (infinity negative)
    | "nan" => some (withSign negative nan)
    | _ => readUnsigned? negative body

end Binary64

end Tabularium
