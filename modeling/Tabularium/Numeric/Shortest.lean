import Tabularium.Numeric.Binary64

namespace Tabularium

/-- Which of two equally near decimals is taken. -/
inductive Tie where
  | even
  | up
deriving DecidableEq, Repr

/-- A whole number of units of a power of ten. -/
structure Decimal where
  digits : Nat
  exponent : Int
deriving DecidableEq, Repr

namespace Decimal

/-- The same value without trailing zeros, of which at most `fuel` are dropped. -/
def dropZeros : Nat → Decimal → Decimal
  | 0, d => d
  | fuel + 1, d =>
    if d.digits ≠ 0 ∧ d.digits % 10 = 0 then dropZeros fuel ⟨d.digits / 10, d.exponent + 1⟩ else d

def digitChars (d : Decimal) : List Char :=
  Nat.toDigits 10 d.digits

/-- The power of ten of the first digit. -/
def leading (d : Decimal) : Int :=
  d.exponent + (d.digitChars.length - 1)

end Decimal

namespace Binary64

/-- A quotient that lies within a quarter step is compared in these units. -/
structure Rounding where
  /-- The least value, the value itself and the greatest value that round to the number. -/
  low : Nat
  value : Nat
  high : Nat
  /-- The common denominator of the three. -/
  den : Nat
  /-- The least and the greatest value round to the number as well. -/
  inclusive : Bool

/-- The interval of values that round to a finite number that is not zero. Below a power of two the
numbers lie twice as close. -/
def rounding (x : Binary64) : Rounding :=
  let unit := Nat.pow 2 x.scale
  let m := x.significand
  let below := if x.fraction = 0 ∧ 1 < x.exponentField then 1 else 2
  ⟨(4 * m - below) * unit, 4 * m * unit, (4 * m + 2) * unit, Nat.pow 2 1076, m % 2 == 0⟩

/-- The quotient `n * 10 ^ e / den` written with natural numbers only. -/
def scaledBy (n den : Nat) (e : Int) : Nat × Nat :=
  if 0 ≤ e then (n * Nat.pow 10 e.toNat, den) else (n, den * Nat.pow 10 (-e).toNat)

/-- The power of ten of the first digit of a positive quotient above `10 ^ (-400)`. -/
def leadingPower (num den : Nat) : Int :=
  (Nat.toDigits 10 (num * Nat.pow 10 400 / den)).length - 401

/-- The decimal of a grid nearest to the value among the two around it, when one of them rounds
to the number. -/
def nearestOnGrid (r : Rounding) (tie : Tie) (exponent : Int) : Option Decimal :=
  let (value, den) := scaledBy r.value r.den (-exponent)
  let (low, _) := scaledBy r.low r.den (-exponent)
  let (high, _) := scaledBy r.high r.den (-exponent)
  let k := value / den
  let hits := fun j => if r.inclusive then low ≤ j * den && j * den ≤ high
    else low < j * den && j * den < high
  let down := value - k * den
  let up := (k + 1) * den - value
  if hits k && hits (k + 1) then
    let takeLower := down < up || down == up && tie == .even && k % 2 == 0
    some ⟨if takeLower then k else k + 1, exponent⟩
  else if hits k then some ⟨k, exponent⟩
  else if hits (k + 1) then some ⟨k + 1, exponent⟩
  else none

/-- The first grid at `exponent` or finer by up to `fuel` places that has a decimal for the
number. -/
def firstGrid (r : Rounding) (tie : Tie) (exponent : Int) : Nat → Decimal
  | 0 => ⟨r.value / r.den, 0⟩
  | fuel + 1 =>
    match nearestOnGrid r tie exponent with
    | some d => d.dropZeros 17
    | none => firstGrid r tie (exponent - 1) fuel

/-- The decimal with the fewest digits that reads back as a finite number; of those the nearest. -/
def shortest (tie : Tie) (x : Binary64) : Decimal :=
  if x.isZero then ⟨0, 0⟩
  else
    let r := x.rounding
    firstGrid r tie (leadingPower r.value r.den) 18

end Binary64

end Tabularium
