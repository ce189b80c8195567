namespace Tabularium

/-- A double precision number, held as its word. -/
structure Binary64 where
  bits : UInt64
deriving DecidableEq, Inhabited, Repr

namespace Binary64

/-- The word with a sign and a magnitude given as the lower 63 bits. -/
def ofMagnitude (negative : Bool) (magnitude : Nat) : Binary64 :=
  ⟨UInt64.ofNat ((if negative then Nat.pow 2 63 else 0) + magnitude)⟩

/-- The lower 63 bits. -/
def magnitude (x : Binary64) : Nat :=
  x.bits.toNat % Nat.pow 2 63

/-- The sign bit is set. -/
def isNegative (x : Binary64) : Bool :=
  Nat.pow 2 63 ≤ x.bits.toNat

def exponentField (x : Binary64) : Nat :=
  x.magnitude / Nat.pow 2 52

/-- The bits behind the binary point. -/
def fraction (x : Binary64) : Nat :=
  x.magnitude % Nat.pow 2 52

def isFinite (x : Binary64) : Bool :=
  x.exponentField != 2047

def isNaN (x : Binary64) : Bool :=
  x.exponentField == 2047 && x.fraction != 0

/-- The number is a zero of either sign. -/
def isZero (x : Binary64) : Bool :=
  x.magnitude == 0

theorem isNaN_of_isFinite {x : Binary64} (h : x.isFinite = true) : x.isNaN = false := by
  unfold isFinite at h
  unfold isNaN
  rw [bne_iff_ne] at h
  rw [beq_eq_false_iff_ne.mpr h, Bool.false_and]

theorem isFinite_of_isZero {x : Binary64} (h : x.isZero = true) : x.isFinite = true := by
  have hm : x.magnitude = 0 := eq_of_beq h
  simp [isFinite, exponentField, hm]

def zero : Binary64 := ⟨0⟩

def infinity (negative : Bool) : Binary64 :=
  ofMagnitude negative (2047 * Nat.pow 2 52)

def nan : Binary64 :=
  ofMagnitude false (2047 * Nat.pow 2 52 + Nat.pow 2 51)

/-- Numeric equality: the zeros are equal, and an undefined number equals nothing. -/
def same (x y : Binary64) : Bool :=
  !x.isNaN && !y.isNaN && (x.bits == y.bits || x.isZero && y.isZero)

def withSign (negative : Bool) (x : Binary64) : Binary64 :=
  ofMagnitude negative x.magnitude

/-- The whole significand of a finite number. -/
def significand (x : Binary64) : Nat :=
  if x.exponentField = 0 then x.fraction else Nat.pow 2 52 + x.fraction

/-- The power of two that scales the significand, counted from the least one, which is -1074. -/
def scale (x : Binary64) : Nat :=
  x.exponentField - 1

/-- The absolute value of a finite number as a quotient. -/
def toRatio (x : Binary64) : Nat × Nat :=
  (x.significand * Nat.pow 2 x.scale, Nat.pow 2 1074)

/-- The quotient rounded to the nearest whole number, a half to the even one. -/
def roundHalfEven (num den : Nat) : Nat :=
  let q := num / den
  let r := num % den
  if 2 * r < den then q else if den < 2 * r then q + 1 else q + q % 2

/-- The number nearest to a quotient, a half to the even significand; beyond the largest finite
number it is infinity. -/
def ofRatio (negative : Bool) (num den : Nat) : Binary64 :=
  if num = 0 then ofMagnitude negative 0
  else
    let scaled := num * Nat.pow 2 1074
    let step := (scaled.log2 - den.log2) - 53
    let step := if scaled / (den * Nat.pow 2 step) < Nat.pow 2 53 then step else step + 1
    let word := step * Nat.pow 2 52 + roundHalfEven scaled (den * Nat.pow 2 step)
    if word < 2047 * Nat.pow 2 52 then ofMagnitude negative word else infinity negative

/-- The number nearest to an integer. -/
def ofInt (n : Int) : Binary64 :=
  ofRatio (n < 0) n.natAbs 1

/-- The number nearest to a decimal significand times a power of ten. -/
def ofDecimal (negative : Bool) (digits : Nat) (exponent : Int) : Binary64 :=
  let length := (Nat.toDigits 10 digits).length
  if digits = 0 then ofMagnitude negative 0
  else if 310 < length + exponent then infinity negative
  else if length + exponent < -330 then ofMagnitude negative 0
  else if 0 ≤ exponent then ofRatio negative (digits * Nat.pow 10 exponent.toNat) 1
  else ofRatio negative digits (Nat.pow 10 (-exponent).toNat)

/-- The rounded product of two finite absolute values. -/
def mulAbs (x y : Binary64) : Binary64 :=
  ofRatio false (x.toRatio.1 * y.toRatio.1) (x.toRatio.2 * y.toRatio.2)

/-- The rounded quotient of two finite absolute values. -/
def divAbs (x y : Binary64) : Binary64 :=
  ofRatio false (x.toRatio.1 * y.toRatio.2) (x.toRatio.2 * y.toRatio.1)

end Binary64

end Tabularium
