namespace Tabularium

/-- The number that a run of decimal digits denotes. -/
def digitsValue (cs : List Char) : Nat :=
  Nat.ofDigitChars 10 cs 0

/-- The sign in front of a number, true for a minus, and what follows it. -/
def splitSign : List Char → Bool × List Char
  | '-' :: cs => (true, cs)
  | '+' :: cs => (false, cs)
  | cs => (false, cs)

/-- The number with a sign put on it. -/
def signed (negative : Bool) (n : Nat) : Int :=
  if negative then -(n : Int) else n

/-- Reads a whole text as an optional sign and at least one digit. -/
def readInteger? (cs : List Char) : Option Int :=
  match splitSign cs with
  | (negative, digits) =>
    if digits.isEmpty || !digits.all Char.isDigit then none
    else some (signed negative (digitsValue digits))

/-- The signed word of 64 bits for a number in its range. -/
def int64? (n : Int) : Option Int64 :=
  if -(Int.pow 2 63) ≤ n ∧ n < Int.pow 2 63 then some (Int64.ofInt n) else none

/-- The unsigned word of 64 bits for a number in its range. -/
def uint64? (n : Int) : Option UInt64 :=
  if 0 ≤ n ∧ n < Int.pow 2 64 then some (UInt64.ofNat n.toNat) else none

/-- The unsigned word of 32 bits for a number in its range. -/
def uint32? (n : Int) : Option UInt32 :=
  if 0 ≤ n ∧ n < Int.pow 2 32 then some (UInt32.ofNat n.toNat) else none

/-- The unsigned word of 16 bits for a number in its range. -/
def uint16? (n : Int) : Option UInt16 :=
  if 0 ≤ n ∧ n < Int.pow 2 16 then some (UInt16.ofNat n.toNat) else none

def byte? (n : Int) : Option UInt8 :=
  if 0 ≤ n ∧ n < Int.pow 2 8 then some (UInt8.ofNat n.toNat) else none

/-- Every signed word is the word of its own value. -/
theorem int64?_toInt (n : Int64) : int64? n.toInt = some n := by
  rw [int64?, if_pos ⟨Int64.le_toInt n, Int64.toInt_lt n⟩, Int64.ofInt_toInt]

end Tabularium
