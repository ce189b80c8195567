import Tabularium.Json.Draft
import Tabularium.Text.Hexadecimal

namespace Tabularium

namespace Draft

/-- The text without the blanks that may stand between the parts of a document. -/
def skipBlanks (cs : List Char) : List Char :=
  cs.dropWhile fun c => c == ' ' || c == '\t' || c == '\n' || c == '\r'

/-- The unit that four hexadecimal digits denote. -/
def hexUnit? (a b c d : Char) : Option Nat :=
  match hexValue? a, hexValue? b, hexValue? c, hexValue? d with
  | some a, some b, some c, some d => some (((a * 16 + b) * 16 + c) * 16 + d)
  | _, _, _, _ => none

/-- The character that a one-letter escape denotes. -/
def escaped? : Char → Option Char
  | '\x22' => some '\x22'
  | '\\' => some '\\'
  | '/' => some '/'
  | 'b' => some '\x08'
  | 'f' => some '\x0c'
  | 'n' => some '\n'
  | 'r' => some '\r'
  | 't' => some '\t'
  | _ => none

/-- The code units of a quoted text behind its opening quote, with what follows the closing one.
An escape gives a unit of 16 bits, any other character its code point. -/
def readUnits : List Char → Option (List Nat × List Char)
  | [] => none
  | c :: rest =>
    if c = '\x22' then some ([], rest)
    else if c = '\\' then
      match rest with
      | 'u' :: h₁ :: h₂ :: h₃ :: h₄ :: rest =>
        match hexUnit? h₁ h₂ h₃ h₄, readUnits rest with
        | some unit, some (units, rest) => some (unit :: units, rest)
        | _, _ => none
      | e :: rest =>
        match escaped? e, readUnits rest with
        | some d, some (units, rest) => some (d.toNat :: units, rest)
        | _, _ => none
      | [] => none
    else if c.toNat < 0x20 then none
    else (readUnits rest).map fun (units, rest) => (c.toNat :: units, rest)

/-- The characters that code units denote; `none` when a surrogate has no partner. -/
def joinUnits : List Nat → Option (List Char)
  | [] => some []
  | [unit] => if 0xD800 ≤ unit ∧ unit < 0xE000 then none else some [Char.ofNat unit]
  | unit :: next :: rest =>
    if 0xD800 ≤ unit ∧ unit < 0xDC00 then
      if 0xDC00 ≤ next ∧ next < 0xE000 then
        (joinUnits rest).map (Char.ofNat (0x10000 + (unit - 0xD800) * 0x400 + (next - 0xDC00)) :: ·)
      else none
    else if 0xDC00 ≤ unit ∧ unit < 0xE000 then none
    else (joinUnits (next :: rest)).map (Char.ofNat unit :: ·)

/-- The longest start of a run of digits that fits a word of 64 bits when it extends a
significand, as a number, with how many digits are left over. -/
def gather (significand : Nat) : List Char → Nat × Nat
  | [] => (significand, 0)
  | c :: cs =>
    let longer := 10 * significand + (c.toNat - 48)
    if longer < Nat.pow 2 64 then gather longer cs else (significand, cs.length + 1)

def powerOfTen (n : Nat) : Binary64 :=
  .ofRatio false (Nat.pow 10 n) 1

/-- Divides by a power of ten in steps that stay finite, at most `fuel` many. -/
def shrink (x : Binary64) (n : Nat) : Nat → Binary64
  | 0 => .zero
  | fuel + 1 =>
    if n ≤ 308 then x.divAbs (powerOfTen n)
    else if x.isZero then x
    else shrink (x.divAbs (powerOfTen 308)) (n - 308) fuel

/-- A significand times a power of ten: one rounding for the significand, and one for each scaling
step. `none` beyond the largest number. -/
def scaleNumber? (significand : Nat) (exponent : Int) : Option Binary64 :=
  let x := Binary64.ofInt significand
  if exponent < 0 then some (shrink x (-exponent).toNat 3)
  else if 308 < exponent then (if x.isZero then some x else none)
  else
    let y := x.mulAbs (powerOfTen exponent.toNat)
    if y.isFinite then some y else none

/-- The number with a sign, or the mark of one beyond the largest. -/
def signedNumber (negative : Bool) : Option Binary64 → Draft
  | some x => .float (x.withSign negative)
  | none => .excessive

/-- The value of a number from its digits: before the point, behind it, and in the exponent. -/
def numberValue (negative : Bool) (whole : List Char) (places : Option (List Char))
    (power : Option (Bool × List Char)) : Draft :=
  let (kept, surplus) := gather 0 whole
  match places, power with
  | none, none =>
    if surplus ≠ 0 then signedNumber negative (scaleNumber? kept surplus)
    else if !negative then .int kept
    else if kept = 0 ∨ Nat.pow 2 63 < kept then signedNumber true (scaleNumber? kept 0)
    else .int (-kept)
  | _, _ =>
    let digits := places.getD []
    let (significand, left) := gather kept digits
    let exponent : Int := surplus - (digits.length - left)
    match power with
    | none => signedNumber negative (scaleNumber? significand exponent)
    | some (shrinks, powerDigits) =>
      let n := digitsValue powerDigits
      if Nat.pow 2 31 ≤ n then
        if significand ≠ 0 ∧ !shrinks then .excessive else signedNumber negative (some .zero)
      else signedNumber negative (scaleNumber? significand (exponent + signed shrinks n))

/-- The digits behind a point, if there is one; a point without digits is refused. -/
def readPlaces : List Char → Option (Option (List Char) × List Char)
  | '.' :: rest =>
    let digits := rest.takeWhile Char.isDigit
    if digits.isEmpty then none else some (some digits, rest.dropWhile Char.isDigit)
  | rest => some (none, rest)

/-- The sign and the digits of an exponent, if there is one. -/
def readPower (cs : List Char) : Option (Option (Bool × List Char) × List Char) :=
  match cs with
  | c :: rest =>
    if c = 'e' ∨ c = 'E' then
      match splitSign rest with
      | (shrinks, rest) =>
        let digits := rest.takeWhile Char.isDigit
        if digits.isEmpty then none
        else some (some (shrinks, digits), rest.dropWhile Char.isDigit)
    else some (none, cs)
  | [] => some (none, cs)

/-- A number without its sign: no zero in front of another digit. -/
def readUnsigned (negative : Bool) (cs : List Char) : Option (Draft × List Char) :=
  let whole := cs.takeWhile Char.isDigit
  if whole.isEmpty || (whole.head? == some '0' && 1 < whole.length) then none
  else do
    let (places, rest) ← readPlaces (cs.dropWhile Char.isDigit)
    let (power, rest) ← readPower rest
    return (numberValue negative whole places power, rest)

def readNumber : List Char → Option (Draft × List Char)
  | '-' :: rest => readUnsigned true rest
  | cs => readUnsigned false cs

/-- Containers nested this deep are not entered. -/
def depthLimit : Nat := 128

/-- A value that starts here; what follows it is `none` when reading has stopped. -/
abbrev Reading (α : Type) := α × Option (List Char)

/-- A quoted text behind its opening quote. -/
def readText (cs : List Char) : Option (Option String × List Char) :=
  (readUnits cs).map fun (units, rest) => ((joinUnits units).map String.ofList, rest)

mutual

/-- Reads a value at a level of nesting. -/
def readValue : Nat → Nat → List Char → Reading Draft
  | 0, _, _ => (.broken, none)
  | fuel + 1, level, cs =>
    match skipBlanks cs with
    | '\x22' :: rest =>
      match readText rest with
      | some (some s, rest) => (.text s, some rest)
      | some (none, rest) => (.unpaired, some rest)
      | none => (.broken, none)
    | '[' :: rest =>
      let deep := depthLimit ≤ level
      match skipBlanks rest with
      | ']' :: rest => (.list deep [] true, some rest)
      | rest =>
        let (items, after) := readItems fuel (level + 1) rest
        (.list deep items after.isSome, after)
    | '\x7b' :: rest =>
      let deep := depthLimit ≤ level
      match skipBlanks rest with
      | '\x7d' :: rest => (.record deep [] true, some rest)
      | rest =>
        let (entries, after) := readMembers fuel (level + 1) rest
        (.record deep entries after.isSome, after)
    | 'n' :: 'u' :: 'l' :: 'l' :: rest => (.null, some rest)
    | 't' :: 'r' :: 'u' :: 'e' :: rest => (.bool true, some rest)
    | 'f' :: 'a' :: 'l' :: 's' :: 'e' :: rest => (.bool false, some rest)
    | rest =>
      match readNumber rest with
      | some (d, rest) => (d, some rest)
      | none => (.broken, none)

def readItems : Nat → Nat → List Char → Reading (List Draft)
  | 0, _, _ => ([], none)
  | fuel + 1, level, cs =>
    match readValue fuel level cs with
    | (d, none) => ([d], none)
    | (d, some rest) =>
      match skipBlanks rest with
      | ',' :: rest =>
        let (ds, after) := readItems fuel level rest
        (d :: ds, after)
      | ']' :: rest => ([d], some rest)
      | _ => ([d], none)

def readMembers : Nat → Nat → List Char → Reading (List (Option String × Draft))
  | 0, _, _ => ([], none)
  | fuel + 1, level, cs =>
    match skipBlanks cs with
    | '\x22' :: rest =>
      match readText rest with
      | none => ([], none)
      | some (key, rest) =>
        match skipBlanks rest with
        | ':' :: rest =>
          match readValue fuel level rest with
          | (d, none) => ([(key, d)], none)
          | (d, some rest) =>
            match skipBlanks rest with
            | ',' :: rest =>
              let (entries, after) := readMembers fuel level rest
              ((key, d) :: entries, after)
            | '\x7d' :: rest => ([(key, d)], some rest)
            | _ => ([(key, d)], none)
        | _ => ([(key, .broken)], none)
    | _ => ([], none)

end

/-- Reads a text as one value, and tells whether nothing but blanks follows it. -/
def ofText (s : String) : Draft × Bool :=
  match readValue (2 * s.length + 2) 1 s.toList with
  | (d, some rest) => (d, (skipBlanks rest).isEmpty)
  | (d, none) => (d, false)

def decode {α : Type} (read : Draft → Except Fault α) (s : String) : Except Fault α :=
  match ofText s with
  | (d, clean) =>
    match read d with
    | .ok x => if clean then .ok x else .error .malformed
    | .error fault => .error fault

end Draft

namespace Json

/-- The document that a text denotes. -/
def ofText (s : String) : Except Fault Json :=
  Draft.decode Draft.settle s

end Json

end Tabularium
