import Tabularium.Json.Draft
import Tabularium.Json.Printer
import Tabularium.Text.Pieces
import Tabularium.Text.Quoted

namespace Tabularium

inductive SqlValue where
  | null
  | bool (b : Bool)
  | int (n : Int64)
  | float (x : Binary64)
  | text (s : String)
  | blob (bytes : List UInt8)
deriving DecidableEq, Inhabited

namespace SqlValue

def hexByte (b : UInt8) : List Char :=
  [(Json.hexDigit (b.toNat / 16)).toUpper, (Json.hexDigit b.toNat).toUpper]

/-- The literal that denotes the value in a statement. -/
def inline : SqlValue → String
  | null => "NULL"
  | bool b => if b then "1" else "0"
  | int n => Int.repr n.toInt
  | float x => x.text .statement
  | text s => quoteText s
  | blob bytes => String.ofList ('X' :: quoteChars (bytes.flatMap hexByte))

/-- The value that is bound for a document. An integer that has no room in a word is bound as a
number, and lists and records are bound as their text. -/
def ofJson : Json → SqlValue
  | .null => null
  | .bool b => bool b
  | .int n =>
    match int64? n with
    | some w => int w
    | none => float (.ofInt n)
  | .float x => float x
  | .text s => text s
  | j => text j.compact

/-- The document that a row reports for the value. -/
def toJson : SqlValue → Json
  | null => .null
  | bool b => .bool b
  | int n => .int n.toInt
  | float x => Json.ofNumber x
  | text s => .text s
  | blob bytes => .list (bytes.map fun b => .int b.toNat)

/-- The value that an untagged document denotes: a list has to hold bytes. -/
def ofUntagged : Draft → Except Fault SqlValue
  | .null => .ok null
  | .bool b => .ok (bool b)
  | .int n =>
    match int64? n with
    | some w => .ok (int w)
    | none => .ok (float (.ofInt n))
  | .float x => .ok (float x)
  | .text s => .ok (text s)
  | .list deep items closed =>
    match Draft.asList (Draft.asWord byte?) (.list deep items closed) with
    | .ok bytes => .ok (blob bytes)
    | .error _ => .error .unfit
  | d => .error d.mismatch

def read : Draft → Except Fault SqlValue :=
  Draft.settled ofUntagged

def placeholder : String := "?"

/-- As many marks as there are values, with commas between them. -/
def placeholders (count : Nat) : String :=
  separated ", " (List.replicate count placeholder)

end SqlValue

/-- Types whose values can be bound. -/
class Bindable (α : Type) where
  bind : α → SqlValue

instance : Bindable SqlValue := ⟨id⟩

instance : Bindable Bool := ⟨.bool⟩

instance : Bindable Int64 := ⟨.int⟩

instance : Bindable Int32 := ⟨fun n => .int n.toInt64⟩

instance : Bindable UInt32 := ⟨fun n => .int (.ofNat n.toNat)⟩

instance : Bindable Binary64 := ⟨.float⟩

instance : Bindable String := ⟨.text⟩

instance : Bindable (List UInt8) := ⟨.blob⟩

instance {α : Type} [Bindable α] : Bindable (Option α) :=
  ⟨fun
    | some x => Bindable.bind x
    | none => .null⟩

end Tabularium
