import Tabularium.Json.Basic
import Tabularium.Numeric.Integer

namespace Tabularium

/-- A document as its text was read. What only some readers refuse is kept, namely numbers beyond
the largest one, surrogates without a partner and deep nesting; reading stops at the first
character that no reader accepts. -/
inductive Draft where
  | null
  | bool (b : Bool)
  | int (n : Int)
  | float (x : Binary64)
  /-- A number beyond the largest one. -/
  | excessive
  | text (s : String)
  /-- A text with a surrogate that has no partner. -/
  | unpaired
  | list (deep : Bool) (items : List Draft) (closed : Bool)
  /-- A record; a key with a surrogate that has no partner is `none`. -/
  | record (deep : Bool) (entries : List (Option String × Draft)) (closed : Bool)
  /-- The text is not a document from here on. -/
  | broken
deriving Inhabited

/-- Why a text does not denote a value: it is no document, or the document does not fit. -/
inductive Fault where
  | malformed
  | unfit
deriving DecidableEq, Repr

namespace Draft

/-- The fault of a value of another kind than the one asked for. -/
def mismatch : Draft → Fault
  | excessive => .malformed
  | unpaired => .malformed
  | broken => .malformed
  | _ => .unfit

mutual

/-- A value that nobody asked for: it has to be complete, and is not looked into. -/
def isWhole : Draft → Bool
  | .list _ items closed => areWhole items && closed
  | .record _ entries closed => haveWhole entries && closed
  | .broken => false
  | _ => true
termination_by structural d => d

/-- All of the values are complete. -/
def areWhole : List Draft → Bool
  | [] => true
  | d :: ds => isWhole d && areWhole ds
termination_by structural ds => ds

/-- The values of all of the entries are complete. -/
def haveWhole : List (Option String × Draft) → Bool
  | [] => true
  | (_, d) :: entries => isWhole d && haveWhole entries
termination_by structural entries => entries

end

mutual

/-- The document that the value denotes. -/
def settle : Draft → Except Fault Json
  | .null => .ok .null
  | .bool b => .ok (.bool b)
  | .int n => .ok (.int n)
  | .float x => .ok (.float x)
  | .text s => .ok (.text s)
  | .list false items true => (settleItems items).map .list
  | .record false entries true =>
    (settleEntries entries).map fun es => .record (OrderedMap.ofList es).entries
  | _ => .error .malformed
termination_by structural d => d

/-- The documents that the values denote. -/
def settleItems : List Draft → Except Fault (List Json)
  | [] => .ok []
  | d :: ds =>
    match settle d, settleItems ds with
    | .ok j, .ok js => .ok (j :: js)
    | _, _ => .error .malformed
termination_by structural ds => ds

/-- The entries with the documents that their values denote. -/
def settleEntries : List (Option String × Draft) → Except Fault (List (String × Json))
  | [] => .ok []
  | (some key, d) :: entries =>
    match settle d, settleEntries entries with
    | .ok j, .ok js => .ok ((key, j) :: js)
    | _, _ => .error .malformed
  | (none, _) :: _ => .error .malformed
termination_by structural entries => entries

end

/-- Reads a value after checking that it denotes a document. -/
def settled {α : Type} (decode : Draft → Except Fault α) (d : Draft) : Except Fault α :=
  match settle d with
  | .ok _ => decode d
  | .error fault => .error fault

def asBool : Draft → Except Fault Bool
  | .bool b => .ok b
  | d => .error d.mismatch

def asText : Draft → Except Fault String
  | .text s => .ok s
  | d => .error d.mismatch

/-- An integer that a word type has room for. -/
def asWord {α : Type} (word? : Int → Option α) : Draft → Except Fault α
  | .int n =>
    match word? n with
    | some w => .ok w
    | none => .error .unfit
  | d => .error d.mismatch

/-- A number, integers included. -/
def asNumber : Draft → Except Fault Binary64
  | .int n => .ok (.ofInt n)
  | .float x => .ok x
  | d => .error d.mismatch

def asOption {α : Type} (decode : Draft → Except Fault α) : Draft → Except Fault (Option α)
  | .null => .ok none
  | d => (decode d).map some

/-- The values of a list, read in order. -/
def asItems {α : Type} (decode : Draft → Except Fault α) : List Draft → Except Fault (List α)
  | [] => .ok []
  | d :: ds => do
    let x ← decode d
    let xs ← asItems decode ds
    return x :: xs

def asList {α : Type} (decode : Draft → Except Fault α) : Draft → Except Fault (List α)
  | .list deep items closed => do
    if deep then throw .malformed
    let xs ← asItems decode items
    if closed then return xs else throw .malformed
  | d => .error d.mismatch

/-- The values of entries with their keys, read in order. -/
def asEntries {α : Type} (decode : Draft → Except Fault α) :
    List (Option String × Draft) → Except Fault (List (String × α))
  | [] => .ok []
  | (none, _) :: _ => .error .malformed
  | (some key, d) :: entries => do
    let x ← decode d
    let xs ← asEntries decode entries
    return (key, x) :: xs

/-- A map from keys to values; a repeated key keeps its first place and its last value. -/
def asMap {α : Type} (decode : Draft → Except Fault α) : Draft → Except Fault (OrderedMap α)
  | .record deep entries closed => do
    if deep then throw .malformed
    let xs ← asEntries decode entries
    if closed then return OrderedMap.ofList xs else throw .malformed
  | d => .error d.mismatch

/-- The name of a variant with what it carries: a bare name, or a record of one entry. -/
def asVariant : Draft → Except Fault (String × Option Draft)
  | .text s => .ok (s, none)
  | .record false [(some name, value)] true => .ok (name, some value)
  | d => .error d.mismatch

/-- A variant carries nothing. -/
def isUnit : Option Draft → Bool
  | none => true
  | some .null => true
  | some _ => false

/-- One of several values, given by the word for it. -/
def asName {α : Type} (values : List α) (word : α → String) (d : Draft) : Except Fault α := do
  let (name, carried) ← asVariant d
  match values.find? fun x => word x == name with
  | some x => if isUnit carried then return x else throw .unfit
  | none => throw .unfit

end Draft

/-- What the absence of a field means: it is refused, it is refused only in a list, or the value
from the start is kept. -/
inductive Presence where
  | required
  | nullable
  | defaulted
deriving DecidableEq

/-- A field of a record and what reading it does to the value that is put together. -/
structure Field (α : Type) where
  name : String
  presence : Presence
  read : Draft → α → Except Fault α

namespace Field

variable {α β : Type}

def storing (presence : Presence) (name : String) (decode : Draft → Except Fault β)
    (set : α → β → α) : Field α :=
  ⟨name, presence, fun d x => (decode d).map (set x)⟩

def required (name : String) (decode : Draft → Except Fault β) (set : α → β → α) : Field α :=
  storing .required name decode set

/-- A field that may be left out and may not be `null`. -/
def defaulted (name : String) (decode : Draft → Except Fault β) (set : α → β → α) : Field α :=
  storing .defaulted name decode set

/-- A field that may be left out or `null`. -/
def optional (name : String) (decode : Draft → Except Fault β) (set : α → Option β → α) : Field α :=
  storing .defaulted name (Draft.asOption decode) set

/-- A field that may be left out of a record or be `null`. -/
def nullable (name : String) (decode : Draft → Except Fault β) (set : α → Option β → α) : Field α :=
  storing .nullable name (Draft.asOption decode) set

end Field

namespace Draft

variable {α β : Type}

/-- Reads entries into a value, and gives it with the names of the fields seen. A field given
twice is refused, and a name of no field is passed over. -/
def readEntries (fields : List (Field α)) (seen : List String) (x : α) :
    List (Option String × Draft) → Except Fault (List String × α)
  | [] => .ok (seen, x)
  | (none, _) :: _ => .error .malformed
  | (some key, d) :: entries =>
    match fields.find? fun field => field.name == key with
    | none => if d.isWhole then readEntries fields seen x entries else .error .malformed
    | some field =>
      if seen.contains key then .error .unfit
      else
        match field.read d x with
        | .ok y => readEntries fields (key :: seen) y entries
        | .error fault => .error fault

/-- Reads the fields from values in their order. -/
def readPositions (closed : Bool) (x : α) : List (Field α) → List Draft → Except Fault α
  | [], [] => if closed then .ok x else .error .malformed
  | [], _ :: _ => .error .malformed
  | field :: fields, [] =>
    if !closed then .error .malformed
    else if field.presence = .defaulted then readPositions closed x fields []
    else .error .unfit
  | field :: fields, d :: ds => do
    let y ← field.read d x
    readPositions closed y fields ds

/-- A value put together from its fields, which stand in a record by name or in a list by
position. -/
def asRecord (fields : List (Field α)) (blank : α) : Draft → Except Fault α
  | .record deep entries closed => do
    if deep then throw .malformed
    let (seen, x) ← readEntries fields [] blank entries
    if !closed then throw .malformed
    if fields.any fun field => field.presence == .required && !seen.contains field.name then
      throw .unfit
    return x
  | .list deep items closed =>
    if deep then .error .malformed else readPositions closed blank fields items
  | d => .error d.mismatch

/-- Splits entries into those of named fields, which are read, and the others. -/
def readOwnEntries (fields : List (Field β)) (seen : List String) (x : β) :
    List (Option String × Draft) → Except Fault (β × List (Option String × Draft))
  | [] => .ok (x, [])
  | (none, _) :: _ => .error .malformed
  | (some key, d) :: entries =>
    match fields.find? fun field => field.name == key with
    | none =>
      match settle d, readOwnEntries fields seen x entries with
      | .ok _, .ok (y, others) => .ok (y, (some key, d) :: others)
      | .error fault, _ => .error fault
      | _, .error fault => .error fault
    | some field =>
      if seen.contains key then .error .unfit
      else
        match field.read d x with
        | .ok y => readOwnEntries fields (key :: seen) y entries
        | .error fault => .error fault

/-- A record that holds the fields of two values side by side. -/
def asJoined (fields : List (Field β)) (blank : β) (decode : Draft → Except Fault α) :
    Draft → Except Fault (α × β)
  | .record deep entries closed => do
    if deep then throw .malformed
    let (y, others) ← readOwnEntries fields [] blank entries
    if !closed then throw .malformed
    let x ← decode (.record false others true)
    return (x, y)
  | d => .error d.mismatch

end Draft

namespace Json

mutual

/-- The document as if it had just been read. -/
def toDraft : Json → Draft
  | .null => .null
  | .bool b => .bool b
  | .int n => .int n
  | .float x => .float x
  | .text s => .text s
  | .list items => .list false (toDrafts items) true
  | .record entries => .record false (toDraftEntries entries) true
termination_by structural j => j

/-- The documents as if they had just been read. -/
def toDrafts : List Json → List Draft
  | [] => []
  | j :: js => toDraft j :: toDrafts js
termination_by structural js => js

/-- The entries as if they had just been read. -/
def toDraftEntries : List (String × Json) → List (Option String × Draft)
  | [] => []
  | (key, j) :: entries => (some key, toDraft j) :: toDraftEntries entries
termination_by structural entries => entries

end

/-- Reads a value from a document. -/
def decode {α : Type} (read : Draft → Except Fault α) (j : Json) : Except Fault α :=
  read j.toDraft

end Json

end Tabularium
