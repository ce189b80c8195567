import Tabularium.Numeric.Layout
import Tabularium.Schema.Basic
import Tabularium.Schema.Column.Token
import Tabularium.Text.Ascii
import Tabularium.Text.Pieces

namespace Tabularium

/-- One clause behind the type of a column. -/
inductive Clause where
  | primaryKey
  | notNull
  | nullable
  | unique
  | enumValues (values : List String)
  | default (value : DefaultValue)
  | references (target : Reference)
deriving DecidableEq

namespace Clause

/-- The column after a clause. A clause overrides an earlier one of its kind. -/
def apply (column : Column) : Clause → Column
  | primaryKey => { column with primaryKey := true }
  | notNull => { column with notNull := true }
  | nullable => { column with notNull := false }
  | unique => { column with unique := true }
  | enumValues values => { column with enumValues := some values }
  | default value => { column with default := some value }
  | references target => { column with references := some target }

/-- A word in lower case with the tokens behind it. -/
def readWord (keyword expected : String) :
    List Token → Except ColumnFault (String × List Token)
  | .word w :: rest => .ok (asciiLower w, rest)
  | token :: _ => .error (.unexpected token.describe)
  | [] => .error (.missing keyword expected)

theorem readWord_length {keyword expected word : String} {tokens rest : List Token}
    (h : readWord keyword expected tokens = .ok (word, rest)) : rest.length < tokens.length := by
  fun_cases readWord keyword expected tokens <;> simp_all [readWord]

/-- The tokens behind a word that has to follow. -/
def readKeyword (keyword wanted : String) (tokens : List Token) :
    Except ColumnFault (List Token) :=
  match readWord keyword wanted tokens with
  | .ok (word, rest) => if word = wanted then .ok rest else .error (.unexpected word)
  | .error fault => .error fault

theorem readKeyword_length {keyword wanted : String} {tokens rest : List Token}
    (h : readKeyword keyword wanted tokens = .ok rest) : rest.length < tokens.length := by
  grind [readKeyword, → readWord_length]

/-- A number as a literal: an integer when a word has room for it, else a finite number. -/
def readNumber? (word : String) : Option Literal :=
  match (readInteger? word.toList).bind int64? with
  | some n => some (.int n)
  | none => ((Binary64.read? word.toList).filter (·.isFinite)).map .float

def readDefault : List Token → Except ColumnFault (DefaultValue × List Token)
  | .group sql :: rest => .ok (.raw sql, rest)
  | .text s :: rest => .ok (.value (.text s), rest)
  | .word w :: rest =>
    match asciiLower w with
    | "now" => .ok (.value .now, rest)
    | "null" => .ok (.value .null, rest)
    | "true" => .ok (.value (.bool true), rest)
    | "false" => .ok (.value (.bool false), rest)
    | _ =>
      match readNumber? w with
      | some literal => .ok (.value literal, rest)
      | none => .error (.unexpected w)
  | .arrow :: _ => .error (.unexpected "->")
  | [] => .error (.missing "default" "a value")

theorem readDefault_length {tokens rest : List Token} {value : DefaultValue}
    (h : readDefault tokens = .ok (value, rest)) : rest.length < tokens.length := by
  fun_cases readDefault tokens <;> simp_all [readDefault]

/-- An action on deletion with the tokens behind it. -/
def readAction (tokens : List Token) : Except ColumnFault (DeleteAction × List Token) := do
  let (word, rest) ← readWord "on delete" "an action" tokens
  match word with
  | "cascade" => return (.cascade, rest)
  | "restrict" => return (.restrict, rest)
  | "set" =>
    let (value, rest) ← readWord "set" "null or default" rest
    match value with
    | "null" => return (.setNull, rest)
    | "default" => return (.setDefault, rest)
    | other => throw (.unexpected other)
  | "no" => return (.noAction, ← readKeyword "no" "action" rest)
  | other => throw (.unexpected other)

theorem readAction_length {tokens rest : List Token} {action : DeleteAction}
    (h : readAction tokens = .ok (action, rest)) : rest.length < tokens.length := by
  simp only [readAction, bind, Except.bind, pure, Except.pure, throw, throwThe,
    MonadExceptOf.throw] at h
  grind [→ readWord_length, → readKeyword_length]

/-- An action on deletion if one follows, with the tokens behind it. -/
def readOnDelete (tokens : List Token) : Except ColumnFault (Option DeleteAction × List Token) :=
  match tokens with
  | .word w :: rest =>
    match asciiLower w with
    | "on" => do
      let rest ← readKeyword "on" "delete" rest
      let (action, rest) ← readAction rest
      return (some action, rest)
    | "ondelete" => do
      let (action, rest) ← readAction rest
      return (some action, rest)
    | "cascade" | "restrict" | "set" | "no" => do
      let (action, rest) ← readAction tokens
      return (some action, rest)
    | _ => .ok (none, tokens)
  | _ => .ok (none, tokens)

theorem readOnDelete_length {tokens rest : List Token} {action : Option DeleteAction}
    (h : readOnDelete tokens = .ok (action, rest)) : rest.length ≤ tokens.length := by
  simp only [readOnDelete, bind, Except.bind, pure, Except.pure] at h
  grind [→ readAction_length, → readKeyword_length]

/-- The table and the column that a word with a point names. -/
def splitTarget? (target : String) : Option (String × String) :=
  match splitOnce? '.' target.toList with
  | some (table, column) =>
    if table.isEmpty || column.isEmpty then none
    else some (String.ofList table, String.ofList column)
  | none => none

/-- A reference behind its arrow with the tokens behind it. -/
def readReference : List Token → Except ColumnFault (Reference × List Token)
  | .word target :: rest =>
    match splitTarget? target with
    | some (table, column) => do
      let (onDelete, rest) ← readOnDelete rest
      return (⟨table, column, onDelete⟩, rest)
    | none => .error (.unexpected target)
  | token :: _ => .error (.unexpected token.describe)
  | [] => .error (.missing "->" "table.column")

theorem readReference_length {tokens rest : List Token} {target : Reference}
    (h : readReference tokens = .ok (target, rest)) : rest.length < tokens.length := by
  simp only [readReference, bind, Except.bind, pure, Except.pure] at h
  grind [→ readOnDelete_length]

/-- The values of a group, cut at commas outside quotes; quotes are dropped, and a doubled quote
inside a quoted part stands for one. -/
def valuePieces : Bool → List Char → List (List Char)
  | _, [] => [[]]
  | isQuoted, c :: cs =>
    if c = quoteMark then
      match cs with
      | d :: ds =>
        if isQuoted ∧ d = quoteMark then keepChar quoteMark (valuePieces true ds)
        else valuePieces (!isQuoted) (d :: ds)
      | [] => [[]]
    else if c = ',' ∧ !isQuoted then [] :: valuePieces false cs
    else keepChar c (valuePieces isQuoted cs)

/-- The pieces without an empty one at the end. -/
def dropEmptyLast (pieces : List (List Char)) : List (List Char) :=
  if pieces.getLast? = some [] then pieces.dropLast else pieces

/-- The values that a group lists, without blanks at their ends. -/
def splitValues (group : String) : List String :=
  (dropEmptyLast ((valuePieces false group.toList).map trim)).map String.ofList

/-- A clause whose first token is a word, with the tokens behind it. -/
def readWorded (word : String) (rest : List Token) : Except ColumnFault (Clause × List Token) :=
  match asciiLower word with
  | "primary" => (readKeyword "primary" "key" rest).map (primaryKey, ·)
  | "not" => (readKeyword "not" "null" rest).map (notNull, ·)
  | "null" => .ok (nullable, rest)
  | "unique" => .ok (unique, rest)
  | "enum" =>
    match rest with
    | .group values :: rest => .ok (enumValues (splitValues values), rest)
    | token :: _ => .error (.unexpected token.describe)
    | [] => .error (.missing "enum" "(v1,v2,...)")
  | "default" => (readDefault rest).map fun (value, rest) => (default value, rest)
  | _ => .error (.unexpected word)

def read (token : Token) (rest : List Token) : Except ColumnFault (Clause × List Token) :=
  match token with
  | .arrow => (readReference rest).map fun (target, rest) => (references target, rest)
  | .word word => readWorded word rest
  | other => .error (.unexpected other.describe)

theorem read_length {token : Token} {tokens rest : List Token} {clause : Clause}
    (h : read token tokens = .ok (clause, rest)) : rest.length ≤ tokens.length := by
  simp only [read, readWorded, Except.map] at h
  grind [→ readReference_length, → readKeyword_length, → readDefault_length]

end Clause

end Tabularium
