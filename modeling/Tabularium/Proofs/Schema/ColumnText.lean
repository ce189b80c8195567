import Mathlib.Data.List.Forall2
import Mathlib.Data.List.Nodup
import Tabularium.Proofs.Schema.ClauseText
import Tabularium.Schema.Column.Text

namespace Tabularium

namespace Clause

/-- The kinds of clauses. A column has at most one clause of a kind to its text. -/
inductive Kind where
  | primaryKey
  | nullability
  | unique
  | enumValues
  | default
  | references
deriving DecidableEq

def kind : Clause → Kind
  | primaryKey => .primaryKey
  | notNull => .nullability
  | nullable => .nullability
  | unique => .unique
  | enumValues _ => .enumValues
  | default _ => .default
  | references _ => .references

@[simp]
def enumValues? : Clause → Option (List String)
  | enumValues values => some values
  | _ => none

@[simp]
def default? : Clause → Option DefaultValue
  | default value => some value
  | _ => none

@[simp]
def references? : Clause → Option Reference
  | references target => some target
  | _ => none

end Clause

/-- The column that clauses describe, at most one of each kind. -/
def Column.declared (name : String) (type : ColumnType) (mode : Option ColumnMode)
    (clauses : List Clause) : Column where
  name := name
  type := type
  mode := mode
  notNull := clauses.contains .notNull
  unique := clauses.contains .unique
  primaryKey := clauses.contains .primaryKey
  enumValues := clauses.findSome? Clause.enumValues?
  default := clauses.findSome? Clause.default?
  references := clauses.findSome? Clause.references?

namespace Column

variable {name keyword : String} {type : ColumnType} {mode : Option ColumnMode}
  {clauses front order : List Clause} {column : Column}

theorem lookup_typeWords (h : (keyword, type, mode) ∈ typeWords) :
    isIdentifier keyword = true ∧ typeWords.lookup keyword = some (type, mode) := by
  simp only [typeWords, List.mem_cons, List.not_mem_nil, or_false, Prod.mk.injEq] at h
  rcases h with ⟨rfl, rfl, rfl⟩ | ⟨rfl, rfl, rfl⟩ | ⟨rfl, rfl, rfl⟩ | ⟨rfl, rfl, rfl⟩
    | ⟨rfl, rfl, rfl⟩ | ⟨rfl, rfl, rfl⟩ | ⟨rfl, rfl, rfl⟩ <;> decide

end Column

end Tabularium
