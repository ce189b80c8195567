import Tabularium.Proofs.Schema.ColumnText
import Tabularium.Proofs.Schema.TokenPositions

namespace Tabularium

namespace Clause

@[simp]
def notNull? : Clause → Option Bool
  | notNull => some true
  | nullable => some false
  | _ => none

/-- What the last clause that sets a part of the column sets it to. -/
def last? {α : Type} (part : Clause → Option α) (clauses : List Clause) : Option α :=
  (clauses.filterMap part).getLast?

theorem last?_concat {α : Type} (part : Clause → Option α) (clauses : List Clause)
    (clause : Clause) :
    last? part (clauses ++ [clause]) = (part clause).or (last? part clauses) := by
  cases h : part clause <;> simp [last?, h]

end Clause

namespace Column

/-- The column that clauses settle, any number of each kind: a part of it is as the last clause that
sets it has it, and unset when none does. -/
def settled (name : String) (type : ColumnType) (mode : Option ColumnMode)
    (clauses : List Clause) : Column where
  name := name
  type := type
  mode := mode
  notNull := (Clause.last? Clause.notNull? clauses).getD false
  unique := clauses.contains .unique
  primaryKey := clauses.contains .primaryKey
  enumValues := Clause.last? Clause.enumValues? clauses
  default := Clause.last? Clause.default? clauses
  references := Clause.last? Clause.references? clauses

variable {name : String} {type : ColumnType} {mode : Option ColumnMode} {clauses : List Clause}

theorem settled_concat (clause : Clause) : settled name type mode (clauses ++ [clause])
    = clause.apply (settled name type mode clauses) := by
  cases clause <;> simp [settled, Clause.apply, Clause.last?_concat]

/-- Applying clauses in order leaves to each part what the last clause made of it. -/
theorem foldl_settled : clauses.foldl (fun column clause => clause.apply column)
    (settled name type mode []) = settled name type mode clauses := by
  induction clauses using List.reverseRecOn with
  | nil => rfl
  | append_singleton clauses clause ih =>
    rw [List.foldl_append, ih, List.foldl_cons, List.foldl_nil, settled_concat]

/-- The words for the types, two of which stand for integers with a mode. -/
inductive IsTypeWord : String → ColumnType → Option ColumnMode → Prop
  | text : IsTypeWord "text" .text none
  | integer : IsTypeWord "integer" .integer none
  | real : IsTypeWord "real" .real none
  | blob : IsTypeWord "blob" .blob none
  | json : IsTypeWord "json" .json none
  | boolean : IsTypeWord "boolean" .integer (some .boolean)
  | timestampMs : IsTypeWord "timestamp_ms" .integer (some .timestampMs)

/-- The tokens are a word for a type and clauses, one behind the other with none left over. -/
inductive Declares : List Token → ColumnType → Option ColumnMode → List Clause → Prop
  | mk {word : Token} {keyword : String} {type : ColumnType} {mode : Option ColumnMode}
      {clauses : List Clause} {parts : List (List Token)} (hword : word.Says keyword)
      (htype : IsTypeWord keyword type mode) (h : List.Forall₂ Clause.Written clauses parts) :
      Declares (word :: parts.flatten) type mode clauses

theorem lookup_typeWords_iff {keyword : String} :
    typeWords.lookup keyword = some (type, mode) ↔ IsTypeWord keyword type mode := by
  constructor
  · intro h
    obtain ⟨front, back, hwords, -⟩ := List.lookup_eq_some_iff.mp h
    have hmem : (keyword, type, mode) ∈ typeWords := by
      rw [hwords]
      exact List.mem_append_right front List.mem_cons_self
    simp only [typeWords, List.mem_cons, List.not_mem_nil, or_false, Prod.mk.injEq] at hmem
    rcases hmem with ⟨rfl, rfl, rfl⟩ | ⟨rfl, rfl, rfl⟩ | ⟨rfl, rfl, rfl⟩ | ⟨rfl, rfl, rfl⟩
      | ⟨rfl, rfl, rfl⟩ | ⟨rfl, rfl, rfl⟩ | ⟨rfl, rfl, rfl⟩ <;> constructor
  · intro h
    cases h <;> decide

theorem ofTokens_eq_ok_iff {tokens : List Token} {column : Column} :
    ofTokens name tokens = .ok column ↔ ∃ type mode clauses, Declares tokens type mode clauses
      ∧ column = settled name type mode clauses := by
  constructor
  · intro h
    match tokens with
    | .word word :: rest =>
      simp only [ofTokens] at h
      split at h
      next type mode hlookup =>
        obtain ⟨clauses, parts, rfl, hwritten, rfl⟩ := written_of_applyClauses h
        have hword : Token.Says (asciiLower word) (.word word) := .word (asciiLower_eq_iff.mp rfl)
        exact ⟨type, mode, clauses, .mk hword (lookup_typeWords_iff.mp hlookup) hwritten,
          foldl_settled⟩
      next => cases h
    | .text _ :: _ | .group _ :: _ | .arrow :: _ | [] => cases h
  · rintro ⟨type, mode, clauses, ⟨⟨hword⟩, htype, hwritten⟩, rfl⟩
    rw [← asciiLower_eq_iff] at hword
    rw [ofTokens, hword, lookup_typeWords_iff.mpr htype, ← foldl_settled]
    exact applyClauses_written hwritten

theorem ofText_eq_ok_iff {text : String} {column : Column} :
    ofText name text = .ok column ↔ ∃ tokens type mode clauses, Token.Covers tokens text.toList
      ∧ Declares tokens type mode clauses ∧ column = settled name type mode clauses := by
  constructor
  · intro h
    obtain ⟨tokens, hread, htokens⟩ := bind_eq_ok.mp h
    obtain ⟨type, mode, clauses, hrest⟩ := ofTokens_eq_ok_iff.mp htokens
    exact ⟨tokens, type, mode, clauses, Token.readAll_eq_ok_iff.mp hread, hrest⟩
  · rintro ⟨tokens, type, mode, clauses, hcovers, hrest⟩
    exact bind_eq_ok.mpr ⟨tokens, hcovers.readAll_eq,
      ofTokens_eq_ok_iff.mpr ⟨type, mode, clauses, hrest⟩⟩

/-- No part of the text of a column is ignored. The columns that are read are those of texts that
tokens make up to the last character, the first of them a type and the rest clauses, one behind the
other with none left over; and the last clause that sets a part of the column settles it. On every
text, reading by positions gives what is read, so it comes to an end and never leaves the text. -/
theorem ofText_ignores_nothing (name text : String) :
    (∀ column, ofText name text = .ok column ↔ ∃ tokens type mode clauses,
      Token.Covers tokens text.toList ∧ Declares tokens type mode clauses
      ∧ column = settled name type mode clauses)
    ∧ Cursor.scanAll text.toList [] 0 = (Token.readAll text.toList).mapError .fault :=
  ⟨fun _ => ofText_eq_ok_iff, Cursor.scanAll_zero text.toList⟩

end Column

end Tabularium
