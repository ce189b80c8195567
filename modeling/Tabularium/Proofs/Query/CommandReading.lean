import Tabularium.Proofs.Query.FilterText

namespace Tabularium

open Lexeme (bindMarks bindMarks_append Opens Closes ofText_opens ofText_closes ofText_column
  ofText_identifier)

/-- What a statement does with rows. -/
inductive Effect where
  | select
  | count
  | delete
  /-- Gives values to columns. -/
  | update (cells : List (String × SqlValue))

namespace Effect

/-- What statements with the effect on rows of a table begin with, and the values bound there. -/
def head (table : String) : Effect → Statement
  | select => ⟨"SELECT * FROM " ++ table, []⟩
  | count => ⟨"SELECT COUNT(*) as count FROM " ++ table, []⟩
  | delete => ⟨"DELETE FROM " ++ table, []⟩
  | update cells =>
    ⟨"UPDATE " ++ table ++ " SET " ++ separated ", " (cells.map fun cell => cell.1 ++ " = ?"),
      cells.map Prod.snd⟩

/-- The statement with the text of a condition, and the values bound in that one. -/
def withCondition (effect : Effect) (table text : String) (params : List SqlValue) : Statement :=
  ⟨(effect.head table).sql ++ " WHERE " ++ text, (effect.head table).params ++ params⟩

/-- Columns that are given values are there, and have names. -/
def Named : Effect → Prop
  | update cells => cells ≠ [] ∧ ∀ cell ∈ cells, isIdentifier cell.1 = true
  | _ => True

end Effect

/-- A statement on the rows of a table, as it is understood. -/
structure Command where
  effect : Effect
  table : String
  /-- The condition on the rows, all of which are meant when there is none. -/
  condition : Option Sentence

namespace Command

/-- The rows that are meant of those that are there, given the truth of the atomic predicates in
each. -/
def rows {α : Type} (c : Command) (truth : α → Atom → Bool) (stored : List α) : List α :=
  stored.filter fun row => c.condition.all fun p => p.eval (truth row)

/-- Reads the columns that are given values. -/
def readCells : List Lexeme → Option (List (String × SqlValue) × List Lexeme)
  | .word column :: .sign "=" :: .value v :: .sign "," :: rest =>
    (readCells rest).map fun (cells, rest) => ((column, v) :: cells, rest)
  | .word column :: .sign "=" :: .value v :: rest => some ([(column, v)], rest)
  | _ => none

/-- Reads the end of a statement: it may have a condition. -/
def readCondition : List Lexeme → Option (Option Sentence)
  | [] => some none
  | .word "WHERE" :: rest =>
    match Sentence.read (3 * rest.length + 3) .alternatives rest with
    | some (p, []) => some (some p)
    | _ => none
  | _ => none

/-- Reads a statement with the values in it. -/
def read : List Lexeme → Option Command
  | .word "SELECT" :: .sign "*" :: .word "FROM" :: .word table :: rest =>
    (readCondition rest).map (⟨.select, table, ·⟩)
  | .word "SELECT" :: .word "COUNT" :: .sign "(" :: .sign "*" :: .sign ")" :: .word "as" ::
      .word "count" :: .word "FROM" :: .word table :: rest =>
    (readCondition rest).map (⟨.count, table, ·⟩)
  | .word "DELETE" :: .word "FROM" :: .word table :: rest =>
    (readCondition rest).map (⟨.delete, table, ·⟩)
  | .word "UPDATE" :: .word table :: .word "SET" :: rest =>
    match readCells rest with
    | some (cells, rest) => (readCondition rest).map (⟨.update cells, table, ·⟩)
    | none => none
  | _ => none

/-- Understands a statement with the values that it binds. -/
def ofStatement (s : Statement) : Option Command :=
  (bindMarks (Lexeme.ofText s.sql) s.params).bind read

end Command

/-- The statement has one effect on the rows of the table in which all of the atomic predicates are
true, and on no others. -/
def Statement.Affects (s : Statement) (effect : Effect) (table : String) (atoms : List Atom) :
    Prop :=
  ∃ c, Command.ofStatement s = some c ∧ c.effect = effect ∧ c.table = table ∧
    ∀ (α : Type) (truth : α → Atom → Bool) (stored : List α),
      c.rows truth stored = stored.filter fun row => atoms.all (truth row)

namespace Command

variable {table text : String} {effect : Effect} {values params : List SqlValue}
  {cells : List (String × SqlValue)} {ls ms : List Lexeme} {condition : Option Sentence}
  {p : Sentence}

/-- What is read behind the statement is the condition of a command. -/
def Heads (s : Statement) (effect : Effect) (table : String) : Prop :=
  ∃ front, bindMarks (Lexeme.ofText s.sql) s.params = some front ∧
    ∀ rest condition, readCondition rest = some condition →
      read (front ++ rest) = some ⟨effect, table, condition⟩

theorem bindMarks_phrase {phrase : String} (hc : Closes phrase)
    (hp : bindMarks (Lexeme.ofText phrase) [] = some ls)
    (h : bindMarks (Lexeme.ofText text) values = some ms) :
    bindMarks (Lexeme.ofText (phrase ++ text)) values = some (ls ++ ms) := by
  rw [ofText_closes hc]
  exact bindMarks_append hp h

theorem bindMarks_name (h : isIdentifier table = true) :
    bindMarks (Lexeme.ofText table) [] = some [.word table] := by
  rw [ofText_identifier h]
  rfl

/-- Reading goes on behind the columns with what is not a comma. -/
theorem readCells_assigned (filled : cells ≠ [])
    (named : ∀ cell ∈ cells, isIdentifier cell.1 = true) :
    ∃ ls, bindMarks (Lexeme.ofText (separated ", " (cells.map fun cell => cell.1 ++ " = ?")))
        (cells.map Prod.snd) = some ls ∧
      ∀ rest, (∀ more, rest ≠ .sign "," :: more) →
        readCells (ls ++ rest) = some (cells, rest) := by
  induction cells with
  | nil => exact absurd rfl filled
  | cons cell cells ih =>
    obtain ⟨column, v⟩ := cell
    have hcolumn : isIdentifier column = true := named (column, v) List.mem_cons_self
    have hmark : Opens " = ?" := ⟨' ', rfl, by decide⟩
    have hcell : bindMarks (Lexeme.ofText (column ++ " = ?")) [v] =
        some [.word column, .sign "=", .value v] := by
      rw [ofText_column hcolumn hmark]
      rfl
    cases cells with
    | nil =>
      refine ⟨_, hcell, fun rest hrest => ?_⟩
      simp only [List.cons_append, List.nil_append]
      rw [readCells]
      exact hrest
    | cons next cells =>
      obtain ⟨ls, hls, hread⟩ := ih (by simp) fun cell hm =>
        named cell (List.mem_cons_of_mem _ hm)
      have hcomma : Opens ", " := ⟨',', rfl, by decide⟩
      have hblank : Closes ", " := ⟨' ', rfl, by decide⟩
      have hseparator : bindMarks (Lexeme.ofText ", ") [] = some [.sign ","] := rfl
      have hassigned := bindMarks_append hcell (bindMarks_phrase hblank hseparator hls)
      refine ⟨[.word column, .sign "=", .value v] ++ ([.sign ","] ++ ls), ?_,
        fun rest hrest => ?_⟩
      · rw [List.map_cons, List.map_cons, separated, String.append_assoc,
          ofText_opens (Lexeme.opens_append hcomma _)]
        exact hassigned
      · simp only [List.cons_append, List.nil_append, readCells, hread rest hrest, Option.map_some]

theorem heads_phrase {phrase : String} (h : isIdentifier table = true) (hc : Closes phrase)
    (hp : bindMarks (Lexeme.ofText phrase) [] = some ls)
    (hread : ∀ rest, read (ls ++ .word table :: rest) =
      (readCondition rest).map (⟨effect, table, ·⟩)) :
    Heads ⟨phrase ++ table, []⟩ effect table := by
  have hfront := bindMarks_phrase hc hp (bindMarks_name h)
  refine ⟨ls ++ [.word table], hfront, fun rest condition hr => ?_⟩
  rw [List.append_assoc, List.singleton_append, hread, hr, Option.map_some]

theorem heads_update (h : isIdentifier table = true) (hn : (Effect.update cells).Named) :
    Heads ((Effect.update cells).head table) (.update cells) table := by
  obtain ⟨ls, hls, hread⟩ := readCells_assigned hn.1 hn.2
  have hupdate : bindMarks (Lexeme.ofText "UPDATE ") [] = some [.word "UPDATE"] := rfl
  have hset : bindMarks (Lexeme.ofText " SET ") [] = some [.word "SET"] := rfl
  have hopens : Opens " SET " := ⟨' ', rfl, by decide⟩
  have hcells := bindMarks_append (bindMarks_name h)
    (bindMarks_phrase ⟨' ', rfl, by decide⟩ hset hls)
  rw [← ofText_opens (Lexeme.opens_append hopens _)] at hcells
  refine ⟨[.word "UPDATE"] ++ ([.word table] ++ ([.word "SET"] ++ ls)), ?_,
    fun rest condition hc => ?_⟩
  · dsimp only [Effect.head]
    rw [String.append_assoc, String.append_assoc]
    exact bindMarks_phrase ⟨' ', rfl, by decide⟩ hupdate hcells
  · -- A condition is never taken for one more column: it starts with a word.
    have hstop : ∀ more, rest ≠ .sign "," :: more := by
      rintro more rfl
      simp [readCondition] at hc
    simp [read, hread rest hstop, hc]

theorem heads_head (h : isIdentifier table = true) (hn : effect.Named) :
    Heads (effect.head table) effect table := by
  cases effect with
  | select =>
    have hblank : Closes "SELECT * FROM " := ⟨' ', rfl, by decide⟩
    have hphrase : bindMarks (Lexeme.ofText "SELECT * FROM ") [] =
        some [.word "SELECT", .sign "*", .word "FROM"] := rfl
    exact heads_phrase h hblank hphrase fun rest => by simp [read]
  | count =>
    have hblank : Closes "SELECT COUNT(*) as count FROM " := ⟨' ', rfl, by decide⟩
    have hphrase : bindMarks (Lexeme.ofText "SELECT COUNT(*) as count FROM ") [] =
        some [.word "SELECT", .word "COUNT", .sign "(", .sign "*", .sign ")", .word "as",
          .word "count", .word "FROM"] := rfl
    exact heads_phrase h hblank hphrase fun rest => by simp [read]
  | delete =>
    have hblank : Closes "DELETE FROM " := ⟨' ', rfl, by decide⟩
    have hphrase : bindMarks (Lexeme.ofText "DELETE FROM ") [] =
        some [.word "DELETE", .word "FROM"] := rfl
    exact heads_phrase h hblank hphrase fun rest => by simp [read]
  | update cells => exact heads_update h hn

theorem ofStatement_head (h : isIdentifier table = true) (hn : effect.Named) :
    ofStatement (effect.head table) = some ⟨effect, table, none⟩ := by
  obtain ⟨front, hfront, hread⟩ := heads_head h hn
  rw [ofStatement, hfront, Option.bind_some, ← List.append_nil front]
  exact hread [] none rfl

/-- Behind what a statement begins with, a condition is understood as it is alone. -/
theorem ofStatement_withCondition (h : isIdentifier table = true) (hn : effect.Named)
    (hp : Sentence.ofText text params = some p) :
    ofStatement (effect.withCondition table text params) = some ⟨effect, table, some p⟩ := by
  obtain ⟨front, hfront, hread⟩ := heads_head h hn
  unfold Sentence.ofText at hp
  split at hp
  next => cases hp
  next ls hls =>
    split at hp
    next q hq =>
      cases hp
      -- The blanks around the word keep the lexemes of the condition what they are alone.
      have hopens : Opens " WHERE " := ⟨' ', rfl, by decide⟩
      have hcloses : Closes " WHERE " := ⟨' ', rfl, by decide⟩
      have hword : bindMarks (Lexeme.ofText " WHERE ") [] = some [.word "WHERE"] := rfl
      have hwhere := bindMarks_append hfront (bindMarks_phrase hcloses hword hls)
      rw [← ofText_opens (Lexeme.opens_append hopens _), ← String.append_assoc] at hwhere
      have hcondition : readCondition (.word "WHERE" :: ls) = some (some p) := by
        rw [readCondition, hq]
      rw [ofStatement, Effect.withCondition, hwhere, Option.bind_some]
      exact hread _ _ hcondition
    next => cases hp

end Command

end Tabularium
