import Tabularium.Migration.Run

namespace Tabularium

namespace HistoryTable

/-- The statement that creates the history table unless a store has it. -/
def creation : Statement :=
  ⟨"\nCREATE TABLE IF NOT EXISTS migrations_history (\n    tag TEXT UNIQUE,\n"
    ++ "    id INTEGER PRIMARY KEY AUTOINCREMENT,\n    created_at INTEGER\n)\n", []⟩

def reading : Statement :=
  ⟨"SELECT id, tag, created_at FROM migrations_history ORDER BY id", []⟩

/-- The statement that inserts a row for a tag, with a time in milliseconds. -/
def insertion (tag : String) (createdAt : Int64) : Statement :=
  ⟨"INSERT INTO migrations_history (tag, created_at) VALUES (?, ?)", [.text tag, .int createdAt]⟩

/-- The tag in a row; a value that is no text is none. -/
def tagOf? (row : Row) : Option String :=
  match row.get? "tag" with
  | some (.text tag) => some tag
  | _ => none

theorem createStatement_eq : MigrationHistory.createStatement = creation := by
  decide

theorem readStatement_eq : MigrationHistory.readStatement = reading := by
  decide

theorem recordStatement_eq (tag : String) (createdAt : Int64) :
    MigrationHistory.recordStatement tag createdAt = insertion tag createdAt := by
  have text : "INSERT INTO " ++ MigrationHistory.tableName ++ " (tag, created_at) VALUES (?, ?)"
      = "INSERT INTO migrations_history (tag, created_at) VALUES (?, ?)" := by decide
  rw [MigrationHistory.recordStatement, text, insertion]

theorem tag_ofRow? (row : Row) : (MigrationHistory.ofRow? row).map (·.tag) = tagOf? row := by
  unfold MigrationHistory.ofRow? tagOf?
  cases row.get? "tag" with
  | none => rfl
  | some value => cases value <;> rfl

/-- A read and a creation are told apart by their texts. -/
theorem reading_ne_creation : reading ≠ creation := by
  decide

end HistoryTable

/-- What a store is asked to do for a migration: the statements of its script as they stand, and the
insertion of its tag. -/
def Migration.batch (createdAt : Int64) (m : Migration) : List Statement :=
  (splitStatements m.sql).map (⟨·, []⟩) ++ [HistoryTable.insertion m.tag createdAt]

theorem Migration.statements_record (m : Migration) (createdAt : Int64) :
    m.statements ++ [MigrationHistory.recordStatement m.tag createdAt] = m.batch createdAt := by
  rw [HistoryTable.recordStatement_eq]
  rfl

end Tabularium
