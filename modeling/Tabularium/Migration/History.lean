import Tabularium.Instant
import Tabularium.Migration.Error
import Tabularium.Numeric.Integer
import Tabularium.Store.Bookmark
import Tabularium.Store.Dialogue

namespace Tabularium

structure AppliedMigration where
  id : Int64
  tag : String
  createdAt : Option Instant
deriving DecidableEq

/-- The history of a store: a table with a row for each migration that was applied, read and written
with the latest point of consistency seen. -/
structure MigrationHistory where
  bookmarks : BookmarkTracker := {}
deriving DecidableEq

namespace MigrationHistory

def tableName : String := "migrations_history"

/-- The statement that creates the table unless it is there. -/
def createStatement : Statement :=
  .raw ("\nCREATE TABLE IF NOT EXISTS " ++ tableName ++ " (\n    tag TEXT UNIQUE,\n"
    ++ "    id INTEGER PRIMARY KEY AUTOINCREMENT,\n    created_at INTEGER\n)\n")

def readStatement : Statement :=
  .raw ("SELECT id, tag, created_at FROM " ++ tableName ++ " ORDER BY id")

/-- The statement that records a migration at a time in milliseconds. -/
def recordStatement (tag : String) (createdAt : Int64) : Statement :=
  ⟨"INSERT INTO " ++ tableName ++ " (tag, created_at) VALUES (?, ?)", [.text tag, .int createdAt]⟩

/-- The point of consistency that the next call carries. -/
def bookmark (h : MigrationHistory) : Option String :=
  h.bookmarks.current

/-- Asks the store, and takes over the point of consistency that it reports. -/
def ask (h : MigrationHistory) (request : Request) : Dialogue (RowsResult × MigrationHistory) := do
  let r ← Dialogue.call request h.bookmark
  return (r, ⟨h.bookmarks.observe r⟩)

/-- What is said of a failure without a message. -/
def unknownError : String := "unknown error"

def rowsOf (r : RowsResult) : Except MigrationError (List Row) :=
  if r.success then .ok (r.data.getD []) else .error (.history (r.error.getD unknownError))

/-- The record that a row holds; a row without a tag holds none. -/
def ofRow? (row : Row) : Option AppliedMigration := do
  let tag ← (row.get? "tag").bind Json.text?
  let id := ((row.get? "id").bind Json.int?).bind int64?
  let createdAt := ((row.get? "created_at").bind Json.int?).bind Instant.ofMillis?
  return ⟨id.getD 0, tag, createdAt⟩

/-- Creates the table unless it is there. -/
def ensureTable (h : MigrationHistory) :
    Dialogue (Except MigrationError Unit × MigrationHistory) := do
  let (r, h) ← h.ask (.exec createStatement)
  return ((rowsOf r).map fun _ => (), h)

/-- The migrations that were applied, in the order in which they were recorded. -/
def applied (h : MigrationHistory) :
    Dialogue (Except MigrationError (List AppliedMigration) × MigrationHistory) := do
  let (r, h) ← h.ask (.exec readStatement)
  return ((rowsOf r).map fun rows => rows.filterMap ofRow?, h)

/-- Executes statements and records their migration, all together or not at all. -/
def apply (h : MigrationHistory) (tag : String) (now : Int64) (statements : List Statement) :
    Dialogue (RowsResult × MigrationHistory) :=
  h.ask (.batch (statements ++ [recordStatement tag now]))

end MigrationHistory

end Tabularium
