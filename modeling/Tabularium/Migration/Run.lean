import Tabularium.Migration.History
import Tabularium.Migration.Source
import Tabularium.Sql.Script
import Tabularium.Store.Session

namespace Tabularium

def Migration.statements (m : Migration) : List Statement :=
  (splitStatements m.sql).map .raw

/-- What a run did: the tags that it applied, and those that were recorded before. -/
structure MigrationReport where
  applied : List String := []
  skipped : List String := []
deriving DecidableEq, Repr

/-- A migration and whether it is recorded. -/
structure MigrationStatus where
  idx : UInt32
  tag : String
  applied : Bool
deriving DecidableEq, Repr

namespace MigrationHistory

/-- The tags that are recorded, each once, read after the table was created. -/
def recordedTags (h : MigrationHistory) :
    Dialogue (Except MigrationError (List String) × MigrationHistory) := do
  match ← h.ensureTable with
  | (.error e, h) => return (.error e, h)
  | (.ok _, h) =>
    let (records, h) ← h.applied
    return (records.map fun records => (records.map (·.tag)).eraseDups, h)

/-- Applies the migrations that are not recorded, in order, up to the first that fails. The clock
is read for each of them; it is given by how often it was read before. -/
def applyPending (clock : Nat → Int64) (recorded : List String) (h : MigrationHistory)
    (report : MigrationReport) :
    List Migration → Dialogue (Except MigrationError MigrationReport × MigrationHistory)
  | [] => pure (.ok report, h)
  | m :: ms =>
    if recorded.contains m.tag then
      applyPending clock recorded h { report with skipped := report.skipped ++ [m.tag] } ms
    else do
      let (r, h) ← h.apply m.tag (clock report.applied.length) m.statements
      if r.success then
        applyPending clock recorded h { report with applied := report.applied ++ [m.tag] } ms
      else return (.error (.failed m.tag (r.error.getD unknownError)), h)

/-- Applies the migrations of a source that are not recorded. A migration that creates a schema is
not applied to a store that has others. -/
def run (h : MigrationHistory) (clock : Nat → Int64) (source : MigrationSource) :
    Dialogue (Except MigrationError MigrationReport × MigrationHistory) := do
  match ← h.recordedTags with
  | (.error e, h) => return (.error e, h)
  | (.ok recorded, h) =>
    let migrations := source.migrations
    let isPending := migrations.any fun m => !recorded.contains m.tag
    if source.isSynthesized && isPending && !recorded.isEmpty then
      return (.error (.synthesizedWithHistory recorded.length), h)
    applyPending clock recorded h {} migrations

def status (h : MigrationHistory) (source : MigrationSource) :
    Dialogue (Except MigrationError (List MigrationStatus) × MigrationHistory) := do
  let (recorded, h) ← h.recordedTags
  return (recorded.map fun recorded =>
    source.migrations.map fun m => ⟨m.idx, m.tag, recorded.contains m.tag⟩, h)

end MigrationHistory

/-- The database of a schema once its store is up to date. -/
def Database.migrated (clock : Nat → Int64) (source : MigrationSource) (s : Schema) :
    Dialogue (Except MigrationError Database) := do
  let (report, _) ← MigrationHistory.run {} clock source
  return match report with
    | .error e => .error e
    | .ok _ => (Database.ofSchema s).mapError .config

end Tabularium
