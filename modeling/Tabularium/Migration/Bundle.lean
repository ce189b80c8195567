import Tabularium.Json.Reader
import Tabularium.Migration.Error
import Tabularium.Migration.Journal
import Tabularium.Schema.Document

namespace Tabularium

structure Migration where
  idx : UInt32
  tag : String
  sql : String
deriving DecidableEq, Repr

/-- Migrations in the order in which they are applied. -/
structure MigrationBundle where
  migrations : List Migration := []
deriving DecidableEq, Repr

namespace MigrationBundle

def journalPath : String := "meta/_journal.json"

def scriptPath (tag : String) : String :=
  tag ++ ".sql"

def snapshotPath (tag : String) : String :=
  joinPath "meta" (tag ++ "_snapshot.json")

def journal (b : MigrationBundle) : Journal :=
  ⟨b.migrations.map fun m => ⟨m.idx, m.tag⟩⟩

/-- The bundle with a migration behind the others. -/
def withEntry (b : MigrationBundle) (tag sql : String) : MigrationBundle :=
  ⟨b.migrations ++ [⟨b.journal.nextIdx, tag, sql⟩]⟩

def ofList (entries : List (String × String)) : MigrationBundle :=
  entries.foldl (fun b entry => b.withEntry entry.1 entry.2) {}

def isIn (d : Directory) : Bool :=
  d.hasFile journalPath

def invalid (d : Directory) (path : String) (fault : BundleFault) : MigrationError :=
  .invalidBundle (joinPath d.root path) fault

/-- The journal in a directory, its entries in the order of their numbers. -/
def readJournal (d : Directory) : Except MigrationError Journal :=
  match d.read journalPath with
  | .error fault => .error (invalid d journalPath (.unreadable fault))
  | .ok text =>
    match Draft.decode Journal.read text with
    | .error fault => .error (invalid d journalPath (.malformed fault))
    | .ok journal => .ok journal.sorted

/-- The migrations that entries name, behind those that are already loaded. No two may have one
number or one tag, and each has to have a script. -/
def loadEntries (d : Directory) (loaded : List Migration) :
    List JournalEntry → Except MigrationError (List Migration)
  | [] => .ok loaded
  | e :: es =>
    if loaded.any fun m => m.tag == e.tag || m.idx == e.idx then
      .error (invalid d journalPath (.duplicate e.idx e.tag))
    else
      match d.read (scriptPath e.tag) with
      | .error _ => .error (.missingSql e.tag)
      | .ok sql => loadEntries d (loaded ++ [⟨e.idx, e.tag, sql⟩]) es

def load (d : Directory) : Except MigrationError MigrationBundle := do
  if !d.hasFolder "" then throw (.directoryNotFound d.root)
  let journal ← readJournal d
  return ⟨← loadEntries d [] journal.entries⟩

/-- The schema that the latest entry with a snapshot leads to, entries given latest first. -/
def findSnapshot (d : Directory) : List JournalEntry → Except MigrationError (Option Schema)
  | [] => .ok none
  | e :: es =>
    match d.read (snapshotPath e.tag) with
    | .error _ => findSnapshot d es
    | .ok text =>
      match Draft.decode Schema.read text with
      | .ok s => .ok (some s)
      | .error fault => .error (.malformedSnapshot fault)

/-- The schema that the latest entry with a snapshot leads to. -/
def latestSnapshot (d : Directory) (journal : Journal) : Except MigrationError (Option Schema) :=
  findSnapshot d journal.entries.reverse

end MigrationBundle

end Tabularium
