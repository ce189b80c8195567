import Tabularium.Json.Printer
import Tabularium.Migration.Bundle
import Tabularium.Schema.Difference
import Tabularium.Text.Ascii
import Tabularium.Text.Blank

namespace Tabularium

/-- A migration that was written into a bundle. -/
structure GeneratedMigration where
  tag : String
  warnings : List Warning
deriving DecidableEq

namespace MigrationBundle

/-- The characters of a name for use in a tag behind the one written last: letters and digits, and
one underscore for each run of others. -/
def slugChars (previous : Char) : List Char → List Char
  | [] => []
  | c :: cs =>
    if c.isAlphanum then c.toLower :: slugChars c.toLower cs
    else if previous = '_' then slugChars previous cs
    else '_' :: slugChars '_' cs

/-- A name for use in a tag, without underscores at its ends. -/
def slug (name : String) : String :=
  let cs := (slugChars '_' (trim name.toList)).reverse.dropWhile (· == '_')
  String.ofList cs.reverse

def paddedIdx (idx : UInt32) : String :=
  let digits := Nat.repr idx.toNat
  String.ofList (List.replicate (4 - digits.length) '0') ++ digits

def tagOf (idx : UInt32) (slug : String) : String :=
  paddedIdx idx ++ "_" ++ slug

/-- A migration that is about to be written, with the journal that it is added to. -/
structure Plan where
  journal : Journal
  idx : UInt32
  tag : String
  difference : Difference

/-- The next migration on the way to a schema, unless it is reached. -/
def plan (d : Directory) (name : String) (s : Schema) : Except MigrationError (Option Plan) := do
  if (slug name).isEmpty then throw (.invalidBundle d.root (.unusableName name))
  let journal ← if isIn d then readJournal d else pure {}
  let previous ← latestSnapshot d journal
  let difference := Difference.between (previous.getD (.empty s.name)) s
  if difference.isEmpty then return none
  let idx := journal.nextIdx
  return some ⟨journal, idx, tagOf idx (slug name), difference⟩

/-- The files of a migration that leads to a schema, the journal last. -/
def Plan.files (p : Plan) (s : Schema) : List (String × String) :=
  [(scriptPath p.tag, p.difference.toSql), (snapshotPath p.tag, s.toJson.pretty),
    (journalPath, (Journal.mk (p.journal.entries ++ [⟨p.idx, p.tag⟩])).toJson.pretty)]

/-- Writes a migration that leads to a schema, and gives the directory as it is left. -/
def Plan.write (p : Plan) (d : Directory) (s : Schema) :
    Except MigrationError GeneratedMigration × Directory :=
  match d.makeFolder "meta" with
  | .error fault => (.error (.unwritable fault), d)
  | .ok d =>
    if d.has (scriptPath p.tag) then (.error (invalid d (scriptPath p.tag) .taken), d)
    else
      match d.writeAll (p.files s) with
      | (.error fault, d) => (.error (.unwritable fault), d)
      | (.ok _, d) => (.ok ⟨p.tag, p.difference.warnings⟩, d)

/-- Writes the next migration on the way to a schema, unless it is reached, and gives the directory
as it is left. -/
def generate (d : Directory) (name : String) (s : Schema) :
    Except MigrationError (Option GeneratedMigration) × Directory :=
  match plan d name s with
  | .error e => (.error e, d)
  | .ok none => (.ok none, d)
  | .ok (some p) =>
    match p.write d s with
    | (.error e, d) => (.error e, d)
    | (.ok m, d) => (.ok (some m), d)

end MigrationBundle

end Tabularium
