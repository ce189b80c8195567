import Tabularium.Migration.Bundle
import Tabularium.Schema.Ddl

namespace Tabularium

inductive MigrationSource where
  | bundle (b : MigrationBundle)
  /-- A single migration that creates a schema. -/
  | synthesized (s : Schema)

namespace MigrationSource

/-- The tag of the migration that creates a schema. -/
def initialTag : String := "0000_initial"

/-- The bundle in a directory, or the migration that creates a schema when there is none. -/
def resolve (d : Directory) (s : Schema) : Except MigrationError MigrationSource :=
  if MigrationBundle.isIn d then (MigrationBundle.load d).map bundle else .ok (synthesized s)

def migrations : MigrationSource → List Migration
  | bundle b => b.migrations
  | synthesized s => [⟨0, initialTag, s.toSql⟩]

def isSynthesized : MigrationSource → Bool
  | bundle _ => false
  | synthesized _ => true

end MigrationSource

end Tabularium
