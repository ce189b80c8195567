import Tabularium.Json.Draft
import Tabularium.Migration.Directory
import Tabularium.Store.Error

namespace Tabularium

inductive BundleFault where
  | unreadable (fault : DirectoryFault)
  /-- The journal is no document, or one of another shape. -/
  | malformed (fault : Fault)
  | duplicate (idx : UInt32) (tag : String)
  | unusableName (name : String)
  | taken
deriving DecidableEq

/-- Why a migration is not loaded, not generated or not applied. -/
inductive MigrationError where
  | directoryNotFound (path : String)
  | invalidBundle (path : String) (fault : BundleFault)
  | missingSql (tag : String)
  | malformedSnapshot (fault : Fault)
  | unwritable (fault : DirectoryFault)
  | config (e : ConfigError)
  /-- An initial migration is pending although others are recorded. -/
  | synthesizedWithHistory (recorded : Nat)
  | failed (tag error : String)
  | introspection (table error : String)
  | history (error : String)
deriving DecidableEq

/-- The wording of a fault, given the wording of what documents are refused for. -/
def BundleFault.message (describe : Fault → String) : BundleFault → String
  | unreadable fault => fault.message
  | malformed fault => describe fault
  | duplicate idx tag => "duplicate entry " ++ Nat.repr idx.toNat ++ " (" ++ tag ++ ")"
  | unusableName name => "migration name '" ++ name ++ "' has no usable characters"
  | taken => "migration file already exists"

/-- The wording of an error, given the wording of what documents are refused for. -/
def MigrationError.message (describe : Fault → String) : MigrationError → String
  | directoryNotFound path => "Migrations directory not found: " ++ path
  | invalidBundle path fault =>
    "Invalid migration bundle '" ++ path ++ "': " ++ fault.message describe
  | missingSql tag => "Migration '" ++ tag ++ "' has no SQL"
  | malformedSnapshot fault => "Serialization error: " ++ describe fault
  | unwritable fault => "IO error: " ++ fault.message
  | config e => "Configuration error: " ++ e.message
  | synthesizedWithHistory recorded =>
    "Cannot synthesize an initial migration: " ++ Nat.repr recorded
      ++ " migration(s) already recorded"
  | failed tag error => "Migration '" ++ tag ++ "' failed: " ++ error
  | introspection table error => "Introspection of '" ++ table ++ "' failed: " ++ error
  | history error => "Migration history error: " ++ error

end Tabularium
