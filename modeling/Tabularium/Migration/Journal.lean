import Tabularium.Json.Draft

namespace Tabularium

/-- The place of a migration in the order of a bundle. -/
structure JournalEntry where
  idx : UInt32
  tag : String
deriving DecidableEq, Repr

namespace JournalEntry

def toJson (e : JournalEntry) : Json :=
  .record [("idx", .int e.idx.toNat), ("tag", .text e.tag)]

def read : Draft → Except Fault JournalEntry :=
  Draft.asRecord
    [.required "idx" (Draft.asWord uint32?) fun e idx => { e with idx },
      .required "tag" Draft.asText fun e tag => { e with tag }]
    ⟨0, ""⟩

end JournalEntry

structure Journal where
  entries : List JournalEntry := []
deriving DecidableEq, Repr

namespace Journal

/-- The number behind the one of the last entry. -/
def nextIdx (j : Journal) : UInt32 :=
  match j.entries.getLast? with
  | some e => e.idx + 1
  | none => 0

/-- The journal with its entries in the order of their numbers. -/
def sorted (j : Journal) : Journal :=
  ⟨j.entries.mergeSort fun a b => a.idx ≤ b.idx⟩

def toJson (j : Journal) : Json :=
  .record [("entries", .list (j.entries.map JournalEntry.toJson))]

def read : Draft → Except Fault Journal :=
  Draft.asRecord
    [.required "entries" (Draft.asList JournalEntry.read) fun j entries => { j with entries }] {}

end Journal

end Tabularium
