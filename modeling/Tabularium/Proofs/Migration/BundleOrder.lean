import Mathlib.Data.List.Basic
import Tabularium.Migration.Source
import Tabularium.Proofs.Outcome

namespace Tabularium

theorem Journal.sorted_ascends (j : Journal) :
    j.sorted.entries.Pairwise fun a b => a.idx ≤ b.idx := by
  refine (List.pairwise_mergeSort ?_ ?_ j.entries).imp fun h => of_decide_eq_true h
  · intro a b c hab hbc
    rw [decide_eq_true_iff] at hab hbc ⊢
    exact UInt32.le_trans hab hbc
  · intro a b
    rw [Bool.or_eq_true, decide_eq_true_iff, decide_eq_true_iff]
    exact UInt32.le_total a.idx b.idx

theorem Journal.sorted_self {j : Journal} (h : j.entries.Pairwise fun a b => a.idx ≤ b.idx) :
    j.sorted = j := by
  rw [sorted, List.mergeSort_of_pairwise (h.imp fun hle => decide_eq_true hle)]

namespace MigrationBundle

variable {d : Directory} {b : MigrationBundle} {loaded ms more : List Migration}
  {entries : List JournalEntry} {journal : Journal}

/-- The migration of a journal entry, with the script that the directory has for it. -/
structure OfEntry (d : Directory) (e : JournalEntry) (m : Migration) : Prop where
  idx : m.idx = e.idx
  tag : m.tag = e.tag
  sql : d.read (scriptPath e.tag) = .ok m.sql

/-- The migrations differ in their numbers and in their tags. -/
def Apart (m n : Migration) : Prop :=
  m.idx ≠ n.idx ∧ m.tag ≠ n.tag

/-- What is loaded is the migrations of the entries in order, which are apart from one another and
from those loaded before. -/
theorem loadEntries_ok (h : loadEntries d loaded entries = .ok ms) (hl : loaded.Pairwise Apart) :
    ∃ more, ms = loaded ++ more ∧ List.Forall₂ (OfEntry d) entries more ∧ ms.Pairwise Apart := by
  induction entries generalizing loaded with
  | nil =>
    cases h
    exact ⟨[], (List.append_nil _).symm, .nil, hl⟩
  | cons e entries ih =>
    rw [loadEntries] at h
    split at h
    next => cases h
    next fresh =>
      split at h
      next => cases h
      next sql read =>
        have apart : (loaded ++ [Migration.mk e.idx e.tag sql]).Pairwise Apart := by
          refine List.pairwise_append.mpr ⟨hl, List.pairwise_singleton _ _, ?_⟩
          intro m hm n hn
          cases List.mem_singleton.mp hn
          rw [Bool.not_eq_true, List.any_eq_false] at fresh
          have other := fresh m hm
          rw [Bool.or_eq_true, beq_iff_eq, beq_iff_eq, not_or] at other
          exact ⟨other.2, other.1⟩
        obtain ⟨more, rfl, hmore, hms⟩ := ih h apart
        exact ⟨⟨e.idx, e.tag, sql⟩ :: more, by simp, .cons ⟨rfl, rfl, read⟩ hmore, hms⟩

theorem loadEntries_of (h : List.Forall₂ (OfEntry d) entries more)
    (apart : (loaded ++ more).Pairwise Apart) :
    loadEntries d loaded entries = .ok (loaded ++ more) := by
  induction h generalizing loaded with
  | nil => rw [List.append_nil]; rfl
  | @cons e m entries more of _ ih =>
    have fresh : (loaded.any fun m' => m'.tag == e.tag || m'.idx == e.idx) = false := by
      rw [List.any_eq_false]
      intro m' hm'
      have other := (List.pairwise_append.mp apart).2.2 m' hm' m List.mem_cons_self
      rw [← of.idx, ← of.tag, Bool.or_eq_true, beq_iff_eq, beq_iff_eq, not_or]
      exact ⟨other.2, other.1⟩
    have entry : Migration.mk e.idx e.tag m.sql = m := by rw [← of.idx, ← of.tag]
    rw [loadEntries, fresh, if_neg Bool.false_ne_true, of.sql]
    dsimp only
    rw [entry, ih (by rwa [List.append_assoc]), List.append_assoc]
    rfl

theorem readJournal_eq_ok_iff : readJournal d = .ok journal ↔ ∃ text written,
    d.read journalPath = .ok text ∧ Draft.decode Journal.read text = .ok written
      ∧ journal = written.sorted := by
  rw [readJournal]
  cases hread : d.read journalPath with
  | error fault => simp
  | ok text =>
    dsimp only
    cases hdecode : Draft.decode Journal.read text with
    | error fault => simp [hdecode]
    | ok written =>
      simp only [Except.ok.injEq, exists_and_left, hdecode, exists_eq_left', eq_comm]

/-- A directory is loaded as the migrations of its journal in order, when they are apart. -/
theorem load_eq_ok_iff : load d = .ok b ↔ d.hasFolder "" = true ∧ ∃ journal,
    readJournal d = .ok journal ∧ List.Forall₂ (OfEntry d) journal.entries b.migrations
      ∧ b.migrations.Pairwise Apart := by
  constructor
  · intro h
    rw [load] at h
    cases hroot : d.hasFolder "" with
    | false => rw [hroot] at h; cases h
    | true =>
      rw [hroot] at h
      obtain ⟨journal, hjournal, h⟩ := bind_eq_ok.mp h
      obtain ⟨ms, hms, h⟩ := bind_eq_ok.mp h
      cases h
      obtain ⟨more, rfl, hmore, apart⟩ := loadEntries_ok hms .nil
      exact ⟨rfl, journal, hjournal, hmore, apart⟩
  · rintro ⟨hroot, journal, hjournal, hmore, apart⟩
    have hms : loadEntries d [] journal.entries = .ok b.migrations := loadEntries_of hmore apart
    rw [load, hroot]
    refine bind_eq_ok.mpr ⟨journal, hjournal, bind_eq_ok.mpr ⟨_, hms, rfl⟩⟩

theorem read_script {m : Migration} (h : List.Forall₂ (OfEntry d) entries ms) (hm : m ∈ ms) :
    d.read (scriptPath m.tag) = .ok m.sql := by
  obtain ⟨e, -, of⟩ := forall₂_mem h.flip hm
  rw [of.tag]
  exact of.sql

theorem journal_entries (h : List.Forall₂ (OfEntry d) entries b.migrations) :
    b.journal.entries = entries :=
  (map_eq_of_forall₂ (fun e m of => by rw [of.idx, of.tag]; rfl) h).symm.trans (List.map_id _)

/-- The numbers of the migrations ascend. -/
def Ascends (b : MigrationBundle) : Prop :=
  b.migrations.Pairwise fun m n => m.idx < n.idx

theorem readJournal_ascends (h : readJournal d = .ok journal) :
    journal.entries.Pairwise fun a b => a.idx ≤ b.idx := by
  obtain ⟨-, written, -, -, rfl⟩ := readJournal_eq_ok_iff.mp h
  exact written.sorted_ascends

/-- Whatever the order of the journal is, the migrations that are loaded are in the order of their
numbers. -/
theorem load_ascends (h : load d = .ok b) : b.Ascends := by
  obtain ⟨-, journal, hjournal, hmore, apart⟩ := load_eq_ok_iff.mp h
  have numbers : journal.entries.map (·.idx) = b.migrations.map (·.idx) :=
    map_eq_of_forall₂ (fun _ _ of => of.idx.symm) hmore
  have sorted : b.migrations.Pairwise fun m n => m.idx ≤ n.idx := by
    have hsorted := List.pairwise_map.mpr (readJournal_ascends hjournal)
    rw [numbers] at hsorted
    exact List.pairwise_map.mp hsorted
  exact sorted.imp₂ (fun _ _ le ne => UInt32.lt_of_le_of_ne le ne.1) apart

/-- What a program can hold as a bundle: an empty one, one that was loaded, and one with a migration
more. Behind the largest number there is no other, so that no migration comes behind it. -/
inductive Built : MigrationBundle → Prop
  | empty : Built {}
  | loaded {d : Directory} {b : MigrationBundle} (h : load d = .ok b) : Built b
  | withEntry {b : MigrationBundle} (before : Built b)
    (room : ∀ m ∈ b.migrations, m.idx.toNat + 1 < UInt32.size) (tag sql : String) :
    Built (b.withEntry tag sql)

/-- The next number is above those of all migrations as long as there is a number for it. -/
theorem lt_nextIdx_iff (h : b.Ascends) : (∀ m ∈ b.migrations, m.idx < b.journal.nextIdx)
    ↔ ∀ m ∈ b.migrations, m.idx.toNat + 1 < UInt32.size := by
  obtain hnil | ⟨front, last, hlast⟩ := List.eq_nil_or_concat' b.migrations
  · rw [hnil]
    simp
  · have next : b.journal.nextIdx = last.idx + 1 := by
      simp [journal, Journal.nextIdx, hlast]
    have above : ∀ m ∈ b.migrations, m.idx.toNat ≤ last.idx.toNat := by
      intro m hm
      rw [hlast] at hm
      rcases List.mem_append.mp hm with hm | hm
      · rw [Ascends, hlast] at h
        have hlt := (List.pairwise_append.mp h).2.2 m hm last (List.mem_singleton_self _)
        exact Nat.le_of_lt (UInt32.lt_iff_toNat_lt.mp hlt)
      · exact List.mem_singleton.mp hm ▸ Nat.le_refl _
    have hmem : last ∈ b.migrations := by simp [hlast]
    have hword := last.idx.toNat_lt
    have hadd : (last.idx + 1).toNat = (last.idx.toNat + 1) % UInt32.size := UInt32.toNat_add ..
    constructor
    · intro hnext m hm
      -- Behind the largest number the next one would be 0, which is above no number.
      by_contra hfull
      have hmax : (last.idx + 1).toNat = 0 := by
        have hle := above m hm
        rw [UInt32.size] at hadd hfull
        omega
      have hlt := UInt32.lt_iff_toNat_lt.mp (hnext m hm)
      rw [next, hmax] at hlt
      exact Nat.not_lt_zero _ hlt
    · intro room m hm
      have hle := above m hm
      rw [Nat.mod_eq_of_lt (room last hmem)] at hadd
      rw [UInt32.lt_iff_toNat_lt, next, hadd]
      omega

/-- A further migration comes behind the others as long as there is a number for it. -/
theorem withEntry_ascends (h : b.Ascends)
    (room : ∀ m ∈ b.migrations, m.idx.toNat + 1 < UInt32.size) (tag sql : String) :
    (b.withEntry tag sql).Ascends := by
  refine List.pairwise_append.mpr ⟨h, List.pairwise_singleton _ _, ?_⟩
  intro m hm n hn
  cases List.mem_singleton.mp hn
  exact (lt_nextIdx_iff h).mpr room m hm

theorem Built.ascends (h : Built b) : b.Ascends := by
  induction h with
  | empty => exact .nil
  | loaded h => exact load_ascends h
  | withEntry _ room tag sql ih => exact withEntry_ascends ih room tag sql

end MigrationBundle

/-- What a program can hold as a source of migrations. -/
def MigrationSource.Built : MigrationSource → Prop
  | bundle b => b.Built
  | synthesized _ => True

theorem MigrationSource.Built.ascends {source : MigrationSource} (h : source.Built) :
    source.migrations.Pairwise fun m n => m.idx < n.idx := by
  cases source with
  | bundle b => exact MigrationBundle.Built.ascends h
  | synthesized s => exact List.pairwise_singleton _ _

end Tabularium
