import Tabularium.Proofs.Schema.Compilation

namespace Tabularium

/-- What holds of every table that compiles. -/
structure Table.WellFormed (t : Table) : Prop where
  named : isIdentifier t.name
  columnsNamed : ∀ c ∈ t.columns, isIdentifier c.name
  columnsDistinct : (t.columns.map (·.name)).Nodup
  indexesNamed : ∀ i ∈ t.indexes, isIdentifier i.name
  indexesCovered : ∀ i ∈ t.indexes, ∀ name ∈ i.columns, name ∈ t.columns.map (·.name)

/-- What holds of every schema that compiles. -/
structure Schema.WellFormed (s : Schema) : Prop where
  tables : ∀ t ∈ s.tables, t.WellFormed
  tablesDistinct : s.tableNames.Nodup
  referencesResolved : ∀ t ∈ s.tables, ∀ c ∈ t.columns, ∀ r, c.references = some r →
    ∃ u ∈ s.tables, u.name = r.table ∧ ∃ k ∈ u.columns, k.name = r.column

/-- The numbers that stand as defaults in a schema are finite. -/
def Schema.FiniteDefaults (s : Schema) : Prop :=
  ∀ t ∈ s.tables, ∀ c ∈ t.columns, c.FiniteDefault

namespace Definition

variable {d : Definition} {s : Schema} {t : Table}

theorem compile_wellFormed (h : d.compile = .ok s) : s.WellFormed := by
  obtain ⟨hw, hlays⟩ := compile_eq_ok.mp h
  refine ⟨fun t ht => ?_, hlays.tablesDistinct, fun t ht k hk r hr => ?_⟩
  · obtain ⟨entry, -, hentry, htable⟩ := compile_table h ht
    have hnames := names_of_reads htable.columns
    refine
      { named := ?named, columnsNamed := fun k hk => ?columnsNamed,
        columnsDistinct := ?columnsDistinct, indexesNamed := ?indexesNamed,
        indexesCovered := ?indexesCovered }
    case named =>
      rw [htable.name]
      exact hentry.named
    case columnsNamed =>
      obtain ⟨c, hc, hread⟩ := forall₂_mem htable.columns.flip hk
      rw [(Column.ofText_keeps hread).1]
      exact hentry.columnsNamed c hc
    case columnsDistinct =>
      rw [hnames]
      exact hentry.columnsDistinct
    case indexesNamed =>
      rw [htable.indexes]
      exact hentry.indexesNamed
    case indexesCovered =>
      rw [htable.indexes, hnames]
      exact hentry.indexesCovered
  · obtain ⟨u, hu, hname, hcolumn⟩ := hlays.references_iff.mpr hw.referencesResolved t ht k hk r hr
    exact ⟨u, hu, hname, List.mem_map.mp hcolumn⟩

theorem compile_finiteDefaults (h : d.compile = .ok s) : s.FiniteDefaults := by
  intro t ht k hk
  obtain ⟨entry, -, -, htable⟩ := compile_table h ht
  obtain ⟨c, -, hread⟩ := forall₂_mem htable.columns.flip hk
  exact (Column.ofText_keeps hread).2

end Definition

end Tabularium
