import Tabularium.Proofs.Schema.Convergence

namespace Tabularium

theorem Binary64.same_self {x : Binary64} (h : x.isFinite = true) : x.same x = true := by
  simp [same, isNaN_of_isFinite h]

/-- A column is the same as itself unless its default is an undefined number. -/
theorem Column.same_self {c : Column} (h : c.FiniteDefault) : c.same c = true := by
  have hdefault : ∀ v, c.default = some v → v.same v = true := by
    intro v hv
    cases v with
    | raw sql => simp [DefaultValue.same]
    | value literal =>
      cases literal with
      | float x => exact Binary64.same_self (h x hv)
      | _ => simp [DefaultValue.same, Literal.same]
  unfold same
  simp only [beq_self_eq_true, Bool.true_and]
  cases hv : c.default with
  | none => rfl
  | some v => exact hdefault v hv

namespace Table

variable {t : Table} {i : Index}

/-- Indexes of a table that share a name are the same. -/
def IndexesAgree (t : Table) : Prop :=
  ∀ i ∈ t.indexes, ∀ j ∈ t.indexes, i.name = j.name → i = j

instance (t : Table) : Decidable t.IndexesAgree := inferInstanceAs (Decidable (∀ _ ∈ _, _))

theorem IndexesAgree.index?_of_mem (h : t.IndexesAgree) (hi : i ∈ t.indexes) :
    t.index? i.name = some i := by
  cases hf : t.index? i.name with
  | none => exact absurd (List.mem_map_of_mem hi) (index?_eq_none.mp hf)
  | some j => rw [h j (index?_mem hf) i hi (index?_name hf)]

end Table

namespace Difference

variable {s : Schema} {t : Table}

/-- An index counts as changed against its own table when it is not the first one of its name. -/
theorem staleIndexes_self_eq_nil : staleIndexes t t = [] ↔ t.IndexesAgree := by
  unfold staleIndexes
  rw [List.filter_eq_nil_iff]
  constructor
  · intro h i hi j hj hn
    have hfirst : ∀ k ∈ t.indexes, t.index? k.name = some k := fun k hk => by simpa using h k hk
    have heq := hfirst i hi
    rw [hn, hfirst j hj, Option.some.injEq] at heq
    exact heq.symm
  · intro h i hi
    simp [h.index?_of_mem hi]

theorem newColumns_self : newColumns t t = [] := by
  refine List.filter_eq_nil_iff.mpr fun k hk => ?_
  rw [Table.column?_isNone, not_not]
  exact List.mem_map_of_mem hk

theorem goneColumns_self : goneColumns t t = [] :=
  newColumns_self

/-- Against itself a table has only its shadowed indexes dropped and created again. -/
theorem ofTable_self_statements (t : Table) :
    (ofTable t t).statements = ((staleIndexes t t).map (·.name)).map .dropIndex
      ++ (staleIndexes t t).map (.createIndex t.name) := by
  rw [ofTable_statements, newColumns_self, goneColumns_self]
  simp only [List.map_nil, List.append_nil]
  rfl

theorem not_warns_self {w : Warning} (hd : (t.columns.map (·.name)).Nodup)
    (hf : ∀ k ∈ t.columns, k.FiniteDefault) : ¬ Warns t t w := by
  intro h
  cases h with
  | indexDropped hi gone => exact Table.index?_eq_none.mp gone (List.mem_map_of_mem hi)
  | added hk =>
    rw [newColumns_self] at hk
    cases hk
  | @columnChanged k _ hk known changed =>
    rw [Table.column?_of_mem hd hk] at known
    cases known
    rw [Column.same_self (hf k hk)] at changed
    cases changed
  | columnDropped hk =>
    rw [goneColumns_self] at hk
    cases hk
  | checksChanged changed => exact changed rfl

theorem ofNewTable_self (hd : s.tableNames.Nodup) (h : t ∈ s.tables) :
    ofNewTable s t = ofTable t t := by
  unfold ofNewTable
  rw [Schema.table?_of_mem hd h]

/-- A compiled schema has no warning against itself, and no statement exactly when no table of it
has two different indexes of one name. -/
theorem between_self {d : Definition} (h : d.compile = .ok s) :
    (between s s).warnings = []
      ∧ ((between s s).statements = [] ↔ ∀ t ∈ s.tables, t.IndexesAgree) := by
  have hw := Definition.compile_wellFormed h
  have hf := Definition.compile_finiteDefaults h
  constructor
  · refine List.eq_nil_iff_forall_not_mem.mpr fun w hwarned => ?_
    rcases mem_warnings.mp hwarned with ⟨t, ht, old, ho, hwarns⟩ | ⟨t, ht, hgone, -⟩
    · rw [Schema.table?_of_mem hw.tablesDistinct ht] at ho
      cases ho
      exact not_warns_self (hw.columnsDistinct t ht) (hf t ht) hwarns
    · rw [Schema.table?_of_mem hw.tablesDistinct ht] at hgone
      cases hgone
  · rw [between_statements, collect, List.flatMap_eq_nil_iff]
    refine forall₂_congr fun t ht => ?_
    rw [ofNewTable_self hw.tablesDistinct ht, ofTable_self_statements, List.append_eq_nil_iff,
      List.map_eq_nil_iff, List.map_eq_nil_iff, List.map_eq_nil_iff, and_self,
      staleIndexes_self_eq_nil]

/-- Two indexes of one name, each on its own column. -/
def shadowed : Definition :=
  ({ name := "app" } : Definition).column "t" "a" "text"
    |>.column "t" "b" "text"
    |>.index "t" ⟨"i", ["a"], false⟩
    |>.index "t" ⟨"i", ["b"], false⟩

def shadowedSchema : Schema :=
  ⟨"app", 1, [
    { name := "t"
      columns := [{ name := "a", type := .text }, { name := "b", type := .text }]
      indexes := [⟨"i", ["a"], false⟩, ⟨"i", ["b"], false⟩] }]⟩

theorem shadowed_compiles : shadowed.compile = .ok shadowedSchema := by decide +kernel

theorem between_self_orders :
    ordersOld.compile = .ok ordersOldSchema ∧ (∀ t ∈ ordersOldSchema.tables, t.IndexesAgree)
      ∧ (between ordersOldSchema ordersOldSchema).warnings = []
      ∧ (between ordersOldSchema ordersOldSchema).statements = [] := by
  have hagree : ∀ t ∈ ordersOldSchema.tables, t.IndexesAgree := by decide +kernel
  obtain ⟨hwarnings, hstatements⟩ := between_self ordersOld_compiles
  exact ⟨ordersOld_compiles, hagree, hwarnings, hstatements.mpr hagree⟩

/-- The second of two indexes of one name is dropped and created by the difference of the schema
and itself. -/
theorem shadowed_index_differs :
    ¬ ∀ (d : Definition) (s : Schema), d.compile = .ok s → (between s s).isEmpty = true := by
  intro h
  have hempty := h shadowed shadowedSchema shadowed_compiles
  revert hempty
  decide +kernel

end Difference

end Tabularium
