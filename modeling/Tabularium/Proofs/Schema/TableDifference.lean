import Mathlib.Data.List.Nodup
import Mathlib.Data.List.Perm.Basic
import Tabularium.Proofs.Schema.Catalog
import Tabularium.Proofs.Schema.Compiled
import Tabularium.Proofs.Schema.Lookup
import Tabularium.Schema.Difference

namespace Tabularium

/-- The store has a table with the columns of a declaration, in any order, and no index on it that
the declaration does not have. -/
structure Catalog.Follows (c : Catalog) (t : Table) : Prop where
  columns : ∃ columns ∈ c.columns t.name, (columns.map (·.name)).Perm (t.columns.map (·.name))
  indexes : ∀ i ∈ c.indexes, i.table = t.name → ∃ j ∈ t.indexes, i = j.stored t.name

theorem Catalog.Follows.frame {c c' : Catalog} {t : Table} (h : c.Follows t)
    (hc : c'.columns t.name = c.columns t.name)
    (hi : ∀ i ∈ c'.indexes, i.table = t.name → i ∈ c.indexes) : c'.Follows t := by
  refine ⟨?_, fun i him ht => h.indexes i (hi i him ht) ht⟩
  rw [hc]
  exact h.columns

namespace Difference

variable {previous target : Table} {c : Catalog} {columns : List StoredColumn} {name : String}

/-- The old indexes that are not kept as they are. -/
def staleIndexes (previous target : Table) : List Index :=
  previous.indexes.filter fun i => target.index? i.name ≠ some i

def newColumns (previous target : Table) : List Column :=
  target.columns.filter fun k => (previous.column? k.name).isNone

def goneColumns (previous target : Table) : List Column :=
  previous.columns.filter fun k => (target.column? k.name).isNone

def newIndexes (previous target : Table) : List Index :=
  target.indexes.filter fun i => previous.index? i.name ≠ some i

theorem append_statements (d e : Difference) : (d ++ e).statements = d.statements ++ e.statements :=
  rfl

theorem append_warnings (d e : Difference) : (d ++ e).warnings = d.warnings ++ e.warnings := rfl

theorem collect_statements {α : Type} {items : List α} {f : α → Difference} {p : α → Bool}
    {s : α → Ddl} (h : ∀ x, (f x).statements = if p x then [s x] else []) :
    (collect items f).statements = (items.filter p).map s := by
  induction items with
  | nil => rfl
  | cons x items ih =>
    have hx : (collect (x :: items) f).statements
        = (f x).statements ++ (collect items f).statements := by simp [collect]
    rw [hx, ih, h x, List.filter_cons]
    split <;> simp

theorem ofTable_statements (previous target : Table) :
    (ofTable previous target).statements
      = (((staleIndexes previous target).map (·.name)).map .dropIndex
        ++ ((newColumns previous target).map addable).map (.addColumn target.name)
        ++ ((goneColumns previous target).map (·.name)).map (.dropColumn target.name))
        ++ (newIndexes previous target).map (.createIndex target.name) := by
  have hchecks : (if previous.checks = target.checks then ({} : Difference)
      else ⟨[], [.checksChanged target.name]⟩).statements = [] := by split <;> rfl
  rw [ofTable, append_statements, hchecks, List.append_nil]
  simp only [append_statements, List.map_map]
  congr 1
  · congr 1
    · congr 1
      · refine collect_statements fun i => ?_
        unfold ofOldIndex
        split
        next h => simp [h]
        next j h =>
          by_cases he : j = i
          · simp [h, he]
          · simp [h, he]
      · refine collect_statements fun k => ?_
        unfold ofColumn
        split
        next h => simp [h, ofNewColumn]
        next old h => split <;> simp [h]
    · refine collect_statements fun k => ?_
      unfold ofOldColumn
      split
      next h => simp [h]
      next h => simp [h]
  · refine collect_statements fun i => ?_
    unfold ofIndex
    split
    next h => simp [h]
    next h => simp [h]

/-- Only a table that is gone has no statements of its own. -/
theorem between_statements (previous target : Schema) :
    (between previous target).statements
      = (collect target.tables (ofNewTable previous)).statements := by
  have hold : (collect previous.tables (ofOldTable target)).statements = [] := by
    refine List.flatMap_eq_nil_iff.mpr fun t _ => ?_
    unfold ofOldTable
    split <;> rfl
  rw [between, append_statements, hold, List.append_nil]

/-- The statements that a table of the new schema gives rise to. -/
inductive Serves (known : Schema) (t : Table) : Ddl → Prop
  | createTable (new : known.table? t.name = none) : Serves known t (.createTable t)
  | createFirst {i : Index} (new : known.table? t.name = none) (hi : i ∈ t.indexes) :
    Serves known t (.createIndex t.name i)
  | dropIndex {old : Table} {i : Index} (ho : known.table? t.name = some old)
    (hi : i ∈ staleIndexes old t) : Serves known t (.dropIndex i.name)
  | addColumn {old : Table} {k : Column} (ho : known.table? t.name = some old)
    (hk : k ∈ newColumns old t) : Serves known t (.addColumn t.name (addable k))
  | dropColumn {old : Table} {k : Column} (ho : known.table? t.name = some old)
    (hk : k ∈ goneColumns old t) : Serves known t (.dropColumn t.name k.name)
  | createIndex {old : Table} {i : Index} (ho : known.table? t.name = some old)
    (hi : i ∈ newIndexes old t) : Serves known t (.createIndex t.name i)

theorem mem_ofNewTable {known : Schema} {t : Table} {s : Ddl} :
    s ∈ (ofNewTable known t).statements ↔ Serves known t s := by
  unfold ofNewTable
  cases ho : known.table? t.name with
  | none =>
    constructor
    · intro h
      rcases List.mem_cons.mp h with rfl | h
      · exact .createTable ho
      · obtain ⟨i, hi, rfl⟩ := List.mem_map.mp h
        exact .createFirst ho hi
    · intro h
      cases h with
      | createTable => exact List.mem_cons_self
      | createFirst _ hi => exact List.mem_cons_of_mem _ (List.mem_map_of_mem hi)
      | dropIndex h | addColumn h | dropColumn h | createIndex h => rw [ho] at h; cases h
  | some old =>
    dsimp only
    rw [ofTable_statements]
    simp only [List.map_map, List.mem_append, List.mem_map, Function.comp_apply]
    constructor
    · rintro (((⟨i, hi, rfl⟩ | ⟨k, hk, rfl⟩) | ⟨k, hk, rfl⟩) | ⟨i, hi, rfl⟩)
      · exact .dropIndex ho hi
      · exact .addColumn ho hk
      · exact .dropColumn ho hk
      · exact .createIndex ho hi
    · intro h
      cases h with
      | createTable h | createFirst h => rw [ho] at h; cases h
      | @dropIndex _ i h hi => cases ho.symm.trans h; exact .inl (.inl (.inl ⟨i, hi, rfl⟩))
      | @addColumn _ k h hk => cases ho.symm.trans h; exact .inl (.inl (.inr ⟨k, hk, rfl⟩))
      | @dropColumn _ k h hk => cases ho.symm.trans h; exact .inl (.inr ⟨k, hk, rfl⟩)
      | @createIndex _ i h hi => cases ho.symm.trans h; exact .inr ⟨i, hi, rfl⟩

/-- Each statement of a difference serves a table of the new schema, and all of those are there. -/
theorem mem_statements {known new : Schema} {s : Ddl} :
    s ∈ (between known new).statements ↔ ∃ t ∈ new.tables, Serves known t s := by
  rw [between_statements]
  simp only [collect, List.mem_flatMap, mem_ofNewTable]

/-- What is left out when a column is added to a table. -/
inductive Lacks (table : String) (k : Column) : Warning → Prop
  | constraints (lost : lostConstraints k ≠ []) :
    Lacks table k (.rebuildRequired table k.name (lostConstraints k))
  | default {value : DefaultValue} (hd : k.default = some value) (hv : value.isConstant = false) :
    Lacks table k (.nonConstantDefault table k.name value.sql)
  | value (hk : k.notNull = true) (ha : (addable k).notNull = false) :
    Lacks table k (.notNullWithoutDefault table k.name)

theorem mem_addWarnings {table : String} {k : Column} {w : Warning} :
    w ∈ addWarnings table k ↔ Lacks table k w := by
  unfold addWarnings
  simp only [List.mem_append]
  constructor
  · rintro ((hw | hw) | hw)
    · split at hw
      next => cases hw
      next lost => cases List.mem_singleton.mp hw; exact .constraints lost
    · split at hw
      next value hd =>
        split at hw
        next => cases hw
        next hv => cases List.mem_singleton.mp hw; exact .default hd (by simpa using hv)
      next => cases hw
    · split at hw
      next hnull =>
        rw [Bool.and_eq_true, Bool.not_eq_true'] at hnull
        cases List.mem_singleton.mp hw
        exact .value hnull.1 hnull.2
      next => cases hw
  · intro hw
    cases hw with
    | constraints lost => exact .inl (.inl (by simp [lost]))
    | default hd hv => exact .inl (.inr (by simp [hd, hv]))
    | value hk ha => exact .inr (by simp [hk, ha])

/-- What the difference of two tables of one name warns of. -/
inductive Warns (old t : Table) : Warning → Prop
  | indexDropped {i : Index} (hi : i ∈ old.indexes) (gone : t.index? i.name = none) :
    Warns old t (.indexDropped t.name i.name i.columns)
  | added {k : Column} {w : Warning} (hk : k ∈ newColumns old t) (lacks : Lacks t.name k w) :
    Warns old t w
  | columnChanged {k k' : Column} (hk : k ∈ t.columns) (known : old.column? k.name = some k')
    (changed : k'.same k = false) : Warns old t (.columnChanged t.name k.name)
  | columnDropped {k : Column} (hk : k ∈ goneColumns old t) :
    Warns old t (.columnDropped t.name k.name)
  | checksChanged (changed : old.checks ≠ t.checks) : Warns old t (.checksChanged t.name)

theorem mem_ofTable_warnings {old t : Table} {w : Warning} :
    w ∈ (ofTable old t).warnings ↔ Warns old t w := by
  simp only [ofTable, append_warnings, List.mem_append, collect, List.mem_flatMap]
  constructor
  · rintro ((((⟨i, hi, hw⟩ | ⟨k, hk, hw⟩) | ⟨k, hk, hw⟩) | ⟨i, hi, hw⟩) | hw)
    · unfold ofOldIndex at hw
      split at hw
      next gone => cases List.mem_singleton.mp hw; exact .indexDropped hi gone
      next => split at hw <;> cases hw
    · unfold ofColumn at hw
      split at hw
      next hnew =>
        exact .added (List.mem_filter.mpr ⟨hk, by rw [hnew]; rfl⟩) (mem_addWarnings.mp hw)
      next k' known =>
        split at hw
        next => cases hw
        next changed =>
          cases List.mem_singleton.mp hw
          exact .columnChanged hk known (by simpa using changed)
    · unfold ofOldColumn at hw
      split at hw
      next gone =>
        cases List.mem_singleton.mp hw
        exact .columnDropped (List.mem_filter.mpr ⟨hk, by rw [gone]; rfl⟩)
      next => cases hw
    · unfold ofIndex at hw
      split at hw <;> cases hw
    · split at hw
      next => cases hw
      next changed => cases List.mem_singleton.mp hw; exact .checksChanged changed
  · intro hw
    cases hw with
    | @indexDropped i hi gone =>
      exact .inl (.inl (.inl (.inl ⟨i, hi, by simp [ofOldIndex, gone]⟩)))
    | @added k _ hk lacks =>
      obtain ⟨hk, hnew⟩ := List.mem_filter.mp hk
      refine .inl (.inl (.inl (.inr ⟨k, hk, ?_⟩)))
      rw [ofColumn, Option.isNone_iff_eq_none.mp hnew]
      exact mem_addWarnings.mpr lacks
    | @columnChanged k k' hk known changed =>
      exact .inl (.inl (.inl (.inr ⟨k, hk, by simp [ofColumn, known, changed]⟩)))
    | @columnDropped k hk =>
      obtain ⟨hk, gone⟩ := List.mem_filter.mp hk
      refine .inl (.inl (.inr ⟨k, hk, ?_⟩))
      simp [ofOldColumn, Option.isNone_iff_eq_none.mp gone]
    | checksChanged changed => exact .inr (by simp [changed])

/-- Each warning of a difference is about a table that stays or one that is gone, and all of those
are there. -/
theorem mem_warnings {known new : Schema} {w : Warning} : w ∈ (between known new).warnings
    ↔ (∃ t ∈ new.tables, ∃ old, known.table? t.name = some old ∧ Warns old t w)
      ∨ ∃ t ∈ known.tables, new.table? t.name = none ∧ w = .tableRemoved t.name := by
  have hstays : ∀ t, w ∈ (ofNewTable known t).warnings
      ↔ ∃ old, known.table? t.name = some old ∧ Warns old t w := by
    intro t
    unfold ofNewTable
    cases known.table? t.name with
    | none => simp
    | some old => simp [mem_ofTable_warnings]
  have hgone : ∀ t, w ∈ (ofOldTable new t).warnings
      ↔ new.table? t.name = none ∧ w = .tableRemoved t.name := by
    intro t
    unfold ofOldTable
    cases new.table? t.name <;> simp
  simp only [between, append_warnings, List.mem_append, collect, List.mem_flatMap, hstays, hgone]

/-- The columns of a stored table after the difference of its declarations. -/
def settled (previous target : Table) (columns : List StoredColumn) : List StoredColumn :=
  (columns ++ ((newColumns previous target).map addable).map BareColumn.stored).filter fun k =>
    k.name ∉ (goneColumns previous target).map (·.name)

theorem mem_newColumns {k : Column} :
    k ∈ newColumns previous target
      ↔ k ∈ target.columns ∧ k.name ∉ previous.columns.map (·.name) := by
  rw [newColumns, List.mem_filter, Table.column?_isNone]

theorem mem_goneColumns {k : Column} :
    k ∈ goneColumns previous target
      ↔ k ∈ previous.columns ∧ k.name ∉ target.columns.map (·.name) := by
  rw [goneColumns, List.mem_filter, Table.column?_isNone]

theorem addable_names (ks : List Column) : (ks.map addable).map (·.name) = ks.map (·.name) := by
  rw [List.map_map]
  rfl

theorem names_of_added (ks : List Column) :
    ((ks.map addable).map BareColumn.stored).map (·.name) = ks.map (·.name) := by
  simp only [List.map_map]
  rfl

theorem mem_goneNames : name ∈ (goneColumns previous target).map (·.name)
    ↔ name ∈ previous.columns.map (·.name) ∧ name ∉ target.columns.map (·.name) := by
  constructor
  · intro h
    obtain ⟨k, hk, rfl⟩ := List.mem_map.mp h
    obtain ⟨hm, hn⟩ := mem_goneColumns.mp hk
    exact ⟨List.mem_map_of_mem hm, hn⟩
  · rintro ⟨hm, hn⟩
    obtain ⟨k, hk, rfl⟩ := List.mem_map.mp hm
    exact List.mem_map_of_mem (mem_goneColumns.mpr ⟨hk, hn⟩)

theorem mem_newNames : name ∈ (newColumns previous target).map (·.name)
    ↔ name ∈ target.columns.map (·.name) ∧ name ∉ previous.columns.map (·.name) := by
  constructor
  · intro h
    obtain ⟨k, hk, rfl⟩ := List.mem_map.mp h
    obtain ⟨hm, hn⟩ := mem_newColumns.mp hk
    exact ⟨List.mem_map_of_mem hm, hn⟩
  · rintro ⟨hm, hn⟩
    obtain ⟨k, hk, rfl⟩ := List.mem_map.mp hm
    exact List.mem_map_of_mem (mem_newColumns.mpr ⟨hk, hn⟩)

theorem grown_nodup (hp : (columns.map (·.name)).Perm (previous.columns.map (·.name)))
    (hd : (previous.columns.map (·.name)).Nodup) (ht : (target.columns.map (·.name)).Nodup) :
    (columns.map (·.name) ++ (newColumns previous target).map (·.name)).Nodup := by
  rw [List.nodup_append]
  refine ⟨hp.nodup_iff.mpr hd, ht.sublist (List.filter_sublist.map _), ?_⟩
  rintro a ha b hb rfl
  exact (mem_newNames.mp hb).2 (hp.mem_iff.mp ha)

theorem settled_names (previous target : Table) (columns : List StoredColumn) :
    (settled previous target columns).map (·.name)
      = (columns.map (·.name) ++ (newColumns previous target).map (·.name)).filter fun n =>
        n ∉ (goneColumns previous target).map (·.name) := by
  rw [← names_of_added (newColumns previous target), ← List.map_append, List.filter_map]
  rfl

/-- Whatever order the store has its columns in, it ends with those of the new declaration. -/
theorem settled_perm (hp : (columns.map (·.name)).Perm (previous.columns.map (·.name)))
    (hd : (previous.columns.map (·.name)).Nodup) (ht : (target.columns.map (·.name)).Nodup) :
    ((settled previous target columns).map (·.name)).Perm (target.columns.map (·.name)) := by
  rw [settled_names]
  refine (List.perm_ext_iff_of_nodup ((grown_nodup hp hd ht).filter _) ht).mpr fun n => ?_
  rw [List.mem_filter, decide_eq_true_eq, List.mem_append, hp.mem_iff, mem_newNames, mem_goneNames]
  constructor
  · rintro ⟨hm | hm, hkept⟩
    · exact Decidable.not_not.mp fun h => hkept ⟨hm, h⟩
    · exact hm.1
  · intro hm
    refine ⟨?_, fun h => h.2 hm⟩
    by_cases ho : n ∈ previous.columns.map (·.name)
    · exact .inl ho
    · exact .inr ⟨hm, ho⟩

/-- What is left on a table when the stale indexes are gone: the indexes that both declarations
have. Dropped columns are not covered by any of them. -/
theorem kept_index {i : StoredIndex} (hf : c.Follows previous) (hn : previous.name = target.name)
    (hi : i ∈ c.indexes) (hkept : i.name ∉ (staleIndexes previous target).map (·.name))
    (ht : i.table = target.name) : ∃ j ∈ target.indexes, i = j.stored target.name := by
  obtain ⟨j, hj, rfl⟩ := hf.indexes i hi (ht.trans hn.symm)
  refine ⟨j, ?_, by rw [hn]⟩
  by_cases he : target.index? j.name = some j
  · exact Table.index?_mem he
  · refine absurd (List.mem_map.mpr ⟨j, ?_, rfl⟩) hkept
    exact List.mem_filter.mpr ⟨hj, decide_eq_true he⟩

/-- The statements for a table are applicable one after the other wherever the store follows the old
declaration, and make it follow the new one; other tables are left alone. -/
theorem run_ofTable (hw : target.WellFormed) (hd : (previous.columns.map (·.name)).Nodup)
    (hn : previous.name = target.name) (hf : c.Follows previous)
    (hc : c.columns target.name = some columns) :
    ∃ c', c.run (ofTable previous target).statements = some c' ∧ c'.Follows target
      ∧ c'.columns = Function.update c.columns target.name (some (settled previous target columns))
      ∧ ∀ i ∈ c'.indexes, i.table ≠ target.name → i ∈ c.indexes := by
  have hp : (columns.map (·.name)).Perm (previous.columns.map (·.name)) := by
    obtain ⟨columns', hc', hp⟩ := hf.columns
    rw [hn, Option.mem_def, hc] at hc'
    cases hc'
    exact hp
  have hperm := settled_perm hp hd hw.columnsDistinct
  -- the stale indexes are dropped
  let kept := c.indexes.filter fun i => i.name ∉ (staleIndexes previous target).map (·.name)
  have hkept : ∀ i ∈ kept, i.table = target.name →
      ∃ j ∈ target.indexes, i = j.stored target.name := by
    intro i hi ht
    obtain ⟨hi, hs⟩ := List.mem_filter.mp hi
    exact kept_index hf hn hi (of_decide_eq_true hs) ht
  let dropped : Catalog := { c with indexes := kept }
  have hrun₁ := Catalog.run_dropIndexes ((staleIndexes previous target).map (·.name)) c
  -- the new columns are added
  have hdropped : dropped.columns target.name = some columns := hc
  have hrun₂ := Catalog.run_addColumns ((newColumns previous target).map addable) hdropped
    (by rw [addable_names]; exact grown_nodup hp hd hw.columnsDistinct)
  -- the gone columns are dropped
  have hrun₃ := Catalog.run_dropColumns
    (c := dropped.put target.name (columns ++
      ((newColumns previous target).map addable).map BareColumn.stored))
    ((goneColumns previous target).map (·.name)) Catalog.put_columns_self
    (hd.sublist (List.filter_sublist.map _))
    (by
      intro n hg
      rw [List.map_append, List.mem_append, hp.mem_iff]
      exact .inl (mem_goneNames.mp hg).1)
    (by
      intro i hi ht n hg hcover
      obtain ⟨j, hj, rfl⟩ := hkept i hi ht
      exact (mem_goneNames.mp hg).2 (hw.indexesCovered j hj n hcover))
  rw [Catalog.put_put] at hrun₃
  -- the new indexes are created
  obtain ⟨c', hrun₄, hcolumns, _, hindexes⟩ := Catalog.run_createIndexes
    (c := dropped.put target.name (settled previous target columns))
    (newIndexes previous target) Catalog.put_columns_self
    (by
      intro i hi n hcover
      exact hperm.mem_iff.mpr (hw.indexesCovered i (List.mem_filter.mp hi).1 n hcover))
  refine ⟨c', ?_, ⟨⟨_, ?_, hperm⟩, ?_⟩, hcolumns, ?_⟩
  · rw [ofTable_statements]
    exact Catalog.run_trans (Catalog.run_trans (Catalog.run_trans hrun₁ hrun₂) hrun₃) hrun₄
  · rw [hcolumns]
    exact Catalog.put_columns_self
  · intro i hi ht
    rcases hindexes i hi with hold | ⟨j, hj, rfl⟩
    · exact hkept i hold ht
    · exact ⟨j, (List.mem_filter.mp hj).1, rfl⟩
  · intro i hi ht
    rcases hindexes i hi with hold | ⟨j, hj, rfl⟩
    · exact (List.mem_filter.mp hold).1
    · exact absurd rfl ht

end Difference

end Tabularium
