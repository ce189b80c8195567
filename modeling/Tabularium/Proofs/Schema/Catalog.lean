import Mathlib.Logic.Function.Basic
import Tabularium.Schema.Ddl

namespace Tabularium

/-- A column in a store: its name and the text that defines it. -/
structure StoredColumn where
  name : String
  definition : String
deriving DecidableEq

/-- An index in a store. -/
structure StoredIndex where
  name : String
  table : String
  columns : List String
deriving DecidableEq

/-- The column of a new table. -/
def Column.stored (c : Column) : StoredColumn := ⟨c.name, c.sql⟩

/-- The column that is added to a table. -/
def BareColumn.stored (c : BareColumn) : StoredColumn := ⟨c.name, c.sql⟩

def Index.stored (table : String) (i : Index) : StoredIndex := ⟨i.name, table, i.columns⟩

/-- What a store holds: the columns of each of its tables, and its indexes. -/
structure Catalog where
  columns : String → Option (List StoredColumn)
  indexes : List StoredIndex

/-- The catalog of a store that holds exactly what a schema declares. -/
def Schema.catalog (s : Schema) : Catalog where
  columns name := (s.table? name).map fun t => t.columns.map Column.stored
  indexes := s.tables.flatMap fun t => t.indexes.map (Index.stored t.name)

namespace Catalog

variable {c c' c'' : Catalog} {table name : String} {columns : List StoredColumn}
  {first rest : List Ddl}

/-- The catalog of a store without tables. -/
def blank : Catalog := ⟨fun _ => none, []⟩

def put (c : Catalog) (table : String) (columns : List StoredColumn) : Catalog :=
  { c with columns := Function.update c.columns table (some columns) }

def Taken (c : Catalog) (index : String) : Prop :=
  index ∈ c.indexes.map (·.name)

instance : Decidable (c.Taken name) := inferInstanceAs (Decidable (_ ∈ _))

/-- A store can execute a statement. A column can be dropped only when no index covers it. -/
def Applicable (c : Catalog) : Ddl → Prop
  | .createTable _ => True
  | .createIndex table index =>
    c.Taken index.name
      ∨ ∃ columns ∈ c.columns table, ∀ name ∈ index.columns, name ∈ columns.map (·.name)
  | .dropIndex _ => True
  | .addColumn table column =>
    ∃ columns ∈ c.columns table, column.name ∉ columns.map (·.name)
  | .dropColumn table column =>
    ∃ columns ∈ c.columns table, column ∈ columns.map (·.name)
      ∧ ∀ i ∈ c.indexes, i.table = table → column ∉ i.columns

instance : (s : Ddl) → Decidable (c.Applicable s)
  | .createTable _ => inferInstanceAs (Decidable True)
  | .createIndex .. => inferInstanceAs (Decidable (_ ∨ _))
  | .dropIndex _ => inferInstanceAs (Decidable True)
  | .addColumn .. => inferInstanceAs (Decidable (∃ _ ∈ _, _))
  | .dropColumn .. => inferInstanceAs (Decidable (∃ _ ∈ _, _))

/-- The catalog after a statement. A table or an index whose name is taken is left as it is. -/
def execute (c : Catalog) : Ddl → Catalog
  | .createTable t =>
    match c.columns t.name with
    | some _ => c
    | none => c.put t.name (t.columns.map Column.stored)
  | .createIndex table index =>
    if c.Taken index.name then c else { c with indexes := c.indexes ++ [index.stored table] }
  | .dropIndex name => { c with indexes := c.indexes.filter fun i => i.name ≠ name }
  | .addColumn table column => c.put table ((c.columns table).getD [] ++ [column.stored])
  | .dropColumn table column =>
    c.put table (((c.columns table).getD []).filter fun k => k.name ≠ column)

/-- The catalog after statements one after the other, unless one of them is not applicable. -/
def run (c : Catalog) : List Ddl → Option Catalog
  | [] => some c
  | s :: rest => if c.Applicable s then (c.execute s).run rest else none

theorem run_cons {s : Ddl} (h : c.Applicable s) : c.run (s :: rest) = (c.execute s).run rest :=
  if_pos h

theorem run_append (c : Catalog) (first rest : List Ddl) :
    c.run (first ++ rest) = (c.run first).bind fun c' => c'.run rest := by
  induction first generalizing c with
  | nil => rfl
  | cons s first ih =>
    rw [List.cons_append, run, run]
    split
    next => exact ih (c.execute s)
    next => rfl

theorem run_trans (hf : c.run first = some c') (hr : c'.run rest = some c'') :
    c.run (first ++ rest) = some c'' := by
  rw [run_append, hf, Option.bind_some, hr]

@[simp] theorem put_columns_self : (c.put table columns).columns table = some columns :=
  Function.update_self ..

@[simp] theorem put_put {columns' : List StoredColumn} :
    (c.put table columns).put table columns' = c.put table columns' := by
  simp only [put, Function.update_idem]

theorem put_self (h : c.columns table = some columns) : c.put table columns = c := by
  simp only [put, ← h, Function.update_eq_self]

/-- Dropping indexes leaves those with other names. -/
theorem run_dropIndexes (names : List String) (c : Catalog) :
    c.run (names.map .dropIndex)
      = some { c with indexes := c.indexes.filter fun i => i.name ∉ names } := by
  induction names generalizing c with
  | nil => rw [List.filter_eq_self.mpr (by simp)]; rfl
  | cons name names ih =>
    have ha : c.Applicable (.dropIndex name) := trivial
    rw [List.map_cons, run_cons ha, ih]
    simp only [execute, List.filter_filter, List.mem_cons, not_or, Bool.decide_and]
    simp only [Bool.and_comm, ne_eq]

theorem run_addColumns (added : List BareColumn) (hc : c.columns table = some columns)
    (hn : (columns.map (·.name) ++ added.map (·.name)).Nodup) :
    c.run (added.map (.addColumn table))
      = some (c.put table (columns ++ added.map BareColumn.stored)) := by
  induction added generalizing c columns with
  | nil => simp [run, put_self hc]
  | cons k added ih =>
    have hk : k.name ∉ columns.map (·.name) := fun hm =>
      (List.nodup_append.mp hn).2.2 _ hm _ List.mem_cons_self rfl
    have ha : c.Applicable (.addColumn table k) := ⟨columns, hc, hk⟩
    rw [List.map_cons, run_cons ha, execute, hc, Option.getD_some]
    have hn' : ((columns ++ [k.stored]).map (·.name) ++ added.map (·.name)).Nodup := by
      simpa [BareColumn.stored] using hn
    rw [ih put_columns_self hn', put_put, List.append_assoc, List.singleton_append, List.map_cons]

theorem run_dropColumns (gone : List String) (hc : c.columns table = some columns)
    (hg : gone.Nodup) (hp : ∀ name ∈ gone, name ∈ columns.map (·.name))
    (hi : ∀ i ∈ c.indexes, i.table = table → ∀ name ∈ gone, name ∉ i.columns) :
    c.run (gone.map (.dropColumn table))
      = some (c.put table (columns.filter fun k => k.name ∉ gone)) := by
  induction gone generalizing c columns with
  | nil => rw [List.filter_eq_self.mpr (by simp), put_self hc]; rfl
  | cons name gone ih =>
    obtain ⟨hfresh, hg⟩ := List.nodup_cons.mp hg
    have ha : c.Applicable (.dropColumn table name) :=
      ⟨columns, hc, hp name List.mem_cons_self, fun i him ht => hi i him ht name List.mem_cons_self⟩
    rw [List.map_cons, run_cons ha, execute, hc, Option.getD_some]
    have hp' : ∀ n ∈ gone, n ∈ (columns.filter fun k => k.name ≠ name).map (·.name) := by
      intro n hn
      obtain ⟨k, hk, he⟩ := List.mem_map.mp (hp n (List.mem_cons_of_mem _ hn))
      refine List.mem_map.mpr ⟨k, List.mem_filter.mpr ⟨hk, decide_eq_true ?_⟩, he⟩
      rintro rfl
      exact hfresh (he ▸ hn)
    rw [ih put_columns_self hg hp' fun i him ht n hn =>
      hi i him ht n (List.mem_cons_of_mem _ hn), put_put]
    congr 2
    simp only [List.filter_filter, List.mem_cons, not_or, Bool.decide_and, ne_eq, Bool.and_comm]

/-- Creating indexes over columns that are there keeps the indexes and adds some of the new ones. -/
theorem run_createIndexes (created : List Index) (hc : c.columns table = some columns)
    (hi : ∀ i ∈ created, ∀ name ∈ i.columns, name ∈ columns.map (·.name)) :
    ∃ c', c.run (created.map (.createIndex table)) = some c' ∧ c'.columns = c.columns
      ∧ (∀ i ∈ c.indexes, i ∈ c'.indexes)
      ∧ ∀ i ∈ c'.indexes, i ∈ c.indexes ∨ ∃ j ∈ created, i = j.stored table := by
  induction created generalizing c with
  | nil => exact ⟨c, rfl, rfl, fun _ h => h, fun _ h => .inl h⟩
  | cons k created ih =>
    have ha : c.Applicable (.createIndex table k) :=
      .inr ⟨columns, hc, hi k List.mem_cons_self⟩
    have hcolumns : (c.execute (.createIndex table k)).columns = c.columns := by
      rw [execute]
      split <;> rfl
    obtain ⟨c', hr, he, hkept, hnew⟩ := ih (c := c.execute (.createIndex table k))
      (by rw [hcolumns, hc]) fun i him => hi i (List.mem_cons_of_mem _ him)
    have hgrow : ∀ i, i ∈ (c.execute (.createIndex table k)).indexes →
        i ∈ c.indexes ∨ i = k.stored table := by
      intro i him
      rw [execute] at him
      split at him
      next => exact .inl him
      next => simpa using him
    refine ⟨c', by rw [List.map_cons, run_cons ha, hr], he.trans hcolumns, ?_, ?_⟩
    · intro i him
      apply hkept
      rw [execute]
      split
      next => exact him
      next => exact List.mem_append_left _ him
    · intro i him
      rcases hnew i him with hm | ⟨j, hj, hm⟩
      · rcases hgrow i hm with hm | hm
        · exact .inl hm
        · exact .inr ⟨k, List.mem_cons_self, hm⟩
      · exact .inr ⟨j, List.mem_cons_of_mem _ hj, hm⟩

end Catalog

end Tabularium
