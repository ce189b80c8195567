import Mathlib.Data.List.Pairwise
import Tabularium.Proofs.Schema.SelfDifference

namespace Tabularium

/-- What a store holds under the name of an index. -/
structure IndexEntry where
  table : String
  columns : List String
  unique : Bool
deriving DecidableEq

def Index.entry (table : String) (i : Index) : IndexEntry := ⟨table, i.columns, i.unique⟩

/-- The indexes of a store. Their names form one name space for all tables. -/
def IndexSpace : Type := String → Option IndexEntry

/-- The indexes that a schema declares. -/
def Schema.indexSpace (s : Schema) : IndexSpace := fun name =>
  s.tables.findSome? fun t => (t.index? name).map (Index.entry t.name)

/-- The index of a name that a schema declares for a table. -/
def Schema.indexOf? (s : Schema) (table name : String) : Option Index :=
  (s.table? table).bind (·.index? name)

namespace IndexSpace

variable {x : IndexSpace} {c c' : Catalog} {name table : String}

/-- The indexes after a statement. An index whose name is taken, on whatever table, is not
created. -/
def execute (x : IndexSpace) (s : Ddl) : IndexSpace := fun name =>
  match s with
  | .createIndex table i => if i.name = name then (x name).or (some (i.entry table)) else x name
  | .dropIndex dropped => if dropped = name then none else x name
  | .createTable _ | .addColumn .. | .dropColumn .. => x name

/-- The indexes after statements one after the other. -/
def executeAll (x : IndexSpace) (statements : List Ddl) : IndexSpace :=
  statements.foldl execute x

/-- The indexes on a table are exactly those that it declares. -/
def Holds (x : IndexSpace) (t : Table) : Prop :=
  ∀ i : Index, x i.name = some (i.entry t.name) ↔ i ∈ t.indexes

/-- A catalog has the same indexes. -/
def Matches (x : IndexSpace) (c : Catalog) : Prop :=
  ∀ i : StoredIndex, i ∈ c.indexes
    ↔ ∃ unique, x i.name = some ⟨i.table, i.columns, unique⟩

theorem executeAll_append (x : IndexSpace) (first rest : List Ddl) :
    x.executeAll (first ++ rest) = (x.executeAll first).executeAll rest :=
  List.foldl_append

theorem executeAll_other {statements : List Ddl}
    (h : ∀ s ∈ statements, ∀ y : IndexSpace, y.execute s = y) : x.executeAll statements = x := by
  induction statements with
  | nil => rfl
  | cons s rest ih =>
    rw [executeAll, List.foldl_cons, h s List.mem_cons_self]
    exact ih fun s hs => h s (List.mem_cons_of_mem _ hs)

theorem executeAll_drops (x : IndexSpace) (names : List String) (name : String) :
    x.executeAll (names.map .dropIndex) name = if name ∈ names then none else x name := by
  induction names generalizing x with
  | nil => rfl
  | cons dropped names ih =>
    rw [List.map_cons, executeAll, List.foldl_cons, ← executeAll, ih]
    by_cases hd : dropped = name
    · simp [execute, hd]
    · simp [execute, hd, Ne.symm hd]

/-- Of the indexes that are created under a name, only the first one can find it free. -/
theorem executeAll_creates (x : IndexSpace) (table : String) (created : List Index)
    (name : String) :
    x.executeAll (created.map (.createIndex table)) name
      = (x name).or ((created.find? fun i => i.name == name).map (Index.entry table)) := by
  induction created generalizing x with
  | nil => simp [executeAll]
  | cons i created ih =>
    rw [List.map_cons, executeAll, List.foldl_cons, ← executeAll, ih]
    by_cases hi : i.name = name
    · cases hx : x name <;> simp [execute, hi, hx]
    · simp [execute, hi]

theorem Matches.taken_iff (h : x.Matches c) : c.Taken name ↔ (x name).isSome := by
  constructor
  · intro ht
    obtain ⟨i, hi, rfl⟩ := List.mem_map.mp ht
    obtain ⟨unique, hx⟩ := (h i).mp hi
    rw [hx]
    rfl
  · intro hs
    obtain ⟨e, he⟩ := Option.isSome_iff_exists.mp hs
    exact List.mem_map.mpr ⟨⟨name, e.table, e.columns⟩, (h _).mpr ⟨e.unique, he⟩, rfl⟩

theorem Matches.create (h : x.Matches c) (table : String) (i : Index) :
    (x.execute (.createIndex table i)).Matches (c.execute (.createIndex table i)) := by
  intro k
  by_cases ht : c.Taken i.name
  · obtain ⟨e, he⟩ := Option.isSome_iff_exists.mp (h.taken_iff.mp ht)
    have hkept : x.execute (.createIndex table i) k.name = x k.name := by
      by_cases hn : i.name = k.name
      · simp [IndexSpace.execute, hn, hn ▸ he]
      · simp [IndexSpace.execute, hn]
    rw [hkept, Catalog.execute, if_pos ht]
    exact h k
  · have hnone : x i.name = none := by
      rw [← Option.not_isSome_iff_eq_none, ← h.taken_iff]
      exact ht
    rw [Catalog.execute, if_neg ht, List.mem_append, List.mem_singleton]
    by_cases hn : i.name = k.name
    · have hfresh : k ∉ c.indexes := fun hk => ht (hn ▸ List.mem_map_of_mem hk)
      have hnew : x.execute (.createIndex table i) k.name = some (i.entry table) := by
        simp [IndexSpace.execute, hn, hn ▸ hnone]
      rw [hnew]
      obtain ⟨kname, ktable, kcolumns⟩ := k
      subst hn
      simp [hfresh, Index.stored, Index.entry, eq_comm]
    · have hother : k ≠ i.stored table := fun he => hn (congrArg StoredIndex.name he).symm
      simp [IndexSpace.execute, hn, hother, h k]

theorem Matches.execute (h : x.Matches c) (s : Ddl) : (x.execute s).Matches (c.execute s) := by
  cases s with
  | createIndex table i => exact h.create table i
  | createTable t =>
    have hsame : (c.execute (.createTable t)).indexes = c.indexes := by
      rw [Catalog.execute]
      split <;> rfl
    intro k
    rw [hsame]
    exact h k
  | dropIndex dropped =>
    intro k
    by_cases hd : dropped = k.name
    · simp [Catalog.execute, IndexSpace.execute, hd]
    · simp [Catalog.execute, IndexSpace.execute, hd, Ne.symm hd, h k]
  | addColumn table column => exact h
  | dropColumn table column => exact h

/-- As far as a catalog executes statements, it has the indexes of the name space. -/
theorem Matches.run {statements : List Ddl} (h : x.Matches c)
    (hr : c.run statements = some c') : (x.executeAll statements).Matches c' := by
  induction statements generalizing x c with
  | nil => cases hr; exact h
  | cons s rest ih =>
    rw [Catalog.run] at hr
    split at hr
    next => exact ih (h.execute s) hr
    next => cases hr

end IndexSpace

namespace Schema

variable {s : Schema} {t u : Table} {i j : Index} {table name : String}

/-- An index name stands for one table and one index of it. -/
theorem IndexesDistinct.unique (h : s.IndexesDistinct) (ht : t ∈ s.tables) (hi : i ∈ t.indexes)
    (hu : u ∈ s.tables) (hj : j ∈ u.indexes) (hn : i.name = j.name) : t = u ∧ i = j := by
  obtain ⟨hinner, houter⟩ := List.nodup_flatMap.mp h
  have htu : t = u := by
    by_contra hne
    have hsymm : Std.Symm (Function.onFun List.Disjoint fun t : Table => t.indexes.map (·.name)) :=
      ⟨fun _ _ => List.disjoint_symm⟩
    exact houter.forall ht hu hne (List.mem_map_of_mem hi) (hn ▸ List.mem_map_of_mem hj)
  subst htu
  exact ⟨rfl, List.inj_on_of_nodup_map (hinner t ht) hi hj hn⟩

theorem IndexesDistinct.agree (h : s.IndexesDistinct) (ht : t ∈ s.tables) : t.IndexesAgree :=
  fun _ hi _ hj hn => (h.unique ht hi ht hj hn).2

theorem indexSpace_eq_some (h : s.IndexesDistinct) {e : IndexEntry} :
    s.indexSpace name = some e
      ↔ ∃ t ∈ s.tables, ∃ i ∈ t.indexes, i.name = name ∧ i.entry t.name = e := by
  unfold indexSpace
  constructor
  · intro hsome
    obtain ⟨t, ht, he⟩ := List.exists_of_findSome?_eq_some hsome
    obtain ⟨i, hi, he⟩ := Option.map_eq_some_iff.mp he
    exact ⟨t, ht, i, Table.index?_mem hi, Table.index?_name hi, he⟩
  · rintro ⟨t, ht, i, hi, rfl, rfl⟩
    cases hf : s.tables.findSome? fun t => (t.index? i.name).map (Index.entry t.name) with
    | none =>
      have hnone := List.findSome?_eq_none_iff.mp hf t ht
      rw [(h.agree ht).index?_of_mem hi] at hnone
      cases hnone
    | some e =>
      obtain ⟨u, hu, he⟩ := List.exists_of_findSome?_eq_some hf
      obtain ⟨j, hj, rfl⟩ := Option.map_eq_some_iff.mp he
      obtain ⟨rfl, rfl⟩ :=
        h.unique ht hi hu (Table.index?_mem hj) (Table.index?_name hj).symm
      rfl

theorem indexSpace_matches (h : s.IndexesDistinct) : s.indexSpace.Matches s.catalog := by
  intro k
  simp only [indexSpace_eq_some h]
  constructor
  · intro hk
    obtain ⟨t, ht, hk⟩ := List.mem_flatMap.mp hk
    obtain ⟨i, hi, rfl⟩ := List.mem_map.mp hk
    exact ⟨i.unique, t, ht, i, hi, rfl, rfl⟩
  · rintro ⟨unique, t, ht, i, hi, hn, he⟩
    refine List.mem_flatMap.mpr ⟨t, ht, List.mem_map.mpr ⟨i, hi, ?_⟩⟩
    obtain ⟨kname, ktable, kcolumns⟩ := k
    cases hn
    cases he
    rfl

theorem indexOf?_eq_some (hd : s.tableNames.Nodup) (h : s.IndexesDistinct) :
    s.indexOf? table name = some i
      ↔ ∃ t ∈ s.tables, t.name = table ∧ i ∈ t.indexes ∧ i.name = name := by
  constructor
  · intro hs
    obtain ⟨t, ht, hi⟩ := Option.bind_eq_some_iff.mp hs
    obtain ⟨hm, hn⟩ := table?_mem ht
    exact ⟨t, hm, hn, Table.index?_mem hi, Table.index?_name hi⟩
  · rintro ⟨t, ht, rfl, hi, rfl⟩
    rw [indexOf?, table?_of_mem hd ht, Option.bind_some, (h.agree ht).index?_of_mem hi]

/-- A name is declared for one table only. -/
theorem indexOf?_of_mem (hd : s.tableNames.Nodup) (h : s.IndexesDistinct) (ht : t ∈ s.tables)
    (hi : i ∈ t.indexes) (table : String) :
    s.indexOf? table i.name = if t.name = table then some i else none := by
  split
  next htable => exact (indexOf?_eq_some hd h).mpr ⟨t, ht, htable, hi, rfl⟩
  next htable =>
    by_contra hsome
    obtain ⟨j, hj⟩ := Option.ne_none_iff_exists'.mp hsome
    obtain ⟨u, hu, hn, hj, hij⟩ := (indexOf?_eq_some hd h).mp hj
    obtain ⟨rfl, -⟩ := h.unique ht hi hu hj hij.symm
    exact htable hn

theorem indexOf?_of_indexSpace (hd : s.tableNames.Nodup) (h : s.IndexesDistinct) {e : IndexEntry}
    (he : s.indexSpace name = some e) :
    ∃ i, s.indexOf? e.table name = some i ∧ i.entry e.table = e := by
  obtain ⟨t, ht, i, hi, rfl, rfl⟩ := (indexSpace_eq_some h).mp he
  exact ⟨i, (indexOf?_eq_some hd h).mpr ⟨t, ht, rfl, hi, rfl⟩, rfl⟩

end Schema

end Tabularium
