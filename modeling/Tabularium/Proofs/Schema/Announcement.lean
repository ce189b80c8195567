import Tabularium.Proofs.Schema.Convergence
import Tabularium.Proofs.Schema.IndexSpace

namespace Tabularium

/-- The text of a statement that changes a schema, whose names stand without quotes: a table or an
index is created, an index is dropped, or a column is added or dropped. -/
inductive ChangesSchema : Ddl → String → Prop
  | createTable {t : Table} {rest : String} (ht : isIdentifier t.name = true) :
    ChangesSchema (.createTable t) ("CREATE TABLE IF NOT EXISTS " ++ t.name ++ " (\n  " ++ rest)
  | createIndex {table : String} {i : Index} (hi : isIdentifier i.name = true)
    (ht : isIdentifier table = true) :
    ChangesSchema (.createIndex table i) ("CREATE " ++ (if i.unique then "UNIQUE " else "")
      ++ "INDEX IF NOT EXISTS " ++ i.name ++ " ON " ++ table ++ "("
      ++ separated ", " i.columns ++ ")")
  | dropIndex {index : String} (hi : isIdentifier index = true) :
    ChangesSchema (.dropIndex index) ("DROP INDEX IF EXISTS " ++ index)
  | addColumn {table rest : String} {k : BareColumn} (ht : isIdentifier table = true)
    (hk : isIdentifier k.name = true) :
    ChangesSchema (.addColumn table k)
      ("ALTER TABLE " ++ table ++ " ADD COLUMN " ++ k.name ++ " " ++ rest)
  | dropColumn {table column : String} (ht : isIdentifier table = true)
    (hk : isIdentifier column = true) :
    ChangesSchema (.dropColumn table column)
      ("ALTER TABLE " ++ table ++ " DROP COLUMN " ++ column)

namespace Catalog

variable {c c' : Catalog} {table : String} {s : Ddl} {statements : List Ddl}

/-- A statement concerns a table of a store. To drop an index concerns the table that has it. -/
def Touches (c : Catalog) (table : String) : Ddl → Prop
  | .createTable t => t.name = table
  | .createIndex t _ | .addColumn t _ | .dropColumn t _ => t = table
  | .dropIndex name => ∃ i ∈ c.indexes, i.name = name ∧ i.table = table

/-- A table has the same columns and the same indexes in both stores. -/
structure Keeps (c c' : Catalog) (table : String) : Prop where
  columns : c'.columns table = c.columns table
  indexes : ∀ i, i.table = table → (i ∈ c'.indexes ↔ i ∈ c.indexes)

theorem Keeps.touches_iff (h : c.Keeps c' table) : c'.Touches table s ↔ c.Touches table s := by
  cases s with
  | dropIndex name =>
    have both : ∀ i, (i ∈ c'.indexes ∧ i.name = name ∧ i.table = table)
        ↔ (i ∈ c.indexes ∧ i.name = name ∧ i.table = table) := fun i =>
      ⟨fun ⟨hi, hn, ht⟩ => ⟨(h.indexes i ht).mp hi, hn, ht⟩,
        fun ⟨hi, hn, ht⟩ => ⟨(h.indexes i ht).mpr hi, hn, ht⟩⟩
    exact exists_congr both
  | _ => exact Iff.rfl

/-- A statement leaves a table alone that it does not concern. -/
theorem keeps_execute (h : ¬ c.Touches table s) : c.Keeps (c.execute s) table := by
  have put : ∀ {name : String} {columns : List StoredColumn}, name ≠ table →
      c.Keeps (c.put name columns) table := fun hn =>
    ⟨Function.update_of_ne hn.symm _ _, fun _ _ => Iff.rfl⟩
  cases s with
  | createTable t =>
    rw [execute]
    split
    next => exact ⟨rfl, fun _ _ => Iff.rfl⟩
    next => exact put h
  | createIndex name i =>
    rw [execute]
    split
    next => exact ⟨rfl, fun _ _ => Iff.rfl⟩
    next =>
      refine ⟨rfl, fun j hj => ?_⟩
      simp only [List.mem_append, List.mem_singleton, or_iff_left_iff_imp]
      rintro rfl
      exact absurd hj h
  | dropIndex name =>
    refine ⟨rfl, fun j hj => ?_⟩
    rw [execute, List.mem_filter, decide_eq_true_eq]
    exact and_iff_left_of_imp fun hm hn => h ⟨j, hm, hn, hj⟩
  | addColumn name k => exact put h
  | dropColumn name k => exact put h

/-- A run leaves a table alone that none of its statements concerns. -/
theorem keeps_run (h : ∀ s ∈ statements, ¬ c.Touches table s) (hr : c.run statements = some c') :
    c.Keeps c' table := by
  suffices run : ∀ {c₀ : Catalog}, c.Keeps c₀ table → c₀.run statements = some c' →
      c.Keeps c' table from run ⟨rfl, fun _ _ => Iff.rfl⟩ hr
  clear hr
  induction statements with
  | nil =>
    intro c₀ kept hr
    cases hr
    exact kept
  | cons s rest ih =>
    intro c₀ kept hr
    rw [run] at hr
    split at hr
    next =>
      have step := keeps_execute (mt kept.touches_iff.mp (h s List.mem_cons_self))
      exact ih (fun s hs => h s (List.mem_cons_of_mem _ hs))
        ⟨step.columns.trans kept.columns, fun i hi => (step.indexes i hi).trans (kept.indexes i hi)⟩
        hr
    next => cases hr

end Catalog

/-- The table and the column that a statement drops. -/
def Ddl.droppedColumn? : Ddl → Option (String × String)
  | .dropColumn table column => some (table, column)
  | _ => none

/-- The table and the column of which a warning says that it is dropped. -/
def Warning.droppedColumn? : Warning → Option (String × String)
  | .columnDropped table column => some (table, column)
  | _ => none

namespace Difference

/-- Nothing is lost by a difference unless a warning says so. -/
structure Announces (previous target : Schema) (d : Difference) : Prop where
  kinds : ∀ s ∈ d.statements, ChangesSchema s s.sql
  /-- The columns that are dropped are those that warnings name, each of them once. -/
  columns : d.statements.filterMap Ddl.droppedColumn? = d.warnings.filterMap Warning.droppedColumn?
  columnsOnce : (d.statements.filterMap Ddl.droppedColumn?).Nodup
  columnsGone : ∀ table column, .dropColumn table column ∈ d.statements ↔
    (∃ old ∈ previous.tables, old.name = table ∧ column ∈ old.columns.map (·.name))
      ∧ ∃ t ∈ target.tables, t.name = table ∧ column ∉ t.columns.map (·.name)
  /-- An index that is dropped is named by a warning with the columns that it covers, or created
  again behind that. -/
  indexes : ∀ front name back, d.statements = front ++ .dropIndex name :: back →
    ∃ old ∈ previous.tables, ∃ i ∈ old.indexes, i.name = name
      ∧ (.indexDropped old.name name i.columns ∈ d.warnings
        ∨ ∃ j, j.name = name ∧ .createIndex old.name j ∈ back)
  /-- A table that is gone from the schema is not touched, and so it is in the end as it was. -/
  untouched : ∀ old ∈ previous.tables, old.name ∉ target.tableNames →
    (∀ s ∈ d.statements, ¬ previous.catalog.Touches old.name s)
      ∧ ∃ final, previous.catalog.run d.statements = some final
        ∧ previous.catalog.Keeps final old.name

/-- The columns that are dropped are those that warnings name. -/
def Paired (d : Difference) : Prop :=
  d.statements.filterMap Ddl.droppedColumn? = d.warnings.filterMap Warning.droppedColumn?

section

variable {previous target : Schema} {old t : Table} {d e : Difference}

theorem paired_append (hd : d.Paired) (he : e.Paired) : (d ++ e).Paired := by
  unfold Paired at *
  rw [append_statements, append_warnings, List.filterMap_append, List.filterMap_append, hd, he]

theorem paired_collect {α : Type} {items : List α} {f : α → Difference}
    (h : ∀ x ∈ items, (f x).Paired) : (collect items f).Paired := by
  unfold Paired collect
  rw [List.filterMap_flatMap, List.filterMap_flatMap]
  exact List.flatMap_congr h

theorem paired_ofNewColumn (table : String) (k : Column) : (ofNewColumn table k).Paired := by
  have none : (addWarnings table k).filterMap Warning.droppedColumn? = [] := by
    rw [List.filterMap_eq_nil_iff]
    intro w hw
    cases mem_addWarnings.mp hw <;> rfl
  exact none.symm

theorem paired_ofTable (old t : Table) : (ofTable old t).Paired := by
  refine paired_append (paired_append (paired_append (paired_append ?_ ?_) ?_) ?_) ?_
  · refine paired_collect fun i _ => ?_
    unfold ofOldIndex
    split
    next => rfl
    next => split <;> rfl
  · refine paired_collect fun k _ => ?_
    unfold ofColumn
    split
    next => exact paired_ofNewColumn t.name k
    next => split <;> rfl
  · refine paired_collect fun k _ => ?_
    unfold ofOldColumn
    split <;> rfl
  · refine paired_collect fun i _ => ?_
    unfold ofIndex
    split <;> rfl
  · split <;> rfl

theorem paired_between (previous target : Schema) : (between previous target).Paired := by
  refine paired_append (paired_collect fun t _ => ?_) (paired_collect fun t _ => ?_)
  · unfold ofNewTable
    split
    next =>
      have none : t.ddl.filterMap Ddl.droppedColumn? = [] := by
        simp [Table.ddl, Ddl.droppedColumn?]
      exact none
    next old _ => exact paired_ofTable old t
  · unfold ofOldTable
    split <;> rfl

/-- The columns that are dropped of a table of the new schema. -/
def droppedOf (previous : Schema) (t : Table) : List (String × String) :=
  match previous.table? t.name with
  | none => []
  | some old => (goneColumns old t).map fun k => (t.name, k.name)

theorem droppedColumns_eq (previous target : Schema) :
    (between previous target).statements.filterMap Ddl.droppedColumn?
      = target.tables.flatMap (droppedOf previous) := by
  rw [between_statements, collect, List.filterMap_flatMap]
  refine List.flatMap_congr fun t _ => ?_
  unfold ofNewTable droppedOf
  cases previous.table? t.name with
  | none => simp [Table.ddl, Ddl.droppedColumn?]
  | some old =>
    dsimp only
    rw [ofTable_statements]
    simp [List.filterMap_append, List.filterMap_map, Function.comp_def, Ddl.droppedColumn?]

theorem droppedOf_table {x : String × String} (h : x ∈ droppedOf previous t) : x.1 = t.name := by
  unfold droppedOf at h
  split at h
  next => cases h
  next =>
    obtain ⟨k, _, rfl⟩ := List.mem_map.mp h
    rfl

theorem droppedOf_nodup (hp : previous.WellFormed) (t : Table) : (droppedOf previous t).Nodup := by
  unfold droppedOf
  split
  next => exact List.nodup_nil
  next old ho =>
    have names : ((goneColumns old t).map (·.name)).Nodup :=
      (hp.tables old (Schema.table?_mem ho).1).columnsDistinct.sublist (List.filter_sublist.map _)
    have pairs := names.map fun (a b : String) (h : (t.name, a) = (t.name, b)) => (Prod.mk.inj h).2
    rwa [List.map_map] at pairs

theorem droppedColumns_nodup (hp : previous.WellFormed) (ht : target.tableNames.Nodup) :
    ((between previous target).statements.filterMap Ddl.droppedColumn?).Nodup := by
  rw [droppedColumns_eq, List.nodup_flatMap]
  refine ⟨fun t _ => droppedOf_nodup hp t, (List.pairwise_map.mp ht).imp fun {t u} hne => ?_⟩
  exact fun x hx hu => hne ((droppedOf_table hx).symm.trans (droppedOf_table hu))

theorem mem_drops (hp : previous.tableNames.Nodup) {table column : String} :
    .dropColumn table column ∈ (between previous target).statements ↔
    (∃ old ∈ previous.tables, old.name = table ∧ column ∈ old.columns.map (·.name))
      ∧ ∃ t ∈ target.tables, t.name = table ∧ column ∉ t.columns.map (·.name) := by
  rw [mem_statements]
  constructor
  · rintro ⟨t, htm, serves⟩
    cases serves with
    | dropColumn ho hk =>
      obtain ⟨hm, hn⟩ := Schema.table?_mem ho
      obtain ⟨hold, hgone⟩ := mem_goneColumns.mp hk
      exact ⟨⟨_, hm, hn, List.mem_map_of_mem hold⟩, t, htm, rfl, hgone⟩
  · rintro ⟨⟨old, hm, hn, hold⟩, t, htm, rfl, hgone⟩
    obtain ⟨k, hk, rfl⟩ := List.mem_map.mp hold
    have ho : previous.table? t.name = some old := hn ▸ Schema.table?_of_mem hp hm
    exact ⟨t, htm, .dropColumn ho (mem_goneColumns.mpr ⟨hk, hgone⟩)⟩

/-- The names in the statements of a difference are declared by the schemas. -/
theorem between_kinds (hp : previous.WellFormed) (ht : target.WellFormed) :
    ∀ s ∈ (between previous target).statements, ChangesSchema s s.sql := by
  intro s hs
  obtain ⟨t, htm, serves⟩ := mem_statements.mp hs
  have hw := ht.tables t htm
  have known : ∀ {old : Table}, previous.table? t.name = some old → old.WellFormed := fun ho =>
    hp.tables _ (Schema.table?_mem ho).1
  have created : ∀ i ∈ t.indexes, ChangesSchema (.createIndex t.name i)
      (Ddl.createIndex t.name i).sql := by
    intro i hi
    have text := ChangesSchema.createIndex (hw.indexesNamed i hi) hw.named
    exact text
  cases serves with
  | createTable =>
    have text := @ChangesSchema.createTable t (separated ",\n  " (Ddl.tableParts t) ++ "\n)")
      hw.named
    rwa [← String.append_assoc] at text
  | createFirst _ hi => exact created _ hi
  | dropIndex ho hi => exact .dropIndex ((known ho).indexesNamed _ (List.mem_filter.mp hi).1)
  | @addColumn _ k _ hk =>
    have text := @ChangesSchema.addColumn t.name (k.type.sqlName
      ++ (if (addable k).notNull then " NOT NULL" else "") ++ defaultClause (addable k).default)
      (addable k) hw.named (hw.columnsNamed k (mem_newColumns.mp hk).1)
    have sql : (Ddl.addColumn t.name (addable k)).sql
        = "ALTER TABLE " ++ t.name ++ " ADD COLUMN " ++ (addable k).sql := rfl
    rw [sql, BareColumn.sql]
    simp only [String.append_assoc] at text ⊢
    exact text
  | dropColumn ho hk =>
    exact .dropColumn hw.named ((known ho).columnsNamed _ (mem_goneColumns.mp hk).1)
  | createIndex _ hi => exact created _ (List.mem_filter.mp hi).1

/-- What stands in the second of two parts stands behind what is in the first only. -/
theorem mem_behind {α : Type} {first second front back : List α} {x y : α}
    (h : first ++ second = front ++ x :: back) (hx : x ∉ second) (hy : y ∈ second) : y ∈ back := by
  rcases List.append_eq_append_iff.mp h with ⟨middle, _, hsecond⟩ | ⟨middle, _, hback⟩
  · rw [hsecond] at hx
    exact absurd (List.mem_append_right _ List.mem_cons_self) hx
  · cases middle with
    | nil =>
      rw [List.nil_append] at hback
      rw [← hback] at hx
      exact absurd List.mem_cons_self hx
    | cons z middle =>
      rw [List.cons_append, List.cons.injEq] at hback
      rw [hback.2]
      exact List.mem_append_right _ hy

/-- What stands in joined lists stands in one of them, and what is behind it there is behind it. -/
theorem split_flatMap {α β : Type} {f : α → List β} {xs : List α} {front back : List β} {y : β}
    (h : xs.flatMap f = front ++ y :: back) :
    ∃ x ∈ xs, ∃ first last, f x = first ++ y :: last ∧ ∀ z ∈ last, z ∈ back := by
  induction xs generalizing front with
  | nil => simp at h
  | cons x xs ih =>
    rw [List.flatMap_cons] at h
    rcases List.append_eq_append_iff.mp h with ⟨middle, rfl, hrest⟩ | ⟨middle, hfirst, hrest⟩
    · obtain ⟨u, hu, first, last, hsplit, hlast⟩ := ih hrest
      exact ⟨u, List.mem_cons_of_mem x hu, first, last, hsplit, hlast⟩
    · cases middle with
      | nil =>
        have hrest' : xs.flatMap f = [] ++ y :: back := hrest.symm
        obtain ⟨u, hu, first, last, hsplit, hlast⟩ := ih hrest'
        exact ⟨u, List.mem_cons_of_mem x hu, first, last, hsplit, hlast⟩
      | cons z middle =>
        rw [List.cons_append, List.cons.injEq] at hrest
        obtain ⟨rfl, rfl⟩ := hrest
        exact ⟨x, List.mem_cons_self, front, middle, hfirst, fun z hz => List.mem_append_left _ hz⟩

/-- Where an index of a table is dropped, a warning says which columns it covered, or an index of
its name is created for the table behind that. -/
theorem ofTable_drop (ho : old.IndexesAgree) {name : String} {first last : List Ddl}
    (h : (ofTable old t).statements = first ++ .dropIndex name :: last) :
    ∃ i ∈ old.indexes, i.name = name
      ∧ (Warns old t (.indexDropped t.name name i.columns)
        ∨ ∃ j, j.name = name ∧ .createIndex t.name j ∈ last) := by
  have hm : .dropIndex name ∈ (ofTable old t).statements := h ▸ by simp
  rw [ofTable_statements] at h hm
  simp only [List.map_map, List.mem_append, List.mem_map, Function.comp_apply, reduceCtorEq,
    and_false, exists_false, or_false, Ddl.dropIndex.injEq] at hm
  obtain ⟨i, hi, rfl⟩ := hm
  obtain ⟨hi, hstale⟩ := List.mem_filter.mp hi
  rw [decide_eq_true_eq] at hstale
  refine ⟨i, hi, rfl, ?_⟩
  cases hj : t.index? i.name with
  | none => exact .inl (.indexDropped hi hj)
  | some j =>
    have hname : j.name = i.name := Table.index?_name hj
    have hne : old.index? j.name ≠ some j := by
      rw [hname, ho.index?_of_mem hi]
      rintro hij
      exact hstale (hj.trans hij.symm)
    have hnew : j ∈ newIndexes old t :=
      List.mem_filter.mpr ⟨Table.index?_mem hj, decide_eq_true hne⟩
    refine .inr ⟨j, hname, ?_⟩
    rw [List.append_assoc, List.append_assoc] at h
    refine mem_behind h ?_ ?_
    · simp
    · simp [hnew]

theorem between_drop (hp : previous.IndexesDistinct) {name : String} {front back : List Ddl}
    (h : (between previous target).statements = front ++ .dropIndex name :: back) :
    ∃ old ∈ previous.tables, ∃ i ∈ old.indexes, i.name = name
      ∧ (.indexDropped old.name name i.columns ∈ (between previous target).warnings
        ∨ ∃ j, j.name = name ∧ .createIndex old.name j ∈ back) := by
  rw [between_statements] at h
  obtain ⟨t, ht, first, last, hsplit, hlast⟩ := split_flatMap h
  have hm : .dropIndex name ∈ (ofNewTable previous t).statements := hsplit ▸ by simp
  cases mem_ofNewTable.mp hm with
  | @dropIndex old _ ho _ =>
    obtain ⟨hold, hname⟩ := Schema.table?_mem ho
    have hof : ofNewTable previous t = ofTable old t := by rw [ofNewTable, ho]
    rw [hof] at hsplit
    obtain ⟨i, hi, hn, hwarned | ⟨j, hj, hcreated⟩⟩ := ofTable_drop (hp.agree hold) hsplit
    · refine ⟨old, hold, i, hi, hn, .inl (mem_warnings.mpr (.inl ⟨t, ht, old, ho, ?_⟩))⟩
      rw [hname]
      exact hwarned
    · exact ⟨old, hold, i, hi, hn, .inr ⟨j, hj, hname ▸ hlast _ hcreated⟩⟩

/-- A table that is gone from the schema is touched by no statement: the indexes that are dropped
are those of other tables. -/
theorem between_untouched (hp : previous.IndexesDistinct) (hgone : old.name ∉ target.tableNames)
    {s : Ddl} (hs : s ∈ (between previous target).statements) :
    ¬ previous.catalog.Touches old.name s := by
  obtain ⟨t, ht, serves⟩ := mem_statements.mp hs
  have other : t.name ≠ old.name := fun hn => hgone (hn ▸ List.mem_map_of_mem ht)
  cases serves with
  | createTable | createFirst | addColumn | dropColumn | createIndex => exact other
  | @dropIndex u i hu hi =>
    rintro ⟨stored, hstored, hname, htable⟩
    obtain ⟨v, hv, hin⟩ := List.mem_flatMap.mp hstored
    obtain ⟨j, hj, rfl⟩ := List.mem_map.mp hin
    obtain ⟨hum, hun⟩ := Schema.table?_mem hu
    obtain ⟨rfl, -⟩ := hp.unique hum (List.mem_filter.mp hi).1 hv hj hname.symm
    exact other (hun.symm.trans htable)

/-- Whatever is kept, changed, added and removed between two schemas, the difference loses nothing
that it does not announce. -/
theorem between_announces {d e : Definition} (hp : d.compile = .ok previous)
    (ht : e.compile = .ok target) (hd : previous.IndexesDistinct) :
    Announces previous target (between previous target) := by
  have hp := Definition.compile_wellFormed hp
  have ht := Definition.compile_wellFormed ht
  refine ⟨between_kinds hp ht, paired_between previous target,
    droppedColumns_nodup hp ht.tablesDistinct, fun _ _ => mem_drops hp.tablesDistinct,
    fun _ _ _ h => between_drop hd h, fun old _ hgone => ?_⟩
  have untouched := fun s (hs : s ∈ (between previous target).statements) =>
    between_untouched hd hgone hs
  obtain ⟨final, hrun, -⟩ := run_targets ht.tables ht.tablesDistinct hp.columnsDistinct
    (ready_catalog hp.tablesDistinct)
  rw [← between_statements] at hrun
  exact ⟨untouched, final, hrun, Catalog.keeps_run untouched hrun⟩

end

/-- Books with three indexes, and a table of loans. -/
def libraryOld : Definition :=
  ({ name := "library" } : Definition).column "books" "title" "text"
    |>.column "books" "code" "text"
    |>.column "books" "shelf" "integer"
    |>.index "books" ⟨"books_title", ["title"], false⟩
    |>.index "books" ⟨"books_code", ["code"], true⟩
    |>.index "books" ⟨"books_shelf", ["shelf"], false⟩
    |>.column "loans" "book" "text"
    |>.index "loans" ⟨"loans_book", ["book"], false⟩

/-- Books without shelves, one index changed, and a table of readers in place of the loans. -/
def libraryNew : Definition :=
  ({ name := "library" } : Definition).column "readers" "name" "text"
    |>.index "readers" ⟨"readers_name", ["name"], true⟩
    |>.column "books" "title" "text"
    |>.column "books" "code" "text"
    |>.column "books" "year" "integer"
    |>.index "books" ⟨"books_title", ["title", "year"], false⟩
    |>.index "books" ⟨"books_code", ["code"], true⟩

def libraryOldSchema : Schema :=
  ⟨"library", 1, [
    { name := "books"
      columns := [{ name := "title", type := .text }, { name := "code", type := .text },
        { name := "shelf", type := .integer }]
      indexes := [⟨"books_title", ["title"], false⟩, ⟨"books_code", ["code"], true⟩,
        ⟨"books_shelf", ["shelf"], false⟩] },
    { name := "loans"
      columns := [{ name := "book", type := .text }]
      indexes := [⟨"loans_book", ["book"], false⟩] }]⟩

def libraryNewSchema : Schema :=
  ⟨"library", 1, [
    { name := "readers"
      columns := [{ name := "name", type := .text }]
      indexes := [⟨"readers_name", ["name"], true⟩] },
    { name := "books"
      columns := [{ name := "title", type := .text }, { name := "code", type := .text },
        { name := "year", type := .integer }]
      indexes := [⟨"books_title", ["title", "year"], false⟩, ⟨"books_code", ["code"], true⟩] }]⟩

theorem between_announces_library :
    libraryOld.compile = .ok libraryOldSchema ∧ libraryNew.compile = .ok libraryNewSchema
      ∧ libraryOldSchema.IndexesDistinct
      ∧ (between libraryOldSchema libraryNewSchema).warnings
        = [.indexDropped "books" "books_shelf" ["shelf"], .columnDropped "books" "shelf",
          .tableRemoved "loans"]
      ∧ Announces libraryOldSchema libraryNewSchema
        (between libraryOldSchema libraryNewSchema) := by
  have hold : libraryOld.compile = .ok libraryOldSchema := by decide +kernel
  have hnew : libraryNew.compile = .ok libraryNewSchema := by decide +kernel
  have hdistinct : libraryOldSchema.IndexesDistinct := by decide +kernel
  exact ⟨hold, hnew, hdistinct, by decide +kernel, between_announces hold hnew hdistinct⟩

end Difference

end Tabularium
