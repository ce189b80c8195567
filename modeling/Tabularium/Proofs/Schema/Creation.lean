import Tabularium.Proofs.Schema.Convergence

namespace Tabularium

/-- An index in a store with the table that it is on. -/
structure PlacedIndex where
  table : String
  index : Index
deriving DecidableEq

/-- The part of a table that its own statement creates. -/
def Table.shell (t : Table) : Table := { t with indexes := [] }

theorem Table.name_of_shell {t u : Table} (h : t.shell = u.shell) : t.name = u.name := by
  have hn := congrArg Table.name h
  exact hn

/-- What a store asks of a new table. Names with one key are one name. -/
structure Table.Creatable (key : String → String) (t : Table) : Prop where
  filled : t.columns ≠ []
  columnsApart : (t.columns.map fun c => key c.name).Nodup
  onePrimaryKey : (t.columns.filter (·.primaryKey)).length ≤ 1

instance (key : String → String) (t : Table) : Decidable (t.Creatable key) :=
  decidable_of_iff (t.columns ≠ [] ∧ (t.columns.map fun c => key c.name).Nodup
      ∧ (t.columns.filter (·.primaryKey)).length ≤ 1)
    ⟨fun h => ⟨h.1, h.2.1, h.2.2⟩, fun h => ⟨h.filled, h.columnsApart, h.onePrimaryKey⟩⟩

/-- No table and no index of a schema is in the way of another one, and each of them can be
created. -/
structure Schema.Creatable (key : String → String) (s : Schema) : Prop where
  tables : ∀ t ∈ s.tables, t.Creatable key
  tablesApart : ∀ t ∈ s.tables, ∀ u ∈ s.tables, key t.name = key u.name → t = u
  covering : ∀ t ∈ s.tables, ∀ i ∈ t.indexes, i.columns ≠ []
  indexesApart : ∀ t ∈ s.tables, ∀ i ∈ t.indexes, ∀ u ∈ s.tables, ∀ j ∈ u.indexes,
    key i.name = key j.name → t = u ∧ i = j

/-- A store that is being set up: the tables and the indexes by the keys of their names. -/
structure FreshStore where
  tables : String → Option Table
  indexes : String → Option PlacedIndex

namespace FreshStore

variable {key : String → String} {c c' c'' : FreshStore} {s : Schema} {t : Table} {i : Index}

def blank : FreshStore := ⟨fun _ => none, fun _ => none⟩

/-- Stores a value under a key that is free. -/
def fill {α : Type} (held : String → Option α) (k : String) (x : α) : String → Option α :=
  Function.update held k ((held k).or (some x))

/-- A store that is being set up can execute a statement. What is there already need not be
possible to create; an index needs columns, and they have to be there. -/
def Accepts (key : String → String) (c : FreshStore) : Ddl → Prop
  | .createTable t => (c.tables (key t.name)).isSome ∨ t.Creatable key
  | .createIndex table i =>
    (c.indexes (key i.name)).isSome
      ∨ i.columns ≠ [] ∧ ∃ t ∈ c.tables (key table),
        ∀ name ∈ i.columns, key name ∈ t.columns.map fun k => key k.name
  | .dropIndex _ | .addColumn .. | .dropColumn .. => False

instance (c : FreshStore) : (s : Ddl) → Decidable (c.Accepts key s)
  | .createTable _ => inferInstanceAs (Decidable (_ ∨ _))
  | .createIndex .. => inferInstanceAs (Decidable (_ ∨ _))
  | .dropIndex _ | .addColumn .. | .dropColumn .. => inferInstanceAs (Decidable False)

/-- The store after a statement. What is there already is left as it is. -/
def execute (key : String → String) (c : FreshStore) : Ddl → FreshStore
  | .createTable t =>
    { c with tables := fill c.tables (key t.name) t.shell }
  | .createIndex table i =>
    { c with indexes := fill c.indexes (key i.name) ⟨table, i⟩ }
  | .dropIndex _ | .addColumn .. | .dropColumn .. => c

/-- The store after statements one after the other, unless one of them is refused. -/
def run (key : String → String) (c : FreshStore) : List Ddl → Option FreshStore
  | [] => some c
  | s :: rest => if c.Accepts key s then (c.execute key s).run key rest else none

/-- The store has all tables of a schema and, on each, all indexes that are declared for it. -/
structure Holds (key : String → String) (c : FreshStore) (s : Schema) : Prop where
  tables : ∀ t ∈ s.tables, c.tables (key t.name) = some t.shell
  indexes : ∀ t ∈ s.tables, ∀ i ∈ t.indexes, c.indexes (key i.name) = some ⟨t.name, i⟩

section

variable {α : Type} {held : String → Option α} {k k' : String} {x y : α}

theorem fill_self (held : String → Option α) (k : String) (x : α) :
    fill held k x k = (held k).or (some x) :=
  Function.update_self ..

theorem fill_kept (h : held k' = some y) : fill held k x k' = some y := by
  by_cases hk : k' = k
  · subst hk
    rw [fill_self, h, Option.some_or]
  · rw [fill, Function.update_of_ne hk, h]

/-- What is there afterwards was there before, or is the new value and the key was free. -/
theorem fill_cases (h : fill held k x k' = some y) :
    held k' = some y ∨ held k = none ∧ k' = k ∧ x = y := by
  by_cases hk : k' = k
  · subst hk
    rw [fill_self] at h
    rcases Option.or_eq_some_iff.mp h with hheld | ⟨hfree, hx⟩
    · exact .inl hheld
    · exact .inr ⟨hfree, rfl, Option.some.inj hx⟩
  · rw [fill, Function.update_of_ne hk] at h
    exact .inl h

end

theorem run_cons {statement : Ddl} {rest : List Ddl} (h : c.Accepts key statement) :
    c.run key (statement :: rest) = (c.execute key statement).run key rest :=
  if_pos h

theorem run_append {first rest : List Ddl} (hf : c.run key first = some c') :
    c.run key (first ++ rest) = c'.run key rest := by
  induction first generalizing c with
  | nil => cases hf; rfl
  | cons statement first ih =>
    rw [run] at hf
    split at hf
    next ha =>
      rw [List.cons_append, run_cons ha]
      exact ih hf
    next => cases hf

/-- What is in a store is declared by the schema that it is set up for and could be created. -/
structure Built (key : String → String) (s : Schema) (c : FreshStore) : Prop where
  tables : ∀ k x, c.tables k = some x →
    ∃ t ∈ s.tables, key t.name = k ∧ t.shell = x ∧ t.Creatable key
  indexes : ∀ k x, c.indexes k = some x →
    ∃ t ∈ s.tables, ∃ i ∈ t.indexes, key i.name = k ∧ ⟨t.name, i⟩ = x ∧ i.columns ≠ []

/-- A later store has all that an earlier one had. -/
structure Extends (c c' : FreshStore) : Prop where
  tables : ∀ k x, c.tables k = some x → c'.tables k = some x
  indexes : ∀ k x, c.indexes k = some x → c'.indexes k = some x

theorem Extends.refl (c : FreshStore) : c.Extends c := ⟨fun _ _ h => h, fun _ _ h => h⟩

theorem Extends.trans (h : c.Extends c') (h' : c'.Extends c'') : c.Extends c'' :=
  ⟨fun k x hx => h'.tables k x (h.tables k x hx), fun k x hx => h'.indexes k x (h.indexes k x hx)⟩

theorem extends_execute (statement : Ddl) : c.Extends (c.execute key statement) := by
  cases statement with
  | createTable t => exact ⟨fun _ _ hx => fill_kept hx, fun _ _ hx => hx⟩
  | createIndex table i => exact ⟨fun _ _ hx => hx, fun _ _ hx => fill_kept hx⟩
  | _ => exact .refl c

theorem built_blank : Built key s blank := by
  constructor
  · intro k x hx
    cases hx
  · intro k x hx
    cases hx

theorem Built.step {statement : Ddl} (h : Built key s c) (hs : statement ∈ s.ddl)
    (ha : c.Accepts key statement) : Built key s (c.execute key statement) := by
  obtain ⟨t, ht, hs⟩ := List.mem_flatMap.mp hs
  rcases List.mem_cons.mp hs with rfl | hs
  · refine ⟨fun k x hx => ?_, h.indexes⟩
    rcases fill_cases hx with hheld | ⟨hfree, rfl, rfl⟩
    · exact h.tables k x hheld
    · rcases ha with ha | ha
      · rw [hfree] at ha
        cases ha
      · exact ⟨t, ht, rfl, rfl, ha⟩
  · obtain ⟨i, hi, rfl⟩ := List.mem_map.mp hs
    refine ⟨h.tables, fun k x hx => ?_⟩
    rcases fill_cases hx with hheld | ⟨hfree, rfl, rfl⟩
    · exact h.indexes k x hheld
    · rcases ha with ha | ha
      · rw [hfree] at ha
        cases ha
      · exact ⟨t, ht, i, hi, rfl, rfl, ha.1⟩

theorem Built.run {statements : List Ddl} (h : Built key s c)
    (hs : ∀ statement ∈ statements, statement ∈ s.ddl) (hr : c.run key statements = some c') :
    Built key s c' := by
  induction statements generalizing c with
  | nil => cases hr; exact h
  | cons statement rest ih =>
    obtain ⟨hfirst, hrest⟩ := List.forall_mem_cons.mp hs
    rw [FreshStore.run] at hr
    split at hr
    next ha => exact ih (h.step hfirst ha) hrest hr
    next => cases hr

/-- What a store holds of a schema in the end was accepted when it was created. -/
theorem Built.creatable (h : Built key s c) (hd : s.tableNames.Nodup) (hc : c.Holds key s) :
    s.Creatable key := by
  have hname : ∀ t ∈ s.tables, ∀ u ∈ s.tables, t.name = u.name → t = u := fun t ht u hu hn =>
    List.inj_on_of_nodup_map hd ht hu hn
  refine ⟨fun t ht => ?_, fun t ht u hu hk => ?_, fun t ht i hi => ?_, ?_⟩
  · obtain ⟨u, hu, -, hshell, hcreatable⟩ := h.tables _ _ (hc.tables t ht)
    rw [← hname u hu t ht (Table.name_of_shell hshell)]
    exact hcreatable
  · have heq := hc.tables t ht
    rw [hk, hc.tables u hu, Option.some.injEq] at heq
    exact hname t ht u hu (Table.name_of_shell heq.symm)
  · obtain ⟨u, -, j, -, -, hplaced, hcolumns⟩ := h.indexes _ _ (hc.indexes t ht i hi)
    rw [← (PlacedIndex.mk.inj hplaced).2]
    exact hcolumns
  · intro t ht i hi u hu j hj hk
    have heq := hc.indexes t ht i hi
    rw [hk, hc.indexes u hu j hj, Option.some.injEq] at heq
    obtain ⟨hn, rfl⟩ := PlacedIndex.mk.inj heq
    exact ⟨hname t ht u hu hn.symm, rfl⟩

theorem holds_table (h : Built key s c) (hc : s.Creatable key) (ht : t ∈ s.tables) :
    (c.execute key (.createTable t)).tables (key t.name) = some t.shell := by
  refine (fill_self c.tables _ _).trans ?_
  cases hheld : c.tables (key t.name) with
  | none => rfl
  | some x =>
    obtain ⟨u, hu, hk, rfl, -⟩ := h.tables _ x hheld
    rw [hc.tablesApart u hu t ht hk, Option.some_or]

theorem holds_index (h : Built key s c) (hc : s.Creatable key) (ht : t ∈ s.tables)
    (hi : i ∈ t.indexes) :
    (c.execute key (.createIndex t.name i)).indexes (key i.name) = some ⟨t.name, i⟩ := by
  refine (fill_self c.indexes _ _).trans ?_
  cases hheld : c.indexes (key i.name) with
  | none => rfl
  | some x =>
    obtain ⟨u, hu, j, hj, hk, rfl, -⟩ := h.indexes _ x hheld
    obtain ⟨rfl, rfl⟩ := hc.indexesApart u hu j hj t ht i hi hk
    rw [Option.some_or]

theorem run_indexes (h : Built key s c) (hc : s.Creatable key) (hw : t.WellFormed)
    (ht : t ∈ s.tables) (hheld : c.tables (key t.name) = some t.shell) {indexes : List Index}
    (hi : ∀ i ∈ indexes, i ∈ t.indexes) :
    ∃ c', c.run key (indexes.map (.createIndex t.name)) = some c' ∧ Built key s c'
      ∧ c.Extends c' ∧ ∀ i ∈ indexes, c'.indexes (key i.name) = some ⟨t.name, i⟩ := by
  induction indexes generalizing c with
  | nil => exact ⟨c, rfl, h, .refl c, by simp⟩
  | cons i indexes ih =>
    obtain ⟨hfirst, hrest⟩ := List.forall_mem_cons.mp hi
    have ha : c.Accepts key (.createIndex t.name i) := by
      refine .inr ⟨hc.covering t ht i hfirst, t.shell, hheld, fun name hname => ?_⟩
      obtain ⟨k, hk, rfl⟩ := List.mem_map.mp (hw.indexesCovered i hfirst name hname)
      exact List.mem_map_of_mem hk
    have hs : Ddl.createIndex t.name i ∈ s.ddl :=
      List.mem_flatMap.mpr ⟨t, ht, List.mem_cons_of_mem _ (List.mem_map_of_mem hfirst)⟩
    have hstep : c.Extends (c.execute key (.createIndex t.name i)) := extends_execute _
    obtain ⟨c', hrun, hbuilt, hextends, hall⟩ :=
      ih (h.step hs ha) (hstep.tables _ _ hheld) hrest
    refine ⟨c', by rw [List.map_cons, run_cons ha, hrun], hbuilt, hstep.trans hextends, ?_⟩
    refine List.forall_mem_cons.mpr ⟨?_, hall⟩
    exact hextends.indexes _ _ (holds_index h hc ht hfirst)

theorem run_table (h : Built key s c) (hc : s.Creatable key) (hw : t.WellFormed)
    (ht : t ∈ s.tables) :
    ∃ c', c.run key t.ddl = some c' ∧ Built key s c' ∧ c.Extends c'
      ∧ c'.tables (key t.name) = some t.shell
      ∧ ∀ i ∈ t.indexes, c'.indexes (key i.name) = some ⟨t.name, i⟩ := by
  have ha : c.Accepts key (.createTable t) := .inr (hc.tables t ht)
  have hs : Ddl.createTable t ∈ s.ddl := List.mem_flatMap.mpr ⟨t, ht, List.mem_cons_self⟩
  have hheld := holds_table h hc ht
  obtain ⟨c', hrun, hbuilt, hextends, hall⟩ :=
    run_indexes (h.step hs ha) hc hw ht hheld fun _ hi => hi
  refine ⟨c', ?_, hbuilt, (extends_execute _).trans hextends, hextends.tables _ _ hheld, hall⟩
  rw [Table.ddl, run_cons ha, hrun]

theorem run_tables (h : Built key s c) (hc : s.Creatable key) (hw : s.WellFormed)
    {tables : List Table} (ht : ∀ t ∈ tables, t ∈ s.tables) :
    ∃ c', c.run key (tables.flatMap Table.ddl) = some c' ∧ c.Extends c'
      ∧ ∀ t ∈ tables, c'.tables (key t.name) = some t.shell
        ∧ ∀ i ∈ t.indexes, c'.indexes (key i.name) = some ⟨t.name, i⟩ := by
  induction tables generalizing c with
  | nil => exact ⟨c, rfl, .refl c, by simp⟩
  | cons t tables ih =>
    obtain ⟨hfirst, hrest⟩ := List.forall_mem_cons.mp ht
    obtain ⟨c₁, hrun₁, hbuilt, hextends₁, htable, hindexes⟩ :=
      run_table h hc (hw.tables t hfirst) hfirst
    obtain ⟨c₂, hrun₂, hextends₂, hall⟩ := ih hbuilt hrest
    refine ⟨c₂, ?_, hextends₁.trans hextends₂,
      List.forall_mem_cons.mpr ⟨⟨?_, fun i hi => ?_⟩, hall⟩⟩
    · rw [List.flatMap_cons, run_append hrun₁, hrun₂]
    · exact hextends₂.tables _ _ htable
    · exact hextends₂.indexes _ _ (hindexes i hi)

/-- However a store compares names, the statements that create a compiled schema are accepted one
after the other and leave all of its tables and indexes there exactly when every table has a
column, no two columns of one name and at most one primary key, every index covers a column, and
no two tables and no two indexes have one name. -/
theorem creation_succeeds_iff {d : Definition} (h : d.compile = .ok s) (key : String → String) :
    (∃ final, blank.run key s.ddl = some final ∧ final.Holds key s) ↔ s.Creatable key := by
  have hw := Definition.compile_wellFormed h
  constructor
  · rintro ⟨final, hrun, hholds⟩
    exact (built_blank.run (fun _ hs => hs) hrun).creatable hw.tablesDistinct hholds
  · intro hc
    obtain ⟨final, hrun, -, hall⟩ := run_tables built_blank hc hw fun _ ht => ht
    exact ⟨final, hrun, fun t ht => (hall t ht).1, fun t ht => (hall t ht).2⟩

/-- A store that does not tell upper from lower case has room for orders and items. -/
theorem creation_succeeds_iff_orders :
    Difference.ordersNew.compile = .ok Difference.ordersNewSchema
      ∧ Difference.ordersNewSchema.Creatable asciiLower
      ∧ ∃ final, blank.run asciiLower Difference.ordersNewSchema.ddl = some final
        ∧ final.Holds asciiLower Difference.ordersNewSchema := by
  have hc : Difference.ordersNewSchema.Creatable asciiLower :=
    ⟨by decide +kernel, by decide +kernel, by decide +kernel, by decide +kernel⟩
  exact ⟨Difference.ordersNew_compiles, hc,
    (creation_succeeds_iff Difference.ordersNew_compiles asciiLower).mpr hc⟩

/-- A table with two columns that are each marked as the primary key. -/
def twoKeys : Definition :=
  ({ name := "app" } : Definition).column "t" "a" "integer primary key"
    |>.column "t" "b" "integer primary key"

def twoKeysSchema : Schema :=
  ⟨"app", 1, [
    { name := "t"
      columns := [{ name := "a", type := .integer, primaryKey := true },
        { name := "b", type := .integer, primaryKey := true }] }]⟩

/-- A table with two primary keys compiles and is refused. -/
theorem two_keys_refused :
    ¬ ∀ (d : Definition) (s : Schema), d.compile = .ok s →
      ∃ final, blank.run id s.ddl = some final ∧ final.Holds id s := by
  intro h
  obtain ⟨final, hrun, -⟩ := h twoKeys twoKeysSchema (by decide +kernel)
  have hrefused : (blank.run id twoKeysSchema.ddl).isSome = false := by decide +kernel
  rw [hrun] at hrefused
  cases hrefused

end FreshStore

end Tabularium
