import Tabularium.Proofs.Schema.TableDifference

namespace Tabularium

/-- No name stands for two indexes of a schema. -/
def Schema.IndexesDistinct (s : Schema) : Prop :=
  (s.tables.flatMap fun t => t.indexes.map (·.name)).Nodup

instance (s : Schema) : Decidable s.IndexesDistinct := inferInstanceAs (Decidable (List.Nodup _))

/-- No name stands for two columns of a table. -/
def Schema.ColumnsDistinct (s : Schema) : Prop :=
  ∀ t ∈ s.tables, (t.columns.map (·.name)).Nodup

def Warning.Names (table column : String) : Warning → Prop
  | .notNullWithoutDefault t k | .rebuildRequired t k _ | .nonConstantDefault t k _
  | .columnDropped t k | .columnChanged t k => t = table ∧ k = column
  | .indexDropped .. | .checksChanged _ | .tableRemoved _ => False

/-- Two columns differ at most in the sign of a zero that is their default. -/
def Column.Twin (k' k : Column) : Prop :=
  k' = k ∨ ∃ x y : Binary64, x.isZero ∧ y.isZero ∧ k.default = some (.value (.float y))
    ∧ k' = { k with default := some (.value (.float x)) }

namespace Difference

/-- What is promised of a store after a difference: the tables of the new schema have its columns,
each with an `Exact` definition unless a warning is about it, and the tables that are gone from the
schema are as they were and reported. -/
structure Arrives (Exact : Column → String → Prop) (previous target : Schema) (final : Catalog) :
    Prop where
  columns : ∀ t ∈ target.tables, ∃ columns ∈ final.columns t.name,
    (columns.map (·.name)).Perm (t.columns.map (·.name))
      ∧ ∀ k ∈ t.columns, (∃ w ∈ (between previous target).warnings, w.Names t.name k.name)
        ∨ ∃ stored ∈ columns, stored.name = k.name ∧ Exact k stored.definition
  removed : ∀ t ∈ previous.tables, target.table? t.name = none →
    final.columns t.name = some (t.columns.map Column.stored)
      ∧ .tableRemoved t.name ∈ (between previous target).warnings

end Difference

namespace Schema

variable {s : Schema} {t : Table} {name : String}

theorem WellFormed.columnsDistinct (h : s.WellFormed) : s.ColumnsDistinct :=
  fun t ht => (h.tables t ht).columnsDistinct

theorem catalog_follows (hd : s.tableNames.Nodup) (h : t ∈ s.tables) : s.catalog.Follows t := by
  refine ⟨⟨t.columns.map Column.stored, ?_, ?_⟩, ?_⟩
  · simp [catalog, table?_of_mem hd h]
  · rw [List.map_map]
    exact List.Perm.refl _
  · intro i hi hn
    obtain ⟨u, hu, hi⟩ := List.mem_flatMap.mp hi
    obtain ⟨j, hj, rfl⟩ := List.mem_map.mp hi
    cases List.inj_on_of_nodup_map hd hu h hn
    exact ⟨j, hj, rfl⟩

end Schema

namespace Difference

variable {previous target : Schema} {t : Table} {c : Catalog}

/-- The store is ready for a table of the new schema: it follows the old declaration of that table,
or, when there is none, has the table already as declared or not at all. -/
def Ready (previous : Schema) (c : Catalog) (t : Table) : Prop :=
  match previous.table? t.name with
  | some old => c.Follows old
  | none => c.Follows t ∨ c.columns t.name = none ∧ ∀ i ∈ c.indexes, i.table ≠ t.name

/-- The columns that a table of the new schema has in the end. -/
def arrived (previous : Schema) (t : Table) (held : Option (List StoredColumn)) :
    List StoredColumn :=
  match previous.table? t.name, held with
  | some old, some columns => settled old t columns
  | none, some columns => columns
  | _, none => t.columns.map Column.stored

/-- Creating a table that the store has already as declared, or not at all. -/
theorem run_ddl (hw : t.WellFormed)
    (hr : c.Follows t ∨ c.columns t.name = none ∧ ∀ i ∈ c.indexes, i.table ≠ t.name) :
    ∃ c', c.run t.ddl = some c' ∧ c'.Follows t
      ∧ c'.columns = Function.update c.columns t.name
        (some ((c.columns t.name).getD (t.columns.map Column.stored)))
      ∧ ∀ i ∈ c'.indexes, i.table ≠ t.name → i ∈ c.indexes := by
  let created := c.execute (.createTable t)
  have ha : c.Applicable (.createTable t) := trivial
  have hcreated :
      created = c.put t.name ((c.columns t.name).getD (t.columns.map Column.stored)) := by
    simp only [created, Catalog.execute]
    split
    next columns h => rw [h, Option.getD_some, Catalog.put_self h]
    next h => rw [h, Option.getD_none]
  have hperm : (((c.columns t.name).getD (t.columns.map Column.stored)).map (·.name)).Perm
      (t.columns.map (·.name)) := by
    rcases hr with hf | ⟨hn, _⟩
    · obtain ⟨columns, hc, hp⟩ := hf.columns
      rw [Option.mem_def] at hc
      rw [hc]
      exact hp
    · rw [hn, Option.getD_none, List.map_map]
      exact List.Perm.refl _
  have hold : ∀ i ∈ c.indexes, i.table = t.name → ∃ j ∈ t.indexes, i = j.stored t.name := by
    rcases hr with hf | ⟨_, hi⟩
    · exact hf.indexes
    · exact fun i him ht => absurd ht (hi i him)
  obtain ⟨c', hrun, hcolumns, _, hindexes⟩ := Catalog.run_createIndexes
    (c := created) t.indexes (by rw [hcreated, Catalog.put_columns_self])
    (fun i hi n hcover => hperm.mem_iff.mpr (hw.indexesCovered i hi n hcover))
  rw [hcreated] at hcolumns hindexes
  refine ⟨c', ?_, ⟨⟨_, ?_, hperm⟩, ?_⟩, hcolumns, ?_⟩
  · rw [Table.ddl, Catalog.run_cons ha]
    exact hrun
  · rw [hcolumns]
    exact Catalog.put_columns_self
  · intro i hi ht
    rcases hindexes i hi with hm | ⟨j, hj, rfl⟩
    · exact hold i hm ht
    · exact ⟨j, hj, rfl⟩
  · intro i hi ht
    rcases hindexes i hi with hm | ⟨j, hj, rfl⟩
    · exact hm
    · exact absurd rfl ht

theorem run_ofNewTable (hw : t.WellFormed) (hp : previous.ColumnsDistinct)
    (hr : Ready previous c t) :
    ∃ c', c.run (ofNewTable previous t).statements = some c' ∧ c'.Follows t
      ∧ c'.columns = Function.update c.columns t.name
        (some (arrived previous t (c.columns t.name)))
      ∧ ∀ i ∈ c'.indexes, i.table ≠ t.name → i ∈ c.indexes := by
  unfold Ready at hr
  unfold ofNewTable arrived
  cases ho : previous.table? t.name with
  | none =>
    rw [ho] at hr
    obtain ⟨c', hrun, hf, hcolumns, hindexes⟩ := run_ddl hw hr
    refine ⟨c', hrun, hf, ?_, hindexes⟩
    rw [hcolumns]
    cases c.columns t.name <;> rfl
  | some old =>
    rw [ho] at hr
    obtain ⟨hm, hn⟩ := Schema.table?_mem ho
    obtain ⟨columns, hc, _⟩ := hr.columns
    rw [hn] at hc
    obtain ⟨c', hrun, hf, hcolumns, hindexes⟩ :=
      run_ofTable hw (hp old hm) hn hr hc
    refine ⟨c', hrun, hf, ?_, hindexes⟩
    rw [hcolumns, Option.mem_def.mp hc]

/-- What a table needs is not touched by statements for other tables. -/
theorem Ready.frame {c' : Catalog} (hr : Ready previous c t)
    (hc : c'.columns t.name = c.columns t.name)
    (hi : ∀ i ∈ c'.indexes, i.table = t.name → i ∈ c.indexes) : Ready previous c' t := by
  unfold Ready at hr ⊢
  split at hr
  next old ho =>
    have hn : old.name = t.name := (Schema.table?_mem ho).2
    exact hr.frame (hn ▸ hc) fun i him ht => hi i him (ht.trans hn)
  next =>
    rcases hr with hf | ⟨hn, hno⟩
    · exact .inl (hf.frame hc hi)
    · exact .inr ⟨hc.trans hn, fun i him ht => hno i (hi i him ht) ht⟩

/-- The statements for all tables of the new schema are applicable one after the other. -/
theorem run_targets {targets : List Table} (hw : ∀ t ∈ targets, t.WellFormed)
    (hd : (targets.map (·.name)).Nodup) (hp : previous.ColumnsDistinct)
    (hr : ∀ t ∈ targets, Ready previous c t) :
    ∃ c', c.run (collect targets (ofNewTable previous)).statements = some c'
      ∧ (∀ t ∈ targets, c'.Follows t
        ∧ c'.columns t.name = some (arrived previous t (c.columns t.name)))
      ∧ (∀ name, name ∉ targets.map (·.name) → c'.columns name = c.columns name)
      ∧ ∀ i ∈ c'.indexes, i.table ∉ targets.map (·.name) → i ∈ c.indexes := by
  -- on the tables, the last first: the rest is left alone by the statements for one more
  induction targets generalizing c with
  | nil => exact ⟨c, rfl, by simp, fun _ _ => rfl, fun _ h _ => h⟩
  | cons t targets ih =>
    obtain ⟨hfresh, hd⟩ := List.nodup_cons.mp hd
    have hne : ∀ u ∈ targets, u.name ≠ t.name := fun u hu he =>
      hfresh (List.mem_map.mpr ⟨u, hu, he⟩)
    obtain ⟨c₁, hrun₁, hf₁, hcolumns₁, hindexes₁⟩ :=
      run_ofNewTable (hw t List.mem_cons_self) hp (hr t List.mem_cons_self)
    have hother : ∀ name, name ≠ t.name → c₁.columns name = c.columns name := by
      intro name hn
      rw [hcolumns₁, Function.update_of_ne hn]
    obtain ⟨c₂, hrun₂, hall, hcolumns₂, hindexes₂⟩ := ih (c := c₁)
      (fun u hu => hw u (List.mem_cons_of_mem t hu)) hd fun u hu =>
        (hr u (List.mem_cons_of_mem t hu)).frame (hother _ (hne u hu))
          fun i hi ht => hindexes₁ i hi (ht ▸ hne u hu)
    refine ⟨c₂, ?_, ?_, ?_, ?_⟩
    · have hs : (collect (t :: targets) (ofNewTable previous)).statements
          = (ofNewTable previous t).statements
            ++ (collect targets (ofNewTable previous)).statements := by simp [collect]
      rw [hs]
      exact Catalog.run_trans hrun₁ hrun₂
    · intro u hu
      rcases List.mem_cons.mp hu with rfl | hu
      · refine ⟨⟨?_, fun i hi ht => ?_⟩, ?_⟩
        · rw [hcolumns₂ _ hfresh]
          exact hf₁.columns
        · exact hf₁.indexes i (hindexes₂ i hi (ht ▸ hfresh)) ht
        · rw [hcolumns₂ _ hfresh, hcolumns₁, Function.update_self]
      · obtain ⟨hf, hc⟩ := hall u hu
        rw [hother _ (hne u hu)] at hc
        exact ⟨hf, hc⟩
    · intro name hn
      rw [List.map_cons, List.mem_cons, not_or] at hn
      rw [hcolumns₂ name hn.2, hother name hn.1]
    · intro i hi hn
      rw [List.map_cons, List.mem_cons, not_or] at hn
      exact hindexes₁ i (hindexes₂ i hi hn.2) hn.1

theorem same_twin {old k : Column} (h : old.same k = true) : old.Twin k := by
  unfold Column.same at h
  simp only [Bool.and_eq_true, beq_iff_eq] at h
  obtain ⟨⟨⟨⟨⟨⟨⟨⟨hn, ht⟩, hm⟩, hnn⟩, hu⟩, hk⟩, he⟩, hr⟩, hdefault⟩ := h
  have whole : old.default = k.default → old = k := by
    intro hd
    cases old
    cases k
    simp_all
  split at hdefault
  next h₁ h₂ => exact .inl (whole (h₁.trans h₂.symm))
  next x y h₁ h₂ =>
    have literal : x = y → old.Twin k := by
      rintro rfl
      exact .inl (whole (h₁.trans h₂.symm))
    unfold DefaultValue.same at hdefault
    split at hdefault
    next a b =>
      unfold Literal.same at hdefault
      split at hdefault
      next x y =>
        unfold Binary64.same at hdefault
        simp only [Bool.and_eq_true, Bool.or_eq_true, beq_iff_eq] at hdefault
        rcases hdefault.2 with hb | hz
        · refine literal ?_
          cases x
          cases y
          simp_all
        · refine .inr ⟨x, y, hz.1, hz.2, h₂, ?_⟩
          cases old
          cases k
          simp_all
      next => exact literal (by simpa using hdefault)
    next => exact literal (by simpa using hdefault)
  next => simp at hdefault

/-- A column that is added without a warning is added with its whole definition. -/
theorem addable_sql {table : String} {k : Column} (h : addWarnings table k = []) :
    (addable k).sql = k.sql := by
  unfold addWarnings at h
  simp only [List.append_eq_nil_iff] at h
  obtain ⟨⟨hlost, hdefault⟩, hnull⟩ := h
  have hlost : lostConstraints k = [] := by
    by_contra hne
    rw [if_neg hne] at hlost
    simp at hlost
  unfold lostConstraints at hlost
  simp only [List.append_eq_nil_iff] at hlost
  obtain ⟨⟨⟨hprimary, hunique⟩, href⟩, henum⟩ := hlost
  have hprimary : k.primaryKey = false := by simpa using hprimary
  have hunique : k.unique = false := by simpa using hunique
  have href : k.references = none := by simpa using href
  have henum : k.enumValues = none := by simpa using henum
  have hkept : k.default.filter (·.isConstant) = k.default := by
    cases hd : k.default with
    | none => rfl
    | some value =>
      rw [hd] at hdefault
      by_cases hc : value.isConstant
      · simp [Option.filter, hc]
      · simp [hc] at hdefault
  have hnull : (addable k).notNull = k.notNull := by
    cases hk : k.notNull with
    | false => simp [addable, hk]
    | true =>
      by_contra hb
      rw [if_pos (by simpa [hk] using hb)] at hnull
      simp at hnull
  have hdef : (addable k).default = k.default := hkept
  have hname : (addable k).name = k.name := rfl
  have htype : (addable k).type = k.type := rfl
  simp [BareColumn.sql, Column.sql, hprimary, hunique, href, henum, hnull, hdef, hname, htype]

theorem Lacks.names {table : String} {k : Column} {w : Warning} (h : Lacks table k w) :
    w.Names table k.name := by
  cases h <;> exact ⟨rfl, rfl⟩

/-- A column of the new declaration is in the store as its definition says, up to the sign of a
zero, or a warning is about it. -/
theorem settled_definition (old : Table) {k : Column} (hk : k ∈ t.columns) :
    (∃ w, Warns old t w ∧ w.Names t.name k.name)
      ∨ ∃ stored ∈ settled old t (old.columns.map Column.stored), stored.name = k.name
        ∧ ∃ k' : Column, k'.Twin k ∧ stored.definition = k'.sql := by
  have hkept : ∀ n, n = k.name → n ∉ (goneColumns old t).map (·.name) := by
    rintro n rfl hg
    exact (mem_goneNames.mp hg).2 (List.mem_map_of_mem hk)
  cases ho : old.column? k.name with
  | none =>
    have hnew : k ∈ newColumns old t := List.mem_filter.mpr ⟨hk, by rw [ho]; rfl⟩
    cases hw : addWarnings t.name k with
    | nil =>
      refine .inr ⟨(addable k).stored, List.mem_filter.mpr ⟨?_, ?_⟩, rfl, k, .inl rfl, ?_⟩
      · exact List.mem_append_right _ (List.mem_map_of_mem (List.mem_map_of_mem hnew))
      · exact decide_eq_true (hkept _ rfl)
      · exact addable_sql hw
    | cons w ws =>
      have lacks : Lacks t.name k w := mem_addWarnings.mp (hw ▸ List.mem_cons_self)
      exact .inl ⟨w, .added hnew lacks, lacks.names⟩
  | some o =>
    obtain ⟨hm, hn⟩ := Table.column?_mem ho
    by_cases hs : o.same k = true
    · refine .inr ⟨o.stored, List.mem_filter.mpr ⟨?_, ?_⟩, hn, o, same_twin hs, rfl⟩
      · exact List.mem_append_left _ (List.mem_map_of_mem hm)
      · exact decide_eq_true (hkept _ hn)
    · exact .inl ⟨_, .columnChanged hk ho (by simpa using hs), rfl, rfl⟩

theorem ready_catalog (hd : previous.tableNames.Nodup) :
    ∀ t ∈ target.tables, Ready previous previous.catalog t := by
  intro t _
  unfold Ready
  cases ho : previous.table? t.name with
  | some old => exact Schema.catalog_follows hd (Schema.table?_mem ho).1
  | none =>
    refine .inr ⟨by simp [Schema.catalog, ho], fun i hi hn => ?_⟩
    obtain ⟨u, hu, hi⟩ := List.mem_flatMap.mp hi
    obtain ⟨j, _, rfl⟩ := List.mem_map.mp hi
    exact Schema.table?_isNone.mp ho (List.mem_map.mpr ⟨u, hu, hn⟩)

/-- The difference of two compiled schemas can be executed on a store of the old one, statement by
statement, and the store arrives at the new one. -/
theorem between_arrives {d e : Definition} (hp : d.compile = .ok previous)
    (ht : e.compile = .ok target) :
    ∃ final, previous.catalog.run (between previous target).statements = some final
      ∧ Arrives (fun k text => ∃ k' : Column, k'.Twin k ∧ text = k'.sql) previous target final := by
  have hp := Definition.compile_wellFormed hp
  have ht := Definition.compile_wellFormed ht
  obtain ⟨final, hrun, hall, hframe, _⟩ :=
    run_targets ht.tables ht.tablesDistinct hp.columnsDistinct (ready_catalog hp.tablesDistinct)
  refine ⟨final, by rw [between_statements, hrun], ⟨fun t hm => ?_, fun t hm hgone => ?_⟩⟩
  · obtain ⟨hf, hc⟩ := hall t hm
    obtain ⟨columns, hcolumns, hperm⟩ := hf.columns
    refine ⟨columns, hcolumns, hperm, fun k hk => ?_⟩
    rw [hc, Option.mem_def, Option.some.injEq] at hcolumns
    subst hcolumns
    unfold arrived
    cases ho : previous.table? t.name with
    | none =>
      have hnone : previous.catalog.columns t.name = none := by simp [Schema.catalog, ho]
      rw [hnone]
      exact .inr ⟨k.stored, List.mem_map_of_mem hk, rfl, k, .inl rfl, rfl⟩
    | some old =>
      have hsome : previous.catalog.columns t.name = some (old.columns.map Column.stored) := by
        simp [Schema.catalog, ho]
      rw [hsome]
      rcases settled_definition old hk with ⟨w, hw, hn⟩ | hdef
      · exact .inl ⟨w, mem_warnings.mpr (.inl ⟨t, hm, old, ho, hw⟩), hn⟩
      · exact .inr hdef
  · refine ⟨?_, mem_warnings.mpr (.inr ⟨t, hm, hgone, rfl⟩)⟩
    rw [hframe _ (Schema.table?_isNone.mp hgone)]
    simp [Schema.catalog, Schema.table?_of_mem hp.tablesDistinct hm]

/-- Orders with an index, and a table of drafts. -/
def ordersOld : Definition :=
  ({ name := "shop" } : Definition).column "orders" "id" "integer primary key"
    |>.column "orders" "total" "real"
    |>.column "orders" "note" "text"
    |>.index "orders" ⟨"orders_total", ["total"], false⟩
    |>.column "drafts" "id" "integer"

/-- Orders in another form, and a table of items. -/
def ordersNew : Definition :=
  ({ name := "shop" } : Definition).column "items" "order_id" "integer -> orders.id"
    |>.column "orders" "id" "integer primary key"
    |>.column "orders" "total" "integer"
    |>.column "orders" "state" "text not null default 'open'"
    |>.index "orders" ⟨"orders_total", ["total", "state"], true⟩

def ordersOldSchema : Schema :=
  ⟨"shop", 1, [
    { name := "orders"
      columns := [{ name := "id", type := .integer, primaryKey := true },
        { name := "total", type := .real }, { name := "note", type := .text }]
      indexes := [⟨"orders_total", ["total"], false⟩] },
    { name := "drafts", columns := [{ name := "id", type := .integer }] }]⟩

def ordersNewSchema : Schema :=
  ⟨"shop", 1, [
    { name := "items"
      columns := [
        { name := "order_id", type := .integer, references := some ⟨"orders", "id", none⟩ }] },
    { name := "orders"
      columns := [{ name := "id", type := .integer, primaryKey := true },
        { name := "total", type := .integer },
        { name := "state", type := .text, notNull := true,
          default := some (.value (.text "open")) }]
      indexes := [⟨"orders_total", ["total", "state"], true⟩] }]⟩

theorem ordersOld_compiles : ordersOld.compile = .ok ordersOldSchema := by decide +kernel

theorem ordersNew_compiles : ordersNew.compile = .ok ordersNewSchema := by decide +kernel

theorem between_arrives_orders :
    ordersOld.compile = .ok ordersOldSchema ∧ ordersNew.compile = .ok ordersNewSchema
      ∧ ∃ final, ordersOldSchema.catalog.run (between ordersOldSchema ordersNewSchema).statements
          = some final
        ∧ Arrives (fun k text => ∃ k' : Column, k'.Twin k ∧ text = k'.sql) ordersOldSchema
          ordersNewSchema final :=
  ⟨ordersOld_compiles, ordersNew_compiles, between_arrives ordersOld_compiles ordersNew_compiles⟩

/-- A column whose default is the zero of either sign. -/
def zeroed (text : String) : Definition :=
  ({ name := "s" } : Definition).column "t" "x" ("real default " ++ text)

/-- What the column with the zero of either sign compiles to. -/
def zeroedSchema (zero : Binary64) : Schema :=
  ⟨"s", 1, [
    { name := "t"
      columns := [{ name := "x", type := .real, default := some (.value (.float zero)) }] }]⟩

/-- The two zeros are written differently, and no warning tells them apart. -/
theorem between_misses_zero_sign :
    ¬ ∀ (d e : Definition) (previous target : Schema), d.compile = .ok previous →
      e.compile = .ok target → previous.IndexesDistinct → target.IndexesDistinct →
      ∃ final, previous.catalog.run (between previous target).statements = some final
        ∧ Arrives (fun k text => text = k.sql) previous target final := by
  intro h
  obtain ⟨final, hrun, ha⟩ := h (zeroed "0.0") (zeroed "-0.0") (zeroedSchema ⟨0⟩)
    (zeroedSchema ⟨0x8000000000000000⟩) (by decide +kernel) (by decide +kernel) (by decide +kernel)
    (by decide +kernel)
  have hnothing : between (zeroedSchema ⟨0⟩) (zeroedSchema ⟨0x8000000000000000⟩) = {} := by
    decide +kernel
  rw [hnothing] at hrun
  cases hrun
  obtain ⟨columns, hcolumns, _, hall⟩ := ha.columns _ List.mem_cons_self
  rcases hall _ List.mem_cons_self with ⟨w, hw, _⟩ | ⟨stored, hs, _, hdef⟩
  · rw [hnothing] at hw
    cases hw
  · have hc : (zeroedSchema ⟨0⟩).catalog.columns "t" = some [⟨"x", "x REAL DEFAULT 0"⟩] := by
      decide +kernel
    cases hc.symm.trans hcolumns
    cases List.mem_singleton.mp hs
    revert hdef
    decide +kernel

end Difference

end Tabularium
