import Tabularium.Proofs.Schema.SelfDifference

namespace Tabularium

theorem Binary64.same_of_isZero {x y : Binary64} (hx : x.isZero = true) (hy : y.isZero = true) :
    x.same y = true := by
  have number : ∀ z : Binary64, z.isZero = true → z.isNaN = false := fun _ hz =>
    isNaN_of_isFinite (isFinite_of_isZero hz)
  simp [same, number x hx, number y hy, hx, hy]

namespace Column

variable {k' k : Column}

theorem Twin.name_eq (h : k'.Twin k) : k'.name = k.name := by
  rcases h with rfl | ⟨_, _, _, _, _, rfl⟩ <;> rfl

theorem Twin.same (h : k'.Twin k) (hf : k.FiniteDefault) : k'.same k = true := by
  rcases h with rfl | ⟨x, y, hx, hy, hdefault, rfl⟩
  · exact same_self hf
  · simp [Column.same, hdefault, DefaultValue.same, Literal.same, Binary64.same_of_isZero hx hy]

end Column

namespace Table

variable {t u : Table}

/-- Two tables declare the same: columns up to the sign of a zero and indexes, both in any order,
and the same checks. -/
structure Alike (t u : Table) : Prop where
  columns : ∀ k ∈ t.columns, ∃ l ∈ u.columns, k.Twin l
  columnsBack : ∀ l ∈ u.columns, ∃ k ∈ t.columns, k.Twin l
  indexes : ∀ i, i ∈ t.indexes ↔ i ∈ u.indexes
  checks : t.checks = u.checks

/-- Where every index of one table is the first of its name in the other, both have the same
indexes, and no two different ones of one name. -/
theorem indexes_found_iff :
    ((∀ i ∈ t.indexes, u.index? i.name = some i) ∧ ∀ i ∈ u.indexes, t.index? i.name = some i)
      ↔ (∀ i, i ∈ t.indexes ↔ i ∈ u.indexes) ∧ u.IndexesAgree := by
  constructor
  · rintro ⟨hold, hnew⟩
    refine ⟨fun i => ⟨fun hi => index?_mem (hold i hi), fun hi => index?_mem (hnew i hi)⟩, ?_⟩
    intro i hi j hj hn
    have hfirst := hnew i hi
    rw [hn, hnew j hj, Option.some.injEq] at hfirst
    exact hfirst.symm
  · rintro ⟨hsame, hagree⟩
    have hback : t.IndexesAgree := fun i hi j hj hn =>
      hagree i ((hsame i).mp hi) j ((hsame j).mp hj) hn
    exact ⟨fun i hi => hagree.index?_of_mem ((hsame i).mp hi),
      fun i hi => hback.index?_of_mem ((hsame i).mpr hi)⟩

/-- The columns of one table are looked up in the other, and only the names the other way round. -/
theorem columns_found_iff (hd : (t.columns.map (·.name)).Nodup)
    (hf : ∀ l ∈ u.columns, l.FiniteDefault) :
    ((∀ l ∈ u.columns, ∃ k ∈ t.column? l.name, k.same l = true)
        ∧ ∀ k ∈ t.columns, k.name ∈ u.columns.map (·.name))
      ↔ (∀ k ∈ t.columns, ∃ l ∈ u.columns, k.Twin l)
        ∧ ∀ l ∈ u.columns, ∃ k ∈ t.columns, k.Twin l := by
  constructor
  · rintro ⟨hnew, hold⟩
    refine ⟨fun k hk => ?_, fun l hl => ?_⟩
    · obtain ⟨l, hl, hn⟩ := List.mem_map.mp (hold k hk)
      obtain ⟨k', hfound, hsame⟩ := hnew l hl
      -- no other column has this name, so the one that was compared is this one
      have hself : t.column? l.name = some k := by rw [hn, column?_of_mem hd hk]
      rw [Option.mem_def, hself, Option.some.injEq] at hfound
      exact ⟨l, hl, Difference.same_twin (hfound ▸ hsame)⟩
    · obtain ⟨k, hfound, hsame⟩ := hnew l hl
      exact ⟨k, (column?_mem hfound).1, Difference.same_twin hsame⟩
  · rintro ⟨hforth, hback⟩
    refine ⟨fun l hl => ?_, fun k hk => ?_⟩
    · obtain ⟨k, hk, htwin⟩ := hback l hl
      refine ⟨k, ?_, htwin.same (hf l hl)⟩
      rw [← htwin.name_eq]
      exact column?_of_mem hd hk
    · obtain ⟨l, hl, htwin⟩ := hforth k hk
      exact List.mem_map.mpr ⟨l, hl, htwin.name_eq.symm⟩

end Table

/-- Two schemas declare the same tables, in any order. Their names and versions may differ. -/
structure Schema.Alike (s s' : Schema) : Prop where
  tableNames : ∀ name, name ∈ s.tableNames ↔ name ∈ s'.tableNames
  tables : ∀ t ∈ s.tables, ∀ u ∈ s'.tables, t.name = u.name → t.Alike u

namespace Difference

variable {α : Type} {d e : Difference} {items : List α} {f : α → Difference}
variable {previous target : Table} {old new : Schema} {k : Column} {i : Index} {t : Table}

theorem append_isEmpty : (d ++ e).isEmpty = true ↔ d.isEmpty = true ∧ e.isEmpty = true := by
  simp only [isEmpty, append_statements, append_warnings, Bool.and_eq_true, List.isEmpty_iff,
    List.append_eq_nil_iff]
  exact and_and_and_comm

theorem collect_isEmpty : (collect items f).isEmpty = true ↔ ∀ x ∈ items, (f x).isEmpty = true := by
  simp only [isEmpty, collect, Bool.and_eq_true, List.isEmpty_iff, List.flatMap_eq_nil_iff]
  exact forall₂_and.symm

theorem ofOldIndex_isEmpty :
    (ofOldIndex target i).isEmpty = true ↔ target.index? i.name = some i := by
  unfold ofOldIndex
  split
  next h => simp [h, isEmpty]
  next j h =>
    rw [h, Option.some.injEq]
    split
    next he => simp [he, isEmpty]
    next he => simp [he, isEmpty]

/-- A new column is a statement, and one that has changed is a warning. -/
theorem ofColumn_isEmpty : (ofColumn previous target k).isEmpty = true
    ↔ ∃ old ∈ previous.column? k.name, old.same k = true := by
  unfold ofColumn
  split
  next h => simp [h, isEmpty, ofNewColumn]
  next old h =>
    simp only [h, Option.mem_def, Option.some.injEq, exists_eq_left']
    split
    next hs => simp [hs, isEmpty]
    next hs => simp [hs, isEmpty]

theorem ofOldColumn_isEmpty : (ofOldColumn target k).isEmpty = true
    ↔ k.name ∈ target.columns.map (·.name) := by
  rw [← Table.column?_isSome]
  unfold ofOldColumn
  split
  next h => simp [h, isEmpty]
  next h => simp [h, isEmpty]

theorem ofIndex_isEmpty :
    (ofIndex previous target i).isEmpty = true ↔ previous.index? i.name = some i := by
  unfold ofIndex
  split
  next h => simp [h, isEmpty]
  next h => simp [h, isEmpty]

/-- Nothing is said of two tables of one name exactly when they declare the same and the new one
has no index that another of its name hides. -/
theorem ofTable_isEmpty (hd : (previous.columns.map (·.name)).Nodup)
    (hf : ∀ k ∈ target.columns, k.FiniteDefault) :
    (ofTable previous target).isEmpty = true ↔ previous.Alike target ∧ target.IndexesAgree := by
  have hchecks : (if previous.checks = target.checks then ({} : Difference)
      else ⟨[], [.checksChanged target.name]⟩).isEmpty = true
        ↔ previous.checks = target.checks := by
    split
    next h => simp [h, isEmpty]
    next h => simp [h, isEmpty]
  have hparts : (ofTable previous target).isEmpty = true
      ↔ (((∀ l ∈ target.columns, ∃ k ∈ previous.column? l.name, k.same l = true)
            ∧ ∀ k ∈ previous.columns, k.name ∈ target.columns.map (·.name))
          ∧ ((∀ i ∈ previous.indexes, target.index? i.name = some i)
            ∧ ∀ i ∈ target.indexes, previous.index? i.name = some i))
        ∧ previous.checks = target.checks := by
    simp only [ofTable, append_isEmpty, collect_isEmpty, ofOldIndex_isEmpty, ofColumn_isEmpty,
      ofOldColumn_isEmpty, ofIndex_isEmpty, hchecks]
    tauto
  rw [hparts, Table.columns_found_iff hd hf, Table.indexes_found_iff]
  constructor
  · rintro ⟨⟨⟨hcolumns, hback⟩, hindexes, hagree⟩, hsame⟩
    exact ⟨⟨hcolumns, hback, hindexes, hsame⟩, hagree⟩
  · rintro ⟨⟨hcolumns, hback, hindexes, hsame⟩, hagree⟩
    exact ⟨⟨⟨hcolumns, hback⟩, hindexes, hagree⟩, hsame⟩

theorem ofNewTable_isEmpty : (ofNewTable old t).isEmpty = true
    ↔ ∃ previous ∈ old.table? t.name, (ofTable previous t).isEmpty = true := by
  unfold ofNewTable
  split
  next h => simp [h, isEmpty, Table.ddl]
  next previous h => simp [h]

theorem ofOldTable_isEmpty : (ofOldTable new t).isEmpty = true ↔ t.name ∈ new.tableNames := by
  unfold ofOldTable
  split
  next h => simp [isEmpty, Schema.table?_isNone.mp h]
  next u h =>
    obtain ⟨hu, hn⟩ := Schema.table?_mem h
    simp only [isEmpty, List.isEmpty_nil, Bool.and_self, true_iff]
    exact List.mem_map.mpr ⟨u, hu, hn⟩

/-- No change goes unreported but that of the sign of a zero: the difference of two compiled schemas
is empty exactly when they declare the same, with no index hidden behind another of its name. -/
theorem between_isEmpty_iff {d e : Definition} (hp : d.compile = .ok old)
    (ht : e.compile = .ok new) :
    (between old new).isEmpty = true ↔ old.Alike new ∧ ∀ t ∈ new.tables, t.IndexesAgree := by
  have hw := Definition.compile_wellFormed hp
  have hf := Definition.compile_finiteDefaults ht
  have htable : ∀ u ∈ old.tables, ∀ t ∈ new.tables,
      ((ofTable u t).isEmpty = true ↔ u.Alike t ∧ t.IndexesAgree) := fun u hu t ht =>
    ofTable_isEmpty (hw.tables u hu).columnsDistinct (hf t ht)
  simp only [between, append_isEmpty, collect_isEmpty, ofNewTable_isEmpty, ofOldTable_isEmpty]
  constructor
  · rintro ⟨hnew, hold⟩
    have found : ∀ t ∈ new.tables, ∀ u ∈ old.tables, u.name = t.name →
        u.Alike t ∧ t.IndexesAgree := by
      intro t ht u hu hn
      obtain ⟨previous, hfound, hempty⟩ := hnew t ht
      rw [← hn, Schema.table?_of_mem hw.tablesDistinct hu] at hfound
      cases hfound
      exact (htable u hu t ht).mp hempty
    refine ⟨⟨fun name => ⟨fun hm => ?_, fun hm => ?_⟩, fun u hu t ht hn => (found t ht u hu hn).1⟩,
      fun t ht => ?_⟩
    · obtain ⟨u, hu, rfl⟩ := List.mem_map.mp hm
      exact hold u hu
    · obtain ⟨t, ht, rfl⟩ := List.mem_map.mp hm
      obtain ⟨u, hfound, -⟩ := hnew t ht
      obtain ⟨hu, hn⟩ := Schema.table?_mem hfound
      exact List.mem_map.mpr ⟨u, hu, hn⟩
    · obtain ⟨u, hfound, -⟩ := hnew t ht
      obtain ⟨hu, hn⟩ := Schema.table?_mem hfound
      exact (found t ht u hu hn).2
  · rintro ⟨halike, hagree⟩
    refine ⟨fun t ht => ?_, fun u hu => (halike.tableNames u.name).mp (List.mem_map_of_mem hu)⟩
    obtain ⟨u, hu, hn⟩ := List.mem_map.mp ((halike.tableNames t.name).mpr (List.mem_map_of_mem ht))
    refine ⟨u, ?_, (htable u hu t ht).mpr ⟨halike.tables u hu t ht hn, hagree t ht⟩⟩
    rw [← hn]
    exact Schema.table?_of_mem hw.tablesDistinct hu

/-- Books and authors, with two indexes and a check. -/
def shelf : Definition :=
  ({ name := "shelf" } : Definition).column "books" "id" "integer primary key"
    |>.column "books" "price" "real default 0.0"
    |>.column "authors" "id" "integer primary key"
    |>.index "books" ⟨"books_id", ["id"], false⟩
    |>.index "books" ⟨"books_price", ["price", "id"], true⟩
    |>.check "books" "price >= 0"

/-- The same declarations from the last to the first, with the zero of the other sign. -/
def shelfReversed : Definition :=
  ({ name := "archive", version := 7 } : Definition).column "authors" "id" "integer primary key"
    |>.column "books" "price" "real default -0.0"
    |>.column "books" "id" "integer primary key"
    |>.index "books" ⟨"books_price", ["price", "id"], true⟩
    |>.index "books" ⟨"books_id", ["id"], false⟩
    |>.check "books" "price >= 0"

def shelfSchema : Schema :=
  ⟨"shelf", 1, [
    { name := "books"
      columns := [{ name := "id", type := .integer, primaryKey := true },
        { name := "price", type := .real, default := some (.value (.float ⟨0⟩)) }]
      indexes := [⟨"books_id", ["id"], false⟩, ⟨"books_price", ["price", "id"], true⟩]
      checks := ["price >= 0"] },
    { name := "authors"
      columns := [{ name := "id", type := .integer, primaryKey := true }] }]⟩

def shelfReversedSchema : Schema :=
  ⟨"archive", 7, [
    { name := "authors"
      columns := [{ name := "id", type := .integer, primaryKey := true }] },
    { name := "books"
      columns := [
        { name := "price", type := .real
          default := some (.value (.float ⟨0x8000000000000000⟩)) },
        { name := "id", type := .integer, primaryKey := true }]
      indexes := [⟨"books_price", ["price", "id"], true⟩, ⟨"books_id", ["id"], false⟩]
      checks := ["price >= 0"] }]⟩

theorem between_isEmpty_iff_shelf :
    shelf.compile = .ok shelfSchema ∧ shelfReversed.compile = .ok shelfReversedSchema
      ∧ (between shelfSchema shelfReversedSchema).isEmpty = true
      ∧ shelfSchema.Alike shelfReversedSchema := by
  have hshelf : shelf.compile = .ok shelfSchema := by decide +kernel
  have hreversed : shelfReversed.compile = .ok shelfReversedSchema := by decide +kernel
  have hempty : (between shelfSchema shelfReversedSchema).isEmpty = true := by decide +kernel
  exact ⟨hshelf, hreversed, hempty, ((between_isEmpty_iff hshelf hreversed).mp hempty).1⟩

/-- The zeros of both signs are different defaults, and the difference has nothing to say of it. -/
theorem empty_hides_zero_sign :
    ¬ ∀ (d e : Definition) (old new : Schema), d.compile = .ok old → e.compile = .ok new →
      (between old new).isEmpty = true →
      ∀ t ∈ old.tables, ∀ u ∈ new.tables, t.name = u.name → ∀ k ∈ t.columns, k ∈ u.columns := by
  intro h
  have hkept := h (zeroed "0.0") (zeroed "-0.0") (zeroedSchema ⟨0⟩)
    (zeroedSchema ⟨0x8000000000000000⟩) (by decide +kernel) (by decide +kernel) (by decide +kernel)
    _ List.mem_cons_self _ List.mem_cons_self rfl _ List.mem_cons_self
  revert hkept
  decide +kernel

end Difference

end Tabularium
