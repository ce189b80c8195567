import Tabularium.Proofs.Schema.Convergence
import Tabularium.Proofs.Schema.Snapshot

namespace Tabularium

def Table.SameColumns (old new : Table) : Prop :=
  (old.columns.map (·.name)).Perm (new.columns.map (·.name))

/-- The indexes of a table are still declared. -/
def Table.KeepsIndexes (old new : Table) : Prop :=
  ∀ i ∈ old.indexes, ∃ j ∈ new.indexes, j.name = i.name ∧ j.columns = i.columns

/-- A table has the columns that it had and still declares its indexes. -/
structure Table.Continues (old new : Table) : Prop where
  columns : old.SameColumns new
  indexes : old.KeepsIndexes new

/-- Every table that is gone for a while comes back in a relation to the one that left. -/
def Returns (relation : Table → Table → Prop) (schemas : List Schema) : Prop :=
  ∀ first s gap s' rest, schemas = first ++ s :: gap ++ s' :: rest → gap ≠ [] →
    ∀ t ∈ s.tables, ∀ t' ∈ s'.tables, t'.name = t.name → (∀ g ∈ gap, t.name ∉ g.tableNames) →
      relation t t'

theorem Returns.of_append {relation : Table → Table → Prop} {front back : List Schema}
    (h : Returns relation (front ++ back)) : Returns relation front := by
  rintro first s gap s' rest rfl
  refine h first s gap s' (rest ++ back) ?_
  simp

instance (old new : Table) : Decidable (old.SameColumns new) :=
  inferInstanceAs (Decidable (List.Perm _ _))

instance (old new : Table) : Decidable (old.KeepsIndexes new) :=
  inferInstanceAs (Decidable (∀ _ ∈ _, _))

instance (old new : Table) : Decidable (old.Continues new) :=
  decidable_of_iff (old.SameColumns new ∧ old.KeepsIndexes new)
    ⟨fun h => ⟨h.1, h.2⟩, fun h => ⟨h.columns, h.indexes⟩⟩

namespace Returns

variable {relation : Table → Table → Prop} {s : Schema} {later : List Schema}

/-- The tables of a schema that are gone in the next one come back in the relation. -/
def FromFirst (relation : Table → Table → Prop) (s : Schema) (later : List Schema) : Prop :=
  ∀ t ∈ s.tables, (∀ g ∈ later.head?, t.name ∉ g.tableNames) →
    ∀ s' ∈ later.find? (t.name ∈ ·.tableNames), ∀ t' ∈ s'.tables, t'.name = t.name → relation t t'

theorem cons_iff :
    Returns relation (s :: later) ↔ FromFirst relation s later ∧ Returns relation later := by
  constructor
  · refine fun h => ⟨fun t ht hgone s' hs' t' ht' hn => ?_, ?_⟩
    · obtain ⟨hm, gap, rest, rfl, hgap⟩ := List.find?_eq_some_iff_append.mp hs'
      refine h [] s gap s' rest rfl ?_ t ht t' ht' hn fun g hg => by simpa using hgap g hg
      rintro rfl
      exact hgone s' rfl (by simpa using hm)
    · rintro first s' gap s'' rest rfl
      exact h (s :: first) s' gap s'' rest rfl
  · rintro ⟨hfirst, hlater⟩ first s' gap s'' rest hsplit hne t ht t' ht' hn hgone
    cases first with
    | nil =>
      obtain ⟨rfl, rfl⟩ := List.cons.inj hsplit
      refine hfirst t ht (fun g hg => ?_) s'' ?_ t' ht' hn
      · obtain ⟨g', gap, rfl⟩ := List.exists_cons_of_ne_nil hne
        obtain rfl : g' = g := Option.some.inj hg
        exact hgone g' List.mem_cons_self
      · refine List.find?_eq_some_iff_append.mpr ⟨?_, gap, rest, rfl, fun g hg => ?_⟩
        · simpa using hn ▸ List.mem_map_of_mem ht'
        · simpa using hgone g hg
    | cons f first =>
      obtain ⟨rfl, rfl⟩ := List.cons.inj hsplit
      exact hlater first s' gap s'' rest rfl hne t ht t' ht' hn hgone

theorem nil : Returns relation [] := by
  intro first s gap s' rest hsplit
  simp at hsplit

instance [DecidableRel relation] : Decidable (FromFirst relation s later) :=
  inferInstanceAs (Decidable (∀ _ ∈ _, _))

instance decidable [DecidableRel relation] :
    (schemas : List Schema) → Decidable (Returns relation schemas)
  | [] => .isTrue nil
  | _ :: later =>
    have : Decidable (Returns relation later) := decidable later
    decidable_of_iff _ cons_iff.symm

end Returns

namespace Table

variable {t t' : Table}

theorem readBack_columns (t : Table) :
    t.readBack.columns.map (·.name) = t.columns.map (·.name) := by
  simp [readBack, Column.readBack]

end Table

namespace Schema

theorem readBack_tableNames (s : Schema) : s.readBack.tableNames = s.tableNames := by
  simp [readBack, tableNames, Table.readBack]

theorem mem_readBack {s : Schema} {t : Table} (h : t ∈ s.readBack.tables) :
    ∃ u ∈ s.tables, t = u.readBack := by
  obtain ⟨u, hu, rfl⟩ := List.mem_map.mp h
  exact ⟨u, hu, rfl⟩

theorem WellFormed.empty (name : String) : (Schema.empty name).WellFormed := by
  refine ⟨?_, List.nodup_nil, ?_⟩
  · intro t ht
    cases ht
  · intro t ht
    cases ht

/-- What was written and read is as well formed as what was compiled. -/
theorem WellFormed.readBack {s : Schema} (h : s.WellFormed) : s.readBack.WellFormed := by
  refine ⟨fun t ht => ?_, ?_, fun t ht c hc r hr => ?_⟩
  · obtain ⟨u, hu, rfl⟩ := mem_readBack ht
    have hw := h.tables u hu
    refine ⟨hw.named, fun c hc => ?_, ?_, hw.indexesNamed, ?_⟩
    · obtain ⟨k, hk, rfl⟩ := List.mem_map.mp hc
      exact hw.columnsNamed k hk
    · rw [u.readBack_columns]
      exact hw.columnsDistinct
    · rw [u.readBack_columns]
      exact hw.indexesCovered
  · rw [s.readBack_tableNames]
    exact h.tablesDistinct
  · obtain ⟨u, hu, rfl⟩ := mem_readBack ht
    obtain ⟨k, hk, rfl⟩ := List.mem_map.mp hc
    obtain ⟨v, hv, hn, m, hm, he⟩ := h.referencesResolved u hu k hk r hr
    exact ⟨v.readBack, List.mem_map_of_mem hv, hn, m.readBack, List.mem_map_of_mem hm, he⟩

end Schema

namespace Catalog.Follows

variable {c c' : Catalog} {t t' : Table}

theorem readBack (h : c.Follows t) : c.Follows t.readBack := by
  refine ⟨?_, h.indexes⟩
  rw [t.readBack_columns]
  exact h.columns

theorem continues (h : c.Follows t) (ht : t.Continues t') (hn : t'.name = t.name) :
    c.Follows t' := by
  refine ⟨?_, fun i hi hi' => ?_⟩
  · obtain ⟨columns, hc, hp⟩ := h.columns
    exact ⟨columns, hn ▸ hc, hp.trans ht.columns⟩
  · obtain ⟨j, hj, rfl⟩ := h.indexes i hi (hi'.trans hn)
    obtain ⟨k, hk, hname, hcolumns⟩ := ht.indexes j hj
    refine ⟨k, hk, ?_⟩
    unfold Index.stored
    rw [hname, hcolumns, hn]

end Catalog.Follows

/-- How a store stands when the differences between schemas were executed in it one after the other,
and the last one is measured from what is known of the last schema that was written down. -/
structure Tracks (schemas : List Schema) (known : Schema) (c : Catalog) : Prop where
  columnsDistinct : known.ColumnsDistinct
  noted : ∀ t ∈ known.tables, c.Follows t
  names : ∀ name, name ∈ known.tableNames ↔ ∃ s ∈ schemas.getLast?, name ∈ s.tableNames
  arrived : ∀ s ∈ schemas.getLast?, ∀ t ∈ s.tables, c.Follows t
  held : ∀ name, (c.columns name = none ∧ ∀ i ∈ c.indexes, i.table ≠ name)
    ∨ ∃ first s gap, schemas = first ++ s :: gap ∧ (∀ g ∈ gap, name ∉ g.tableNames)
      ∧ ∃ t ∈ s.tables, t.name = name ∧ c.Follows t

namespace Tracks

variable {schemas : List Schema} {known s : Schema} {c c' : Catalog}

theorem blank (name : String) : Tracks [] (.empty name) .blank := by
  refine
    { columnsDistinct := ?columnsDistinct, noted := ?noted, names := ?names, arrived := ?arrived,
      held := ?held }
  case columnsDistinct =>
    intro t ht
    cases ht
  case noted =>
    intro t ht
    cases ht
  case names =>
    simp [Schema.empty, Schema.tableNames]
  case arrived =>
    intro s hs
    cases hs
  case held =>
    exact fun name => .inl ⟨rfl, by simp [Catalog.blank]⟩

/-- Only the tables of what is known matter. -/
theorem of_tables {known' : Schema} (h : Tracks schemas known c)
    (ht : known'.tables = known.tables) : Tracks schemas known' c := by
  have hnames : known'.tableNames = known.tableNames := congrArg (List.map Table.name) ht
  refine ⟨?_, ?_, ?_, h.arrived, h.held⟩
  · unfold Schema.ColumnsDistinct
    rw [ht]
    exact h.columnsDistinct
  · rw [ht]
    exact h.noted
  · rw [hnames]
    exact h.names

/-- The store is ready for every table of a next schema in which tables come back as they left. -/
theorem ready (h : Tracks schemas known c) (hr : Returns Table.Continues (schemas ++ [s])) :
    ∀ t ∈ s.tables, Difference.Ready known c t := by
  intro t ht
  unfold Difference.Ready
  split
  next old ho => exact h.noted old (Schema.table?_mem ho).1
  next hnone =>
    have hgone := Schema.table?_isNone.mp hnone
    rcases h.held t.name with hblank | ⟨first, s', gap, hsplit, hgap, u, hu, hn, hf⟩
    · exact .inr hblank
    · left
      have hne : gap ≠ [] := by
        rintro rfl
        refine hgone ((h.names t.name).mpr ⟨s', ?_, List.mem_map.mpr ⟨u, hu, hn⟩⟩)
        rw [hsplit]
        simp
      refine hf.continues (hr first s' gap s [] ?_ hne u hu t ht hn.symm ?_) hn.symm
      · rw [hsplit]
      · rw [hn]
        exact hgap

/-- Without a difference the same tables are declared. -/
theorem names_of_isEmpty (h : (Difference.between known s).isEmpty = true) (name : String) :
    name ∈ known.tableNames ↔ name ∈ s.tableNames := by
  unfold Difference.isEmpty at h
  rw [Bool.and_eq_true, List.isEmpty_iff, List.isEmpty_iff] at h
  obtain ⟨hstatements, hwarnings⟩ := h
  constructor
  · intro hm
    by_contra hgone
    obtain ⟨t, ht, rfl⟩ := List.mem_map.mp hm
    have hw : Warning.tableRemoved t.name ∈ (Difference.between known s).warnings :=
      Difference.mem_warnings.mpr (.inr ⟨t, ht, Schema.table?_isNone.mpr hgone, rfl⟩)
    rw [hwarnings] at hw
    cases hw
  · intro hm
    by_contra hgone
    obtain ⟨t, ht, rfl⟩ := List.mem_map.mp hm
    have hd : Ddl.createTable t ∈ (Difference.between known s).statements :=
      Difference.mem_statements.mpr ⟨t, ht, .createTable (Schema.table?_isNone.mpr hgone)⟩
    rw [hstatements] at hd
    cases hd

/-- The schema that is known after a next one: what was written of it, unless nothing was. -/
def next (known s : Schema) : Schema :=
  if (Difference.between known s).isEmpty then known else s.readBack

theorem next_names (known s : Schema) (name : String) :
    name ∈ (next known s).tableNames ↔ name ∈ s.tableNames := by
  unfold next
  split
  next h => exact names_of_isEmpty h name
  next => rw [s.readBack_tableNames]

/-- What the store holds for a name that the next schema does not have stays as it is. -/
theorem held_gone (h : Tracks schemas known c) {name : String} (hm : name ∉ s.tableNames)
    (hc : c'.columns name = c.columns name)
    (hi : ∀ i ∈ c'.indexes, i.table = name → i ∈ c.indexes) :
    (c'.columns name = none ∧ ∀ i ∈ c'.indexes, i.table ≠ name)
      ∨ ∃ first u gap, schemas ++ [s] = first ++ u :: gap ∧ (∀ g ∈ gap, name ∉ g.tableNames)
        ∧ ∃ t ∈ u.tables, t.name = name ∧ c'.Follows t := by
  rcases h.held name with ⟨hnone, hno⟩ | ⟨first, u, gap, hsplit, hgap, t, ht, hn, hf⟩
  · exact .inl ⟨hc.trans hnone, fun i him hn => hno i (hi i him hn) hn⟩
  · refine .inr ⟨first, u, gap ++ [s], by simp [hsplit], ?_, t, ht, hn, ?_⟩
    · exact List.forall_mem_append.mpr ⟨hgap, by simpa using hm⟩
    · subst hn
      exact hf.frame hc hi

/-- The statements that lead to a next schema can be executed, and the store tracks it. -/
theorem step (h : Tracks schemas known c) (hs : s.WellFormed)
    (hr : Returns Table.Continues (schemas ++ [s])) :
    ∃ c', c.run (Difference.between known s).statements = some c'
      ∧ Tracks (schemas ++ [s]) (next known s) c' := by
  obtain ⟨c', hrun, hall, hframe, hindexes⟩ :=
    Difference.run_targets hs.tables hs.tablesDistinct h.columnsDistinct (h.ready hr)
  rw [← Difference.between_statements] at hrun
  have harrived : ∀ t ∈ s.tables, c'.Follows t := fun t ht => (hall t ht).1
  refine ⟨c', hrun,
    { columnsDistinct := ?columnsDistinct, noted := ?noted, names := ?names, arrived := ?arrived,
      held := ?held }⟩
  case columnsDistinct =>
    unfold next
    split
    · exact h.columnsDistinct
    · exact hs.readBack.columnsDistinct
  case noted =>
    unfold next
    split
    next hempty =>
      -- nothing was executed
      unfold Difference.isEmpty at hempty
      rw [Bool.and_eq_true, List.isEmpty_iff] at hempty
      rw [hempty.1] at hrun
      cases hrun
      exact h.noted
    next =>
      intro t ht
      obtain ⟨u, hu, rfl⟩ := Schema.mem_readBack ht
      exact (harrived u hu).readBack
  case names =>
    intro name
    rw [next_names]
    simp
  case arrived =>
    intro s' hs' t ht
    obtain rfl : s = s' := by simpa using hs'
    exact harrived t ht
  case held =>
    intro name
    by_cases hm : name ∈ s.tableNames
    · obtain ⟨t, ht, hn⟩ := List.mem_map.mp hm
      exact .inr ⟨schemas, s, [], rfl, by simp, t, ht, hn, harrived t ht⟩
    · exact h.held_gone hm (hframe name hm) fun i hi hn => hindexes i hi (hn ▸ hm)

end Tracks

end Tabularium
