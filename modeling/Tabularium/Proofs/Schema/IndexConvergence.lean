import Tabularium.Proofs.Schema.IndexSpace

namespace Tabularium

namespace Difference

open IndexSpace

variable {previous target : Schema} {t u : Table} {i j : Index} {x : IndexSpace} {name : String}

theorem mem_staleIndexes {old : Table} (ho : old.IndexesAgree) :
    name ∈ (staleIndexes old t).map (·.name)
      ↔ (old.index? name).isSome ∧ old.index? name ≠ t.index? name := by
  constructor
  · intro h
    obtain ⟨i, hi, rfl⟩ := List.mem_map.mp h
    obtain ⟨hm, hs⟩ := List.mem_filter.mp hi
    rw [ho.index?_of_mem hm]
    exact ⟨rfl, fun he => of_decide_eq_true hs he.symm⟩
  · rintro ⟨hsome, hne⟩
    obtain ⟨i, hi⟩ := Option.isSome_iff_exists.mp hsome
    obtain rfl := Table.index?_name hi
    refine List.mem_map.mpr ⟨i, List.mem_filter.mpr ⟨Table.index?_mem hi, decide_eq_true ?_⟩, rfl⟩
    exact fun he => hne (hi.trans he.symm)

theorem find?_newIndexes {old : Table} (ht : t.IndexesAgree) (name : String) :
    (newIndexes old t).find? (fun i => i.name == name)
      = if old.index? name = t.index? name then none else t.index? name := by
  cases hf : (newIndexes old t).find? fun i => i.name == name with
  | none =>
    split
    next => rfl
    next hne =>
      symm
      by_contra hsome
      obtain ⟨i, hi⟩ := Option.ne_none_iff_exists'.mp hsome
      obtain rfl := Table.index?_name hi
      have hnew : i ∈ newIndexes old t :=
        List.mem_filter.mpr ⟨Table.index?_mem hi, decide_eq_true fun he => hne (he.trans hi.symm)⟩
      exact List.find?_eq_none.mp hf i hnew (beq_self_eq_true _)
  | some i =>
    obtain ⟨hm, hs⟩ := List.mem_filter.mp (List.mem_of_find?_eq_some hf)
    obtain rfl : i.name = name := by simpa using List.find?_some hf
    rw [ht.index?_of_mem hm, if_neg (of_decide_eq_true hs)]

/-- What becomes of an index name at a table of the new schema, given the index that the old and the
new declaration of the table have under it. -/
def carried (table : String) (old new : Option Index) (held : Option IndexEntry) :
    Option IndexEntry :=
  if old = new then held else (if old.isSome then none else held).or (new.map (Index.entry table))

/-- What is held behind a table was held before and is not dropped there, or is created there. -/
theorem carried_eq_some {old new : Option Index} {held : Option IndexEntry} {table : String}
    {e : IndexEntry} (h : carried table old new held = some e) :
    held = some e ∧ (old = new ∨ old = none) ∨ new.map (Index.entry table) = some e := by
  unfold carried at h
  split at h
  next hsame => exact .inl ⟨h, .inl hsame⟩
  next =>
    rcases Option.or_eq_some_iff.mp h with hheld | ⟨-, hnew⟩
    · split at hheld
      next => cases hheld
      next hnone => exact .inl ⟨hheld, .inr (Option.not_isSome_iff_eq_none.mp hnone)⟩
    · exact .inr hnew

theorem executeAll_ofTable {old : Table} (ho : old.IndexesAgree) (ht : t.IndexesAgree)
    (x : IndexSpace) (name : String) :
    x.executeAll (ofTable old t).statements name
      = carried t.name (old.index? name) (t.index? name) (x name) := by
  have hadded : ∀ y : IndexSpace,
      y.executeAll (((newColumns old t).map addable).map (.addColumn t.name)) = y := fun y =>
    executeAll_other fun s hs z => by
      obtain ⟨k, _, rfl⟩ := List.mem_map.mp hs
      rfl
  have hgone : ∀ y : IndexSpace,
      y.executeAll (((goneColumns old t).map (·.name)).map (.dropColumn t.name)) = y := fun y =>
    executeAll_other fun s hs z => by
      obtain ⟨k, _, rfl⟩ := List.mem_map.mp hs
      rfl
  rw [ofTable_statements, executeAll_append, executeAll_append, executeAll_append, hadded, hgone,
    executeAll_creates, executeAll_drops, find?_newIndexes ht, carried]
  by_cases he : old.index? name = t.index? name
  · have hkept : name ∉ (staleIndexes old t).map (·.name) := fun h =>
      ((mem_staleIndexes ho).mp h).2 he
    rw [if_neg hkept, if_pos he, if_pos he, Option.map_none, Option.or_none]
  · rw [if_neg he, if_neg he]
    congr 1
    by_cases hs : (old.index? name).isSome
    · rw [if_pos hs, if_pos ((mem_staleIndexes ho).mpr ⟨hs, he⟩)]
    · rw [if_neg hs, if_neg fun h => hs ((mem_staleIndexes ho).mp h).1]

/-- One table of the new schema: an index name is kept, dropped, created, or both, as the two
declarations of the table say; it is never created over what another table has under it. -/
theorem executeAll_ofNewTable (hp : previous.IndexesDistinct) (ht : t.IndexesAgree)
    (x : IndexSpace) (name : String) :
    x.executeAll (ofNewTable previous t).statements name
      = carried t.name (previous.indexOf? t.name name) (t.index? name) (x name) := by
  unfold ofNewTable Schema.indexOf?
  cases ho : previous.table? t.name with
  | none =>
    have hcreate : x.executeAll t.ddl = x.executeAll (t.indexes.map (.createIndex t.name)) := rfl
    rw [hcreate, executeAll_creates, Option.bind_none, carried]
    change (x name).or ((t.index? name).map _) = _
    cases t.index? name <;> simp
  | some old =>
    rw [Option.bind_some]
    exact executeAll_ofTable (hp.agree (Schema.table?_mem ho).1) ht x name

theorem executeAll_cons (tables : List Table) (x : IndexSpace) :
    x.executeAll (collect (t :: tables) (ofNewTable previous)).statements
      = (x.executeAll (ofNewTable previous t).statements).executeAll
          (collect tables (ofNewTable previous)).statements := by
  rw [← executeAll_append]
  simp [collect]

/-- Tables of the new schema that do not declare a name have it dropped where the old one does. -/
theorem executeAll_undeclared (hp : previous.IndexesDistinct) {tables : List Table}
    (ha : ∀ t ∈ tables, t.IndexesAgree) (hn : ∀ t ∈ tables, t.index? name = none)
    (x : IndexSpace) :
    x.executeAll (collect tables (ofNewTable previous)).statements name
      = if ∃ t ∈ tables, (previous.indexOf? t.name name).isSome then none else x name := by
  induction tables generalizing x with
  | nil => simp [collect, executeAll]
  | cons t tables ih =>
    obtain ⟨hagree, ha⟩ := List.forall_mem_cons.mp ha
    obtain ⟨hnone, hn⟩ := List.forall_mem_cons.mp hn
    rw [executeAll_cons, ih ha hn, executeAll_ofNewTable hp hagree, hnone, carried]
    cases ho : previous.indexOf? t.name name with
    | none => simp [ho]
    | some old => simp [ho]

/-- What is held under a name is declared by a table of the new schema that was gone through, or is
the old index on a table that was not. -/
def Accounted (previous : Schema) (done : List Table) (name : String)
    (held : Option IndexEntry) : Prop :=
  ∀ e ∈ held, (∃ t ∈ done, ∃ i ∈ t.indexes, i.name = name ∧ i.entry t.name = e)
    ∨ previous.indexSpace name = some e ∧ e.table ∉ done.map (·.name)

theorem Accounted.step {done : List Table} {held : Option IndexEntry}
    (hd : previous.tableNames.Nodup) (hp : previous.IndexesDistinct)
    (h : Accounted previous done name held) (t : Table) :
    Accounted previous (done ++ [t]) name
      (carried t.name (previous.indexOf? t.name name) (t.index? name) held) := by
  have hhere : ∀ e, (t.index? name).map (Index.entry t.name) = some e →
      ∃ u ∈ done ++ [t], ∃ i ∈ u.indexes, i.name = name ∧ i.entry u.name = e := by
    intro e he
    obtain ⟨i, hi, he⟩ := Option.map_eq_some_iff.mp he
    exact ⟨t, by simp, i, Table.index?_mem hi, Table.index?_name hi, he⟩
  intro e he
  rcases carried_eq_some he with ⟨hheld, hkept⟩ | hnew
  · rcases h e hheld with ⟨u, hu, hdeclared⟩ | ⟨hprevious, hdone⟩
    · exact .inl ⟨u, List.mem_append_left _ hu, hdeclared⟩
    · by_cases htable : e.table = t.name
      · -- an old index on this very table is kept only when it is declared again
        obtain ⟨i, hi, hentry⟩ := Schema.indexOf?_of_indexSpace hd hp hprevious
        rw [htable] at hi hentry
        rcases hkept with hsame | hnone
        · exact .inl (hhere e (by rw [← hsame, hi, Option.map_some, hentry]))
        · rw [hi] at hnone
          cases hnone
      · refine .inr ⟨hprevious, fun hm => ?_⟩
        rw [List.map_append, List.mem_append] at hm
        exact hm.elim hdone fun hm => htable (List.mem_singleton.mp hm)
  · exact .inl (hhere e hnew)

theorem accounted_run {tables : List Table} (hd : previous.tableNames.Nodup)
    (hp : previous.IndexesDistinct) (ha : ∀ t ∈ tables, t.IndexesAgree) {done : List Table}
    (h : Accounted previous done name (x name)) :
    Accounted previous (done ++ tables) name
      (x.executeAll (collect tables (ofNewTable previous)).statements name) := by
  induction tables generalizing x done with
  | nil => simpa [collect, executeAll] using h
  | cons t tables ih =>
    obtain ⟨hagree, ha⟩ := List.forall_mem_cons.mp ha
    have hstep := h.step hd hp t
    rw [← executeAll_ofNewTable hp hagree x name] at hstep
    rw [executeAll_cons, List.append_cons]
    exact ih ha hstep

/-- No index name goes to a table from one that stands behind it in the new schema, or that is gone
from it. -/
def FreesNames (previous target : Schema) : Prop :=
  ∀ u ∈ previous.tables, ∀ j ∈ u.indexes, ∀ t ∈ target.tables, ∀ i ∈ t.indexes, i.name = j.name →
    target.tableNames.idxOf u.name ≤ target.tableNames.idxOf t.name

instance : Decidable (FreesNames previous target) := inferInstanceAs (Decidable (∀ _ ∈ _, _))

/-- The indexes of a store after a difference. -/
def indexesAfter (previous target : Schema) : IndexSpace :=
  previous.indexSpace.executeAll (between previous target).statements

/-- No index stays on a table that does not declare it any more. -/
theorem indexesAfter_declared (hd : previous.tableNames.Nodup) (hp : previous.IndexesDistinct)
    (htd : target.tableNames.Nodup) (ht : target.IndexesDistinct) (hm : t ∈ target.tables)
    (h : indexesAfter previous target i.name = some (i.entry t.name)) : i ∈ t.indexes := by
  have hstart : Accounted previous [] i.name (previous.indexSpace i.name) :=
    fun e he => .inr ⟨he, by simp⟩
  have hend := accounted_run hd hp (fun u hu => ht.agree hu) hstart
  rw [List.nil_append, ← between_statements] at hend
  rcases hend _ h with ⟨u, hu, j, hj, hn, he⟩ | ⟨_, hgone⟩
  · obtain rfl := List.inj_on_of_nodup_map htd hu hm (congrArg IndexEntry.table he)
    obtain ⟨jname, jcolumns, junique⟩ := j
    obtain ⟨iname, icolumns, iunique⟩ := i
    cases hn
    cases he
    exact hj
  · exact absurd (List.mem_map_of_mem hm) hgone

theorem idxOf_le_idxOf_iff {first rest : List String} {a b : String} (hb : b ∉ first) :
    (first ++ b :: rest).idxOf a ≤ (first ++ b :: rest).idxOf b ↔ a ∈ first ∨ a = b := by
  rw [List.idxOf_append_of_notMem hb, List.idxOf_cons_self, Nat.add_zero]
  by_cases ha : a ∈ first
  · rw [List.idxOf_append_of_mem ha]
    exact iff_of_true (Nat.le_of_lt (List.idxOf_lt_length_of_mem ha)) (.inl ha)
  · rw [List.idxOf_append_of_notMem ha]
    by_cases hab : a = b
    · simp [hab]
    · simp [ha, hab, List.idxOf_cons_ne rest (Ne.symm hab)]

/-- What is held in the end under a name that a table of the new schema declares. -/
theorem indexesAfter_at (hp : previous.IndexesDistinct) (htd : target.tableNames.Nodup)
    (ht : target.IndexesDistinct) {first rest : List Table}
    (hsplit : target.tables = first ++ t :: rest) (hi : i ∈ t.indexes) :
    indexesAfter previous target i.name
      = if ∃ u ∈ rest, (previous.indexOf? u.name i.name).isSome then none
        else carried t.name (previous.indexOf? t.name i.name) (some i)
          (if ∃ u ∈ first, (previous.indexOf? u.name i.name).isSome then none
            else previous.indexSpace i.name) := by
  have hm : t ∈ target.tables := by simp [hsplit]
  have hagree : ∀ u ∈ target.tables, u.IndexesAgree := fun u hu => ht.agree hu
  have hother : ∀ u ∈ target.tables, u ≠ t → u.index? i.name = none := by
    intro u hu hne
    by_contra hsome
    obtain ⟨j, hj⟩ := Option.ne_none_iff_exists'.mp hsome
    exact hne (ht.unique hu (Table.index?_mem hj) hm hi (Table.index?_name hj)).1
  have hnodup : (first ++ t :: rest).Nodup := hsplit ▸ htd.of_map _
  obtain ⟨-, htail, hapart⟩ := List.nodup_append.mp hnodup
  have hfirst : ∀ u ∈ first, u ∈ target.tables ∧ u ≠ t := fun u hu =>
    ⟨by simp [hsplit, hu], hapart u hu t List.mem_cons_self⟩
  have hrest : ∀ u ∈ rest, u ∈ target.tables ∧ u ≠ t := fun u hu =>
    ⟨by simp [hsplit, hu], fun he => (List.nodup_cons.mp htail).1 (he ▸ hu)⟩
  have hsteps : (collect (first ++ t :: rest) (ofNewTable previous)).statements
      = (collect first (ofNewTable previous)).statements
        ++ (collect (t :: rest) (ofNewTable previous)).statements := by simp [collect]
  rw [indexesAfter, between_statements, hsplit, hsteps, executeAll_append, executeAll_cons,
    executeAll_undeclared hp (fun u hu => hagree u (hrest u hu).1)
      fun u hu => hother u (hrest u hu).1 (hrest u hu).2,
    executeAll_ofNewTable hp (hagree t hm), (hagree t hm).index?_of_mem hi,
    executeAll_undeclared hp (fun u hu => hagree u (hfirst u hu).1)
      fun u hu => hother u (hfirst u hu).1 (hfirst u hu).2]

/-- An index with a name of its own is created. -/
theorem indexesAfter_of_new (hd : previous.tableNames.Nodup) (hp : previous.IndexesDistinct)
    (htd : target.tableNames.Nodup) (ht : target.IndexesDistinct) {first rest : List Table}
    (hsplit : target.tables = first ++ t :: rest) (hi : i ∈ t.indexes)
    (hnew : previous.indexSpace i.name = none) :
    indexesAfter previous target i.name = some (i.entry t.name) := by
  have hnone : ∀ table, previous.indexOf? table i.name = none := by
    intro table
    by_contra hsome
    obtain ⟨j, hj⟩ := Option.ne_none_iff_exists'.mp hsome
    obtain ⟨u, hu, -, hj, hn⟩ := (Schema.indexOf?_eq_some hd hp).mp hj
    rw [(Schema.indexSpace_eq_some hp).mpr ⟨u, hu, j, hj, hn, rfl⟩] at hnew
    cases hnew
  rw [indexesAfter_at hp htd ht hsplit hi]
  simp [hnone, hnew, carried]

/-- An index whose name comes from an old table arrives when that table is gone through before its
own one, or is its own one. -/
theorem indexesAfter_of_old (hd : previous.tableNames.Nodup) (hp : previous.IndexesDistinct)
    (htd : target.tableNames.Nodup) (ht : target.IndexesDistinct) {first rest : List Table}
    (hsplit : target.tables = first ++ t :: rest) (hi : i ∈ t.indexes) (hu : u ∈ previous.tables)
    (hj : j ∈ u.indexes) (hn : j.name = i.name) :
    indexesAfter previous target i.name = some (i.entry t.name)
      ↔ u.name ∈ first.map (·.name) ∨ u.name = t.name := by
  have howner := hn ▸ Schema.indexOf?_of_mem hd hp hu hj
  have hspace : previous.indexSpace i.name = some (j.entry u.name) :=
    (Schema.indexSpace_eq_some hp).mpr ⟨u, hu, j, hj, hn, rfl⟩
  have hdropped : ∀ tables : List Table,
      (∃ v ∈ tables, (previous.indexOf? v.name i.name).isSome)
        ↔ u.name ∈ tables.map (·.name) := by
    intro tables
    constructor
    · rintro ⟨v, hv, hsome⟩
      rw [howner] at hsome
      split at hsome
      next h => exact List.mem_map.mpr ⟨v, hv, h.symm⟩
      next => cases hsome
    · intro h
      obtain ⟨v, hv, hname⟩ := List.mem_map.mp h
      exact ⟨v, hv, by rw [howner, if_pos hname.symm]; rfl⟩
  have hnames : target.tableNames = first.map (·.name) ++ t.name :: rest.map (·.name) := by
    simp [Schema.tableNames, hsplit]
  obtain ⟨-, htail, hapart⟩ := List.nodup_append.mp (hnames ▸ htd)
  rw [indexesAfter_at hp htd ht hsplit hi, hspace, howner t.name]
  simp only [hdropped]
  by_cases hsame : u.name = t.name
  · -- the index stays on its table, as it is or in a new form
    have hfirst : u.name ∉ first.map (·.name) := fun h => hapart _ h _ List.mem_cons_self hsame
    have hrest : u.name ∉ rest.map (·.name) := hsame ▸ (List.nodup_cons.mp htail).1
    rw [if_neg hrest, if_pos hsame, if_neg hfirst]
    refine iff_of_true ?_ (.inr hsame)
    unfold carried
    split
    next he => rw [Option.some.inj he, hsame]
    next => rfl
  · rw [if_neg hsame]
    by_cases hfirst : u.name ∈ first.map (·.name)
    · -- the name was free when the table was gone through
      have hrest : u.name ∉ rest.map (·.name) := fun h =>
        hapart _ hfirst _ (List.mem_cons_of_mem _ h) rfl
      rw [if_neg hrest, if_pos hfirst]
      exact iff_of_true rfl (.inl hfirst)
    · -- the name was still taken, and is dropped behind the table or not at all
      rw [if_neg hfirst]
      refine iff_of_false (fun h => ?_) (not_or.mpr ⟨hfirst, hsame⟩)
      split at h
      next => cases h
      next => exact hsame (congrArg IndexEntry.table (Option.some.inj h))

/-- An index arrives exactly when the table that its name comes from, if any, is gone through no
later than its own table. -/
theorem indexesAfter_iff (hd : previous.tableNames.Nodup) (hp : previous.IndexesDistinct)
    (htd : target.tableNames.Nodup) (ht : target.IndexesDistinct) (hm : t ∈ target.tables)
    (hi : i ∈ t.indexes) :
    indexesAfter previous target i.name = some (i.entry t.name)
      ↔ ∀ u ∈ previous.tables, ∀ j ∈ u.indexes, i.name = j.name →
        target.tableNames.idxOf u.name ≤ target.tableNames.idxOf t.name := by
  obtain ⟨first, rest, hsplit⟩ := List.append_of_mem hm
  have hnames : target.tableNames = first.map (·.name) ++ t.name :: rest.map (·.name) := by
    simp [Schema.tableNames, hsplit]
  have hfresh : t.name ∉ first.map (·.name) := fun h =>
    (List.nodup_append.mp (hnames ▸ htd)).2.2 _ h _ List.mem_cons_self rfl
  simp only [hnames, idxOf_le_idxOf_iff hfresh]
  cases hs : previous.indexSpace i.name with
  | none =>
    refine iff_of_true (indexesAfter_of_new hd hp htd ht hsplit hi hs) fun u hu j hj hn => ?_
    rw [(Schema.indexSpace_eq_some hp).mpr ⟨u, hu, j, hj, hn.symm, rfl⟩] at hs
    cases hs
  | some e =>
    obtain ⟨u, hu, j, hj, hn, -⟩ := (Schema.indexSpace_eq_some hp).mp hs
    rw [indexesAfter_of_old hd hp htd ht hsplit hi hu hj hn]
    constructor
    · intro h v hv k hk hkn
      obtain ⟨rfl, -⟩ := hp.unique hu hj hv hk (hn.trans hkn)
      exact h
    · exact fun h => h u hu j hj hn.symm

/-- The difference of two compiled schemas can be executed on a store of the old one. It leaves on
every table of the new one exactly the indexes that the table declares if and only if no index name
goes to a table from one that stands behind it in the new schema or is gone from it. -/
theorem indexes_arrive_iff {d e : Definition} (hp : d.compile = .ok previous)
    (ht : e.compile = .ok target) (hpd : previous.IndexesDistinct)
    (htd : target.IndexesDistinct) :
    (∃ final, previous.catalog.run (between previous target).statements = some final
        ∧ (indexesAfter previous target).Matches final)
      ∧ ((∀ t ∈ target.tables, (indexesAfter previous target).Holds t)
        ↔ FreesNames previous target) := by
  have hp := Definition.compile_wellFormed hp
  have ht := Definition.compile_wellFormed ht
  constructor
  · obtain ⟨final, hrun, -⟩ := run_targets ht.tables ht.tablesDistinct hp.columnsDistinct
      (ready_catalog hp.tablesDistinct)
    rw [← between_statements] at hrun
    exact ⟨final, hrun, (Schema.indexSpace_matches hpd).run hrun⟩
  · constructor
    · intro h u hu j hj t hm i hi hn
      exact (indexesAfter_iff hp.tablesDistinct hpd ht.tablesDistinct htd hm hi).mp
        ((h t hm i).mpr hi) u hu j hj hn
    · refine fun h t hm i => ⟨fun hi => ?_, fun hi => ?_⟩
      · exact indexesAfter_declared hp.tablesDistinct hpd ht.tablesDistinct htd hm hi
      · exact (indexesAfter_iff hp.tablesDistinct hpd ht.tablesDistinct htd hm hi).mpr
          fun u hu j hj hn => h u hu j hj t hm i hi hn

/-- Two tables, the first one with an index. -/
def handedOld : Definition :=
  ({ name := "app" } : Definition).column "a" "x" "text"
    |>.column "b" "y" "text"
    |>.index "a" ⟨"i", ["x"], false⟩

/-- The name of the index goes to the second table. -/
def handedOn : Definition :=
  ({ name := "app" } : Definition).column "a" "x" "text"
    |>.column "b" "y" "text"
    |>.index "b" ⟨"i", ["y"], true⟩

/-- The name of the index goes to the other table, which comes first now. -/
def handedBack : Definition :=
  ({ name := "app" } : Definition).column "b" "y" "text"
    |>.index "b" ⟨"i", ["y"], true⟩
    |>.column "a" "x" "text"

def handedTable (name column : String) (indexes : List Index) : Table :=
  { name, columns := [{ name := column, type := .text }], indexes }

def handedOldSchema : Schema :=
  ⟨"app", 1, [handedTable "a" "x" [⟨"i", ["x"], false⟩], handedTable "b" "y" []]⟩

def handedOnSchema : Schema :=
  ⟨"app", 1, [handedTable "a" "x" [], handedTable "b" "y" [⟨"i", ["y"], true⟩]]⟩

def handedBackSchema : Schema :=
  ⟨"app", 1, [handedTable "b" "y" [⟨"i", ["y"], true⟩], handedTable "a" "x" []]⟩

theorem handedOld_compiles : handedOld.compile = .ok handedOldSchema := by decide +kernel

theorem indexes_arrive_iff_handedOn :
    handedOld.compile = .ok handedOldSchema ∧ handedOn.compile = .ok handedOnSchema
      ∧ handedOldSchema.IndexesDistinct ∧ handedOnSchema.IndexesDistinct
      ∧ FreesNames handedOldSchema handedOnSchema
      ∧ ∀ t ∈ handedOnSchema.tables, (indexesAfter handedOldSchema handedOnSchema).Holds t := by
  have hold : handedOldSchema.IndexesDistinct := by decide +kernel
  have hnew : handedOnSchema.IndexesDistinct := by decide +kernel
  have hcompiles : handedOn.compile = .ok handedOnSchema := by decide +kernel
  have hfrees : FreesNames handedOldSchema handedOnSchema := by decide +kernel
  exact ⟨handedOld_compiles, hcompiles, hold, hnew, hfrees,
    (indexes_arrive_iff handedOld_compiles hcompiles hold hnew).2.mpr hfrees⟩

/-- An index whose name goes to an earlier table is not created, since the name is still taken, and
the old index is dropped behind that. -/
theorem handed_back_lost :
    ¬ ∀ (d e : Definition) (previous target : Schema), d.compile = .ok previous →
      e.compile = .ok target → previous.IndexesDistinct → target.IndexesDistinct →
      ∀ t ∈ target.tables, (indexesAfter previous target).Holds t := by
  intro h
  have hall := h handedOld handedBack handedOldSchema handedBackSchema handedOld_compiles
    (by decide +kernel) (by decide +kernel) (by decide +kernel) _ List.mem_cons_self
  have hheld := (hall ⟨"i", ["y"], true⟩).mpr List.mem_cons_self
  revert hheld
  decide +kernel

end Difference

end Tabularium
