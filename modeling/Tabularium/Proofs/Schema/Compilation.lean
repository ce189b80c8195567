import Mathlib.Data.List.Nodup
import Tabularium.Proofs.OrderedMap
import Tabularium.Proofs.Outcome
import Tabularium.Proofs.Schema.Lookup
import Tabularium.Schema.Definition

namespace Tabularium

/-- A number that stands as a default is finite. -/
def Column.FiniteDefault (c : Column) : Prop :=
  ∀ x, c.default = some (.value (.float x)) → x.isFinite = true

namespace Clause

theorem readNumber_finite {w : String} {x : Binary64} (h : readNumber? w = some (.float x)) :
    x.isFinite = true := by
  unfold readNumber? at h
  split at h
  next => simp at h
  next =>
    obtain ⟨y, hy, he⟩ := Option.map_eq_some_iff.mp h
    cases he
    exact (Option.filter_eq_some_iff.mp hy).2

theorem readDefault_finite {tokens rest : List Token} {x : Binary64}
    (h : readDefault tokens = .ok (.value (.float x), rest)) : x.isFinite = true := by
  unfold readDefault at h
  split at h <;> try simp at h
  split at h <;> try simp at h
  split at h
  next hn =>
    simp only [Except.ok.injEq, Prod.mk.injEq, DefaultValue.value.injEq] at h
    exact readNumber_finite (h.1 ▸ hn)
  next => simp at h

theorem read_default_finite {token : Token} {tokens rest : List Token} {x : Binary64}
    (h : read token tokens = .ok (.default (.value (.float x)), rest)) : x.isFinite = true := by
  unfold read readWorded at h
  simp only [Except.map] at h
  split at h
  next => split at h <;> simp at h
  next =>
    split at h <;> (try split at h) <;> try simp at h
    next value hd =>
      obtain ⟨value, after⟩ := value
      cases h.1
      exact readDefault_finite hd
  next => simp at h

theorem apply_name (column : Column) (clause : Clause) :
    (clause.apply column).name = column.name := by
  cases clause <;> rfl

theorem apply_finiteDefault {column : Column} {clause : Clause} (hf : column.FiniteDefault)
    (hc : ∀ x, clause = .default (.value (.float x)) → x.isFinite = true) :
    (clause.apply column).FiniteDefault := by
  cases clause with
  | default value =>
    intro x hx
    exact hc x (congrArg _ (Option.some.inj hx))
  | _ => exact hf

end Clause

namespace Column

theorem applyClauses_keeps {tokens : List Token} {start column : Column}
    (hf : start.FiniteDefault) (h : start.applyClauses tokens = .ok column) :
    column.name = start.name ∧ column.FiniteDefault := by
  fun_induction applyClauses start tokens with
  | case1 start => cases h; exact ⟨rfl, hf⟩
  | case2 => simp at h
  | case3 start token rest clause rest' hread _ ih =>
    have hc : (clause.apply start).FiniteDefault := by
      refine Clause.apply_finiteDefault hf fun x hx => ?_
      subst hx
      exact Clause.read_default_finite hread
    obtain ⟨hn, hd⟩ := ih hc h
    exact ⟨hn.trans (Clause.apply_name start clause), hd⟩

theorem ofText_keeps {name text : String} {column : Column}
    (h : ofText name text = .ok column) : column.name = name ∧ column.FiniteDefault := by
  obtain ⟨tokens, _, h⟩ := bind_eq_ok.mp h
  unfold ofTokens at h
  split at h
  next =>
    split at h
    next =>
      refine applyClauses_keeps (fun x hx => ?_) h
      simp at hx
    next => simp at h
  next => simp at h
  next => simp at h

end Column

namespace Definition

/-- The key starts with the mark of a column set. -/
def mixesIn (key : String) : Bool :=
  mixinMark.toList.isPrefixOf key.toList

/-- The column set that such a key names. -/
def mixedIn (key : String) : String :=
  String.ofList (key.toList.drop mixinMark.toList.length)

/-- The entry can be resolved: its key names a column set that is declared, or it has the text of a
column. -/
structure Resolves (mixins : OrderedMap (OrderedMap String)) (entry : String × ColumnEntry) :
    Prop where
  mixin : mixesIn entry.1 = true → mixedIn entry.1 ∈ mixins.keys
  column : mixesIn entry.1 = false → ∃ text, entry.2 = .text text

/-- The columns, names with texts, that an entry stands for: those of the set that its key names, or
its own. -/
def columnsUnder (mixins : OrderedMap (OrderedMap String)) (entry : String × ColumnEntry) :
    List (String × String) :=
  if mixesIn entry.1 then ((mixins.get? (mixedIn entry.1)).map (·.entries)).getD []
  else
    match entry.2 with
    | .text text => [(entry.1, text)]
    | .splice _ => []

/-- A name with a text is read as a compiled column. -/
def Reads (c : String × String) (k : Column) : Prop :=
  Column.ofText c.1 c.2 = .ok k

end Definition

namespace TableDefinition

/-- The columns of a declaration in their order, those of a column set in the place of its key. -/
def columnsIn (mixins : OrderedMap (OrderedMap String)) (declared : TableDefinition) :
    List (String × String) :=
  declared.columns.entries.flatMap (Definition.columnsUnder mixins)

/-- What is asked of the declaration of a table. -/
structure WellFormed (mixins : OrderedMap (OrderedMap String)) (name : String)
    (declared : TableDefinition) : Prop where
  named : isIdentifier name = true
  resolved : ∀ entry ∈ declared.columns.entries, Definition.Resolves mixins entry
  columnsNamed : ∀ c ∈ declared.columnsIn mixins, isIdentifier c.1 = true
  columnsRead : ∀ c ∈ declared.columnsIn mixins, ∃ k, Definition.Reads c k
  columnsDistinct : ((declared.columnsIn mixins).map Prod.fst).Nodup
  indexesNamed : ∀ i ∈ declared.indexes, isIdentifier i.name = true
  indexesCovered : ∀ i ∈ declared.indexes, ∀ n ∈ i.columns,
    n ∈ (declared.columnsIn mixins).map Prod.fst

/-- The table that a declaration stands for. -/
structure LaysOut (mixins : OrderedMap (OrderedMap String)) (name : String)
    (declared : TableDefinition) (t : Table) : Prop where
  name : t.name = name
  columns : List.Forall₂ Definition.Reads (declared.columnsIn mixins) t.columns
  indexes : t.indexes = declared.indexes
  checks : t.checks = declared.checks

end TableDefinition

namespace Definition

variable {mixins : OrderedMap (OrderedMap String)} {table name text : String}
  {columns columns' : List Column} {declared : TableDefinition} {t : Table} {d : Definition}
  {s : Schema}

/-- What is asked of a definition. -/
structure WellFormed (d : Definition) : Prop where
  tables : ∀ entry ∈ d.tables.entries, entry.2.WellFormed d.mixins entry.1
  referencesResolved : ∀ entry ∈ d.tables.entries, ∀ c ∈ entry.2.columnsIn d.mixins,
    ∀ k r, Reads c k → k.references = some r →
      ∃ target ∈ d.tables.entries, target.1 = r.table
        ∧ r.column ∈ (target.2.columnsIn d.mixins).map Prod.fst

/-- The schema that a definition stands for. -/
structure LaysOut (d : Definition) (s : Schema) : Prop where
  name : s.name = d.name
  version : s.version = d.version
  tables : List.Forall₂ (fun entry t => entry.2.LaysOut d.mixins entry.1 t) d.tables.entries
    s.tables

theorem mixinOf?_eq (key : String) :
    mixinOf? key = if mixesIn key then some (mixedIn key) else none := by
  have hmark : mixinMark.toList = ['.', '.', '.'] := rfl
  unfold mixinOf? mixesIn mixedIn
  rw [hmark]
  split
  next rest hkey => simp [hkey]
  next hkey =>
    rw [if_neg]
    intro hp
    obtain ⟨rest, hrest⟩ := List.isPrefixOf_iff_prefix.mp hp
    exact hkey rest hrest.symm

theorem requireIdentifier_eq_ok : requireIdentifier name = .ok () ↔ isIdentifier name = true := by
  unfold requireIdentifier
  split
  next h => exact iff_of_true rfl h
  next h => exact iff_of_false (by simp) h

theorem any_name : columns.any (·.name == name) = true ↔ name ∈ columns.map (·.name) := by
  simp

theorem addColumn_eq_ok :
    addColumn table columns name text = .ok columns' ↔
      ∃ k, Reads (name, text) k ∧ isIdentifier name = true ∧ name ∉ columns.map (·.name)
        ∧ columns' = columns ++ [k] := by
  unfold addColumn Reads
  cases hread : Column.ofText name text with
  | error fault => simp
  | ok k =>
    dsimp only
    rw [bind_eq_ok]
    constructor
    · rintro ⟨⟨⟩, hid, h⟩
      split at h
      next => cases h
      next hnew =>
        cases h
        exact ⟨k, rfl, requireIdentifier_eq_ok.mp hid, fun hm => hnew (any_name.mpr hm), rfl⟩
    · rintro ⟨k', hk', hid, hnew, rfl⟩
      cases hk'
      refine ⟨(), requireIdentifier_eq_ok.mpr hid, ?_⟩
      rw [if_neg (fun ha => hnew (any_name.mp ha))]
      rfl

/-- Adds columns one after the other. -/
def addColumns (table : String) (columns : List Column) (added : List (String × String)) :
    Except SchemaError (List Column) :=
  added.foldlM (fun columns (name, text) => addColumn table columns name text) columns

theorem names_of_reads {added : List (String × String)} (h : List.Forall₂ Reads added columns) :
    columns.map (·.name) = added.map Prod.fst := by
  have hname : ∀ c k, Reads c k → c.1 = k.name := fun _ _ hk => (Column.ofText_keeps hk).1.symm
  exact (map_eq_of_forall₂ hname h).symm

/-- Columns are added one after the other exactly when each can be read and named and no name is
repeated or there already. -/
theorem addColumns_eq_ok {added : List (String × String)} :
    addColumns table columns added = .ok columns' ↔
      ∃ read, List.Forall₂ Reads added read ∧ (∀ c ∈ added, isIdentifier c.1 = true)
        ∧ (added.map Prod.fst).Nodup ∧ (∀ c ∈ added, c.1 ∉ columns.map (·.name))
        ∧ columns' = columns ++ read := by
  induction added generalizing columns with
  | nil =>
    constructor
    · intro h
      cases h
      exact ⟨[], .nil, by simp, List.nodup_nil, by simp, (List.append_nil _).symm⟩
    · rintro ⟨read, hread, -, -, -, rfl⟩
      cases hread
      rw [List.append_nil]
      rfl
  | cons c added ih =>
    obtain ⟨name, text⟩ := c
    have hstep : addColumns table columns ((name, text) :: added)
        = addColumn table columns name text >>= fun next => addColumns table next added := rfl
    rw [hstep, bind_eq_ok]
    constructor
    · rintro ⟨next, hfirst, hrest⟩
      obtain ⟨k, hk, hid, hnew, rfl⟩ := addColumn_eq_ok.mp hfirst
      obtain ⟨read, hread, hnamed, hdistinct, hfresh, rfl⟩ := ih.mp hrest
      have hname : k.name = name := (Column.ofText_keeps hk).1
      have hapart : ∀ c ∈ added, c.1 ∉ columns.map (·.name) ∧ c.1 ≠ name := by
        intro c hc
        have hf := hfresh c hc
        rw [List.map_append, List.mem_append, not_or, List.map_singleton, List.mem_singleton,
          hname] at hf
        exact hf
      refine ⟨k :: read, .cons hk hread, List.forall_mem_cons.mpr ⟨hid, hnamed⟩, ?_,
        List.forall_mem_cons.mpr ⟨hnew, fun c hc => (hapart c hc).1⟩, by simp⟩
      refine List.nodup_cons.mpr ⟨fun hm => ?_, hdistinct⟩
      obtain ⟨c, hc, heq⟩ := List.mem_map.mp hm
      exact (hapart c hc).2 heq
    · rintro ⟨read, hread, hnamed, hdistinct, hfresh, rfl⟩
      obtain ⟨k, rest, hk, hrest, rfl⟩ := List.forall₂_cons_left_iff.mp hread
      obtain ⟨hid, hnamed⟩ := List.forall_mem_cons.mp hnamed
      obtain ⟨hnew, hfresh⟩ := List.forall_mem_cons.mp hfresh
      obtain ⟨hapart, hdistinct⟩ := List.nodup_cons.mp hdistinct
      have hname : k.name = name := (Column.ofText_keeps hk).1
      refine ⟨columns ++ [k], addColumn_eq_ok.mpr ⟨k, hk, hid, hnew, rfl⟩, ?_⟩
      refine ih.mpr ⟨rest, hrest, hnamed, hdistinct, fun c hc => ?_, by simp⟩
      rw [List.map_append, List.mem_append, not_or, List.map_singleton, List.mem_singleton, hname]
      exact ⟨hfresh c hc, fun heq => hapart (List.mem_map.mpr ⟨c, hc, heq⟩)⟩

theorem addEntry_eq_ok {key : String} {value : ColumnEntry} :
    addEntry mixins table columns key value = .ok columns' ↔
      Resolves mixins (key, value)
        ∧ addColumns table columns (columnsUnder mixins (key, value)) = .ok columns' := by
  unfold addEntry columnsUnder
  rw [mixinOf?_eq]
  cases hmix : mixesIn key with
  | true =>
    cases hset : mixins.get? (mixedIn key) with
    | none =>
      have hno : ¬ Resolves mixins (key, value) := by
        intro h
        have hin := OrderedMap.get?_isSome.mpr (h.mixin hmix)
        rw [hset] at hin
        cases hin
      simp [hno, hset]
    | some set =>
      have hyes : Resolves mixins (key, value) :=
        ⟨fun _ => OrderedMap.get?_isSome.mp (by rw [hset]; rfl), fun h => by simp [hmix] at h⟩
      simp [hyes, hset, addColumns]
  | false =>
    cases value with
    | text text =>
      have hyes : Resolves mixins (key, .text text) :=
        ⟨fun h => by simp [hmix] at h, fun _ => ⟨text, rfl⟩⟩
      simp [hyes, addColumns]
    | splice on =>
      have hno : ¬ Resolves mixins (key, .splice on) := fun h => by
        obtain ⟨text, htext⟩ := h.column hmix
        cases htext
      simp [hno]

theorem addEntries_eq_ok {entries : List (String × ColumnEntry)} :
    entries.foldlM (fun columns (key, value) => addEntry mixins table columns key value) columns
        = .ok columns' ↔
      (∀ entry ∈ entries, Resolves mixins entry)
        ∧ addColumns table columns (entries.flatMap (columnsUnder mixins)) = .ok columns' := by
  induction entries generalizing columns with
  | nil => simp [addColumns]
  | cons entry entries ih =>
    rw [List.foldlM_cons, bind_eq_ok, List.flatMap_cons, List.forall_mem_cons, addColumns,
      List.foldlM_append, bind_eq_ok]
    constructor
    · rintro ⟨next, hfirst, hrest⟩
      obtain ⟨hresolves, hadd⟩ := addEntry_eq_ok.mp hfirst
      obtain ⟨hall, hadds⟩ := ih.mp hrest
      exact ⟨⟨hresolves, hall⟩, next, hadd, hadds⟩
    · rintro ⟨⟨hresolves, hall⟩, next, hadd, hadds⟩
      exact ⟨next, addEntry_eq_ok.mpr ⟨hresolves, hadd⟩, ih.mpr ⟨hall, hadds⟩⟩

theorem requireIndex_eq_ok {index : Index} :
    requireIndex table columns index = .ok () ↔
      isIdentifier index.name = true ∧ ∀ n ∈ index.columns, n ∈ columns.map (·.name) := by
  have hcolumn : ∀ n, (if columns.any (·.name == n) then Except.ok ()
      else .error (SchemaError.unknownIndexColumn table index.name n)) = .ok ()
        ↔ n ∈ columns.map (·.name) := by
    intro n
    rw [← any_name]
    split
    next h => exact iff_of_true rfl h
    next h => exact iff_of_false (by simp) h
  unfold requireIndex
  rw [bind_eq_ok]
  simp only [forM_eq_ok, hcolumn]
  constructor
  · rintro ⟨⟨⟩, hid, hcovered⟩
    exact ⟨requireIdentifier_eq_ok.mp hid, hcovered⟩
  · rintro ⟨hid, hcovered⟩
    exact ⟨(), requireIdentifier_eq_ok.mpr hid, hcovered⟩

theorem compileTable_eq_ok :
    compileTable mixins name declared = .ok t ↔
      declared.WellFormed mixins name ∧ declared.LaysOut mixins name t := by
  have hcolumns : ∀ columns, declared.columns.entries.foldlM
      (fun columns (key, value) => addEntry mixins name columns key value) [] = .ok columns ↔
        (∀ entry ∈ declared.columns.entries, Resolves mixins entry)
          ∧ List.Forall₂ Reads (declared.columnsIn mixins) columns
          ∧ (∀ c ∈ declared.columnsIn mixins, isIdentifier c.1 = true)
          ∧ ((declared.columnsIn mixins).map Prod.fst).Nodup := by
    intro columns
    rw [addEntries_eq_ok, addColumns_eq_ok]
    constructor
    · rintro ⟨hresolved, read, hread, hnamed, hdistinct, -, rfl⟩
      exact ⟨hresolved, hread, hnamed, hdistinct⟩
    · rintro ⟨hresolved, hread, hnamed, hdistinct⟩
      exact ⟨hresolved, columns, hread, hnamed, hdistinct, by simp, rfl⟩
  constructor
  · intro h
    obtain ⟨⟨⟩, hid, h⟩ := bind_eq_ok.mp h
    obtain ⟨columns, hfold, h⟩ := bind_eq_ok.mp h
    obtain ⟨⟨⟩, hindexes, h⟩ := bind_eq_ok.mp h
    cases h
    obtain ⟨hresolved, hread, hnamed, hdistinct⟩ := (hcolumns columns).mp hfold
    have hindex := fun i hi => requireIndex_eq_ok.mp (forM_eq_ok.mp hindexes i hi)
    refine ⟨⟨requireIdentifier_eq_ok.mp hid, hresolved, hnamed, ?_, hdistinct,
      fun i hi => (hindex i hi).1, fun i hi n hn => ?_⟩, rfl, hread, rfl, rfl⟩
    · intro c hc
      obtain ⟨k, -, hk⟩ := forall₂_mem hread hc
      exact ⟨k, hk⟩
    · rw [← names_of_reads hread]
      exact (hindex i hi).2 n hn
  · rintro ⟨hw, ⟨hname, hread, hindexes, hchecks⟩⟩
    have hindex : declared.indexes.forM (requireIndex name t.columns) = .ok () := by
      refine forM_eq_ok.mpr fun i hi => requireIndex_eq_ok.mpr ⟨hw.indexesNamed i hi, ?_⟩
      intro n hn
      rw [names_of_reads hread]
      exact hw.indexesCovered i hi n hn
    refine bind_eq_ok.mpr ⟨(), requireIdentifier_eq_ok.mpr hw.named, ?_⟩
    refine bind_eq_ok.mpr ⟨t.columns, (hcolumns _).mpr
      ⟨hw.resolved, hread, hw.columnsNamed, hw.columnsDistinct⟩, ?_⟩
    refine bind_eq_ok.mpr ⟨(), hindex, ?_⟩
    cases t
    simp_all [pure, Except.pure]

theorem exists_laysOut_table (h : declared.WellFormed mixins name) :
    ∃ t, declared.LaysOut mixins name t := by
  obtain ⟨columns, hcolumns⟩ := exists_forall₂ h.columnsRead
  exact ⟨⟨name, columns, declared.indexes, declared.checks⟩, rfl, hcolumns, rfl, rfl⟩

theorem requireReference_eq_ok {k : Column} (hd : s.tableNames.Nodup) :
    requireReference s table k = .ok () ↔
      ∀ r, k.references = some r →
        ∃ u ∈ s.tables, u.name = r.table ∧ r.column ∈ u.columns.map (·.name) := by
  unfold requireReference
  cases k.references with
  | none => simp
  | some target =>
    simp only [Option.some.injEq, forall_eq']
    split
    next k hk =>
      refine iff_of_true rfl ?_
      obtain ⟨u, hu, hk⟩ := Option.bind_eq_some_iff.mp hk
      obtain ⟨hm, hn⟩ := Schema.table?_mem hu
      exact ⟨u, hm, hn, Table.column?_isSome.mp (by rw [hk]; rfl)⟩
    next hnone =>
      refine iff_of_false (by simp) ?_
      rintro ⟨u, hu, hn, hk⟩
      rw [← hn, Schema.table?_of_mem hd hu, Option.bind_some] at hnone
      have hsome := Table.column?_isSome.mpr hk
      rw [hnone] at hsome
      cases hsome

theorem LaysOut.tableNames (h : d.LaysOut s) : s.tableNames = d.tables.keys :=
  (map_eq_of_forall₂ (fun _ _ ht => ht.name.symm) h.tables).symm

theorem LaysOut.tablesDistinct (h : d.LaysOut s) : s.tableNames.Nodup :=
  h.tableNames ▸ d.tables.nodup

/-- References are resolved in a schema as they are in its definition. -/
theorem LaysOut.references_iff (h : d.LaysOut s) :
    (∀ t ∈ s.tables, ∀ k ∈ t.columns, ∀ r, k.references = some r →
        ∃ u ∈ s.tables, u.name = r.table ∧ r.column ∈ u.columns.map (·.name))
      ↔ ∀ entry ∈ d.tables.entries, ∀ c ∈ entry.2.columnsIn d.mixins,
        ∀ k r, Reads c k → k.references = some r →
          ∃ target ∈ d.tables.entries, target.1 = r.table
            ∧ r.column ∈ (target.2.columnsIn d.mixins).map Prod.fst := by
  constructor
  · intro hs entry hentry c hc k r hk hr
    obtain ⟨t, ht, hlays⟩ := forall₂_mem h.tables hentry
    obtain ⟨k', hk', hread⟩ := forall₂_mem hlays.columns hc
    obtain rfl : k' = k := Except.ok.inj (hread.symm.trans hk)
    obtain ⟨u, hu, hn, hcolumn⟩ := hs t ht k' hk' r hr
    obtain ⟨target, htarget, hlays'⟩ := forall₂_mem h.tables.flip hu
    refine ⟨target, htarget, hlays'.name.symm.trans hn, ?_⟩
    rw [← names_of_reads hlays'.columns]
    exact hcolumn
  · intro hd t ht k hk r hr
    obtain ⟨entry, hentry, hlays⟩ := forall₂_mem h.tables.flip ht
    obtain ⟨c, hc, hread⟩ := forall₂_mem hlays.columns.flip hk
    obtain ⟨target, htarget, hn, hcolumn⟩ := hd entry hentry c hc k r hread hr
    obtain ⟨u, hu, hlays'⟩ := forall₂_mem h.tables htarget
    refine ⟨u, hu, hlays'.name.trans hn, ?_⟩
    rw [names_of_reads hlays'.columns]
    exact hcolumn

/-- A definition compiles to a schema exactly when it is well formed and the schema is the one that
it stands for. -/
theorem compile_eq_ok : d.compile = .ok s ↔ d.WellFormed ∧ d.LaysOut s := by
  constructor
  · intro h
    obtain ⟨tables, htables, h⟩ := bind_eq_ok.mp h
    obtain ⟨⟨⟩, hreferences, h⟩ := bind_eq_ok.mp h
    cases h
    obtain ⟨htables, hlayouts⟩ := (List.forall₂_and_left _ _).mp
      ((mapM_eq_ok.mp htables).imp fun _ _ ht => compileTable_eq_ok.mp ht)
    have hlays : d.LaysOut { name := d.name, version := d.version, tables } :=
      ⟨rfl, rfl, hlayouts⟩
    refine ⟨⟨htables, hlays.references_iff.mp fun t ht k hk => ?_⟩, hlays⟩
    exact (requireReference_eq_ok hlays.tablesDistinct).mp
      (forM_eq_ok.mp (forM_eq_ok.mp hreferences t ht) k hk)
  · rintro ⟨hw, hlays⟩
    have htables := ((List.forall₂_and_left _ _).mpr ⟨hw.tables, hlays.tables⟩).imp
      fun _ _ ht => compileTable_eq_ok.mpr ht
    have hreferences : s.tables.forM (fun t => t.columns.forM (requireReference s t.name))
        = .ok () :=
      forM_eq_ok.mpr fun t ht => forM_eq_ok.mpr fun k hk =>
        (requireReference_eq_ok hlays.tablesDistinct).mpr
          (hlays.references_iff.mpr hw.referencesResolved t ht k hk)
    obtain ⟨hname, hversion, -⟩ := hlays
    obtain ⟨name, version, tables⟩ := s
    subst hname hversion
    exact bind_eq_ok.mpr ⟨tables, mapM_eq_ok.mpr htables,
      bind_eq_ok.mpr ⟨(), hreferences, rfl⟩⟩

theorem compile_table (h : d.compile = .ok s) (ht : t ∈ s.tables) :
    ∃ entry ∈ d.tables.entries, entry.2.WellFormed d.mixins entry.1
      ∧ entry.2.LaysOut d.mixins entry.1 t := by
  obtain ⟨hw, hlays⟩ := compile_eq_ok.mp h
  obtain ⟨entry, hentry, htable⟩ := forall₂_mem hlays.tables.flip ht
  exact ⟨entry, hentry, hw.tables entry hentry, htable⟩

theorem WellFormed.exists_laysOut (h : d.WellFormed) : ∃ s, d.LaysOut s := by
  obtain ⟨tables, htables⟩ := exists_forall₂ fun entry hentry =>
    exists_laysOut_table (h.tables entry hentry)
  exact ⟨⟨d.name, d.version, tables⟩, rfl, rfl, htables⟩

/-- A definition compiles exactly when it is well formed. The schema has the tables of the
definition in their order, and each table the columns of its declaration in their order, those of a
column set in the place of its key, as they are read from their texts; no two tables and no two
columns of a table have one name. -/
theorem compile_accepts_iff (d : Definition) :
    ((∃ s, d.compile = .ok s) ↔ d.WellFormed)
      ∧ ∀ s, d.compile = .ok s → d.LaysOut s ∧ s.tableNames.Nodup
        ∧ ∀ t ∈ s.tables, (t.columns.map (·.name)).Nodup := by
  constructor
  · constructor
    · rintro ⟨s, h⟩
      exact (compile_eq_ok.mp h).1
    · intro hw
      obtain ⟨s, hs⟩ := hw.exists_laysOut
      exact ⟨s, compile_eq_ok.mpr ⟨hw, hs⟩⟩
  · intro s h
    have hlays := (compile_eq_ok.mp h).2
    refine ⟨hlays, hlays.tablesDistinct, fun t ht => ?_⟩
    obtain ⟨entry, -, hentry, htable⟩ := compile_table h ht
    rw [names_of_reads htable.columns]
    exact hentry.columnsDistinct

/-- Posts refer to users, who are declared behind them; both have a column set in their midst. -/
def blog : Definition :=
  ({ name := "blog" } : Definition).mixin "stamps"
      [("createdAt", "timestamp_ms not null default now"), ("updatedAt", "timestamp_ms")]
    |>.column "posts" "id" "integer primary key"
    |>.mixinInto "posts" "stamps"
    |>.column "posts" "userId" "integer not null -> users.id cascade"
    |>.index "posts" ⟨"posts_age", ["createdAt", "userId"], false⟩
    |>.check "posts" "updatedAt >= createdAt"
    |>.mixinInto "users" "stamps"
    |>.column "users" "id" "integer primary key"

def blogSchema : Schema :=
  let created : Column :=
    { name := "createdAt", type := .integer, mode := some .timestampMs, notNull := true,
      default := some (.value .now) }
  let updated : Column := { name := "updatedAt", type := .integer, mode := some .timestampMs }
  ⟨"blog", 1, [
    { name := "posts"
      columns := [{ name := "id", type := .integer, primaryKey := true }, created, updated,
        { name := "userId", type := .integer, notNull := true,
          references := some ⟨"users", "id", some .cascade⟩ }]
      indexes := [⟨"posts_age", ["createdAt", "userId"], false⟩]
      checks := ["updatedAt >= createdAt"] },
    { name := "users"
      columns := [created, updated, { name := "id", type := .integer, primaryKey := true }] }]⟩

theorem blog_compiles : blog.compile = .ok blogSchema := by decide +kernel

theorem compile_accepts_iff_blog :
    blog.compile = .ok blogSchema ∧ blog.WellFormed ∧ blog.LaysOut blogSchema
      ∧ blogSchema.tableNames.Nodup
      ∧ ∀ t ∈ blogSchema.tables, (t.columns.map (·.name)).Nodup := by
  obtain ⟨haccepts, hlays⟩ := compile_accepts_iff blog
  exact ⟨blog_compiles, haccepts.mp ⟨blogSchema, blog_compiles⟩, hlays blogSchema blog_compiles⟩

end Definition

end Tabularium
