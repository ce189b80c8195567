import Mathlib.Data.Finset.Card
import Tabularium.Proofs.Query.StatementMarks

namespace Tabularium

variable {column : String} {j j' : Json} {t t' : Test} {ts : List Test} {c c' : Condition}
  {group group' : List Condition} {f f' : Filter} {docs docs' : List (List Json)}

section

variable {α β γ : Type} {R : α → β → Prop} {xs : List α} {ys : List β}

theorem isEmpty_eq_of_forall₂ (h : List.Forall₂ R xs ys) : xs.isEmpty = ys.isEmpty := by
  cases h <;> rfl

theorem forall₂_kept {R : List α → List β → Prop} {xs : List (List α)} {ys : List (List β)}
    (hR : ∀ x y, R x y → x.isEmpty = y.isEmpty) (h : List.Forall₂ R xs ys) :
    List.Forall₂ R (xs.filter (!·.isEmpty)) (ys.filter (!·.isEmpty)) := by
  refine List.rel_filter (fun x y hxy => ?_) h
  show (!x.isEmpty) = true ↔ (!y.isEmpty) = true
  rw [hR x y hxy]

end

namespace Json

/-- The document is no list or record. -/
def isScalar : Json → Bool
  | .list _ => false
  | .record _ => false
  | _ => true

/-- The document is a text with a percent sign. -/
def isPattern : Json → Bool
  | .text s => s.toList.contains '%'
  | _ => false

/-- Documents that differ in values only, and are null at the same places. -/
inductive Alike : Json → Json → Prop where
  | values {a b : Json} (left : a.isScalar = true) (right : b.isScalar = true)
    (null : a.isNull = b.isNull) : Alike a b
  | lists {xs ys : List Json} (items : List.Forall₂ Alike xs ys) : Alike (.list xs) (.list ys)
  | records {xs ys : List (String × Json)} (keys : xs.map Prod.fst = ys.map Prod.fst)
    (values : List.Forall₂ Alike (xs.map Prod.snd) (ys.map Prod.snd)) :
    Alike (.record xs) (.record ys)

/-- Operators of one name on operands that are alike. Strictly, a test for null is the same one. -/
structure OperatorsAlike (strict : Bool) (o o' : String × Json) : Prop where
  key : o.1 = o'.1
  operand : o.2.Alike o'.2
  nullish : strict = true → o.1 = "isNullish" → o.2 = o'.2

/-- Conditions on a column that differ in values only, and are patterns both or neither. -/
inductive EntriesAlike (strict : Bool) : Json → Json → Prop where
  | values {a b : Json} (left : a.isScalar = true) (right : b.isScalar = true)
    (null : a.isNull = b.isNull) (pattern : a.isPattern = b.isPattern) : EntriesAlike strict a b
  | operators {os os' : List (String × Json)} (each : List.Forall₂ (OperatorsAlike strict) os os') :
    EntriesAlike strict (.record os) (.record os')

/-- Conditions on the same columns that differ in values only. -/
inductive ConditionsAlike (strict : Bool) : Json → Json → Prop where
  | records {es es' : List (String × Json)}
    (each : List.Forall₂ (fun e e' => e.1 = e'.1 ∧ EntriesAlike strict e.2 e'.2) es es') :
    ConditionsAlike strict (.record es) (.record es')

end Json

namespace Test

/-- Tests with the same text and as many values. -/
def Same (t t' : Test) : Prop :=
  (∀ column, t.sql column = t'.sql column) ∧ t.params.length = t'.params.length

theorem operand_ok {v : SqlValue} : operand column j = .ok v ↔
    j.isScalar = true ∧ v = .ofJson j := by
  cases j <;> simp [operand, Json.isScalar, eq_comm]

theorem operand_alike {v : SqlValue} (h : j.Alike j') (hv : operand column j = .ok v) :
    operand column j' = .ok (.ofJson j') := by
  obtain ⟨hs, -⟩ := operand_ok.mp hv
  cases h with
  | values _ right _ => exact operand_ok.mpr ⟨right, rfl⟩
  | lists => cases hs
  | records => cases hs

theorem oneOf_same {vs vs' : List SqlValue} (h : vs.length = vs'.length) :
    Same (oneOf vs) (oneOf vs') := by
  refine ⟨fun column => ?_, h⟩
  cases vs <;> cases vs' <;> simp_all [sql]

theorem oneOf_alike {items items' : List Json} {values : List SqlValue}
    (h : List.Forall₂ Json.Alike items items') (hv : items.mapM (operand column) = .ok values) :
    ∃ values', items'.mapM (operand column) = .ok values' ∧
      Same (oneOf values) (oneOf values') := by
  obtain ⟨values', hvalues', hall⟩ := mapM_forall₂ (f := operand column) (S := fun _ _ => True)
    (fun _ _ _ hj hv => ⟨_, operand_alike hj hv, trivial⟩) h hv
  exact ⟨values', hvalues', oneOf_same hall.length_eq⟩

theorem ofOperator_alike {key : String} (h : j.Alike j') (hn : key = "isNullish" → j = j')
    (ht : ofOperator column key j = .ok t) :
    ∃ t', ofOperator column key j' = .ok t' ∧ Same t t' := by
  unfold ofOperator at ht ⊢
  split at ht
  next =>
    split at ht
    next items =>
      obtain ⟨values, hvalues, rfl⟩ := map_eq_ok.mp ht
      cases h with
      | values left => cases left
      | lists hitems =>
        obtain ⟨values', hvalues', hsame⟩ := oneOf_alike hitems hvalues
        exact ⟨oneOf values', map_eq_ok.mpr ⟨values', hvalues', rfl⟩, hsame⟩
    next => cases ht
  next =>
    cases hn rfl
    exact ⟨t, ht, fun _ => rfl, rfl⟩
  next =>
    split at ht
    next op hop =>
      obtain ⟨v, hv, rfl⟩ := map_eq_ok.mp ht
      simp only [operand_alike h hv]
      exact ⟨compare op (.ofJson j'), rfl, fun _ => rfl, rfl⟩
    next => cases ht

/-- The test that a scalar stands for. -/
theorem ofJson_scalar (h : j.isScalar = true) : ofJson column j =
    .ok [if j.isNull then isNull else if j.isPattern then like (j.text?.getD "")
      else eq (.ofJson j)] := by
  cases j with
  | list => cases h
  | record => cases h
  | text s =>
    simp only [ofJson, Json.isNull, Json.isPattern, Json.text?, SqlValue.ofJson]
    rfl
  | _ => rfl

theorem ofJson_alike (h : Json.EntriesAlike true j j') (ht : ofJson column j = .ok ts) :
    ∃ ts', ofJson column j' = .ok ts' ∧ List.Forall₂ Same ts ts' := by
  cases h with
  | values left right null pattern =>
    rw [ofJson_scalar left] at ht
    cases ht
    refine ⟨_, ofJson_scalar right, .cons ?_ .nil⟩
    rw [null, pattern]
    split
    next => exact ⟨fun _ => rfl, rfl⟩
    next => split <;> exact ⟨fun _ => rfl, rfl⟩
  | operators each =>
    cases each with
    | nil => cases ht
    | cons hfirst hrest =>
      refine mapM_forall₂ (fun ⟨key, operand⟩ ⟨key', operand'⟩ t ho ht => ?_)
        (.cons hfirst hrest) ht
      obtain rfl : key = key' := ho.key
      exact ofOperator_alike ho.operand (ho.nullish rfl) ht

end Test

/-- Tests of one column with the same text and as many values. -/
def ColumnTest.Same (t t' : ColumnTest) : Prop :=
  t.sql = t'.sql ∧ t.params.length = t'.params.length

namespace Condition

/-- Conditions of the same tests. -/
def Same (c c' : Condition) : Prop :=
  List.Forall₂ ColumnTest.Same c c'

theorem ofJson_alike (h : Json.ConditionsAlike true j j') (hc : ofJson j = .ok c) :
    ∃ c', ofJson j' = .ok c' ∧ c.Same c' := by
  cases h with
  | @records es es' each =>
    obtain ⟨tests, htests, hc⟩ := bind_eq_ok.mp hc
    cases hc
    have hall := mapM_forall₂ (S := List.Forall₂ ColumnTest.Same) ?_ each htests
    · obtain ⟨tests', htests', hsame⟩ := hall
      exact ⟨tests'.flatten, bind_eq_ok.mpr ⟨tests', htests', rfl⟩, List.rel_flatten hsame⟩
    · rintro ⟨column, j⟩ ⟨_, j'⟩ ts ⟨rfl, hj⟩ hts
      obtain ⟨⟨⟩, hname, hts⟩ := bind_eq_ok.mp hts
      obtain ⟨found, hfound, hts⟩ := bind_eq_ok.mp hts
      cases hts
      obtain ⟨found', hfound', hsame⟩ := Test.ofJson_alike hj hfound
      refine ⟨found'.map fun test => ⟨column, test⟩, ?_, ?_⟩
      · exact bind_eq_ok.mpr ⟨⟨⟩, hname, bind_eq_ok.mpr ⟨found', hfound', rfl⟩⟩
      · rw [List.forall₂_map_left_iff, List.forall₂_map_right_iff]
        exact hsame.imp fun _ _ ht => ⟨ht.1 column, ht.2⟩

theorem Same.isEmpty (h : c.Same c') : c.isEmpty = c'.isEmpty :=
  isEmpty_eq_of_forall₂ h

theorem Same.text (h : c.Same c') : c.sql = c'.sql ∧ c.params.length = c'.params.length := by
  have htexts : c.map ColumnTest.sql = c'.map ColumnTest.sql :=
    map_eq_of_forall₂ (fun _ _ ht => ht.1) h
  have hvalues : c.map (fun t => t.params.length) = c'.map fun t => t.params.length :=
    map_eq_of_forall₂ (fun _ _ ht => ht.2) h
  exact ⟨congrArg (separated " AND ") htexts, by rw [params, params, List.length_flatMap,
    List.length_flatMap, hvalues]⟩

end Condition

namespace Filter

/-- Filters of the same conditions. -/
def Same (f f' : Filter) : Prop :=
  List.Forall₂ (List.Forall₂ Condition.Same) f f'

theorem groupSql_same (h : List.Forall₂ Condition.Same group group') :
    groupSql group = groupSql group' := by
  have htexts : group.map (fun c => "(" ++ Condition.sql c ++ ")") =
      group'.map fun c => "(" ++ Condition.sql c ++ ")" :=
    map_eq_of_forall₂ (fun _ _ hc => by rw [hc.text.1]) h
  cases h with
  | nil => rfl
  | cons hc hrest =>
    cases hrest with
    | nil => exact hc.text.1
    | cons => exact congrArg (separated " OR ") htexts

theorem groupParams_same (h : List.Forall₂ Condition.Same group group') :
    (group.flatMap Condition.params).length = (group'.flatMap Condition.params).length := by
  have hvalues : group.map (fun c => (Condition.params c).length) =
      group'.map fun c => (Condition.params c).length :=
    map_eq_of_forall₂ (fun _ _ hc => hc.text.2) h
  rw [List.length_flatMap, List.length_flatMap, hvalues]

theorem sql_same (h : f.Same f') : f.sql = f'.sql := by
  have htexts : f.map (fun group =>
        if 1 < group.length then "(" ++ groupSql group ++ ")" else groupSql group) =
      f'.map fun group =>
        if 1 < group.length then "(" ++ groupSql group ++ ")" else groupSql group :=
    map_eq_of_forall₂ (fun _ _ hg => by rw [hg.length_eq, groupSql_same hg]) h
  cases h with
  | nil => rfl
  | cons hg hrest =>
    cases hrest with
    | nil => exact groupSql_same hg
    | cons => exact congrArg (separated " AND ") htexts

/-- Filters of the same conditions have one clause and as many values. -/
theorem Same.text (h : f.Same f') : f.clause = f'.clause ∧ f.params.length = f'.params.length := by
  have hvalues : f.map (fun group => (group.flatMap Condition.params).length) =
      f'.map fun group => (group.flatMap Condition.params).length :=
    map_eq_of_forall₂ (fun _ _ hg => groupParams_same hg) h
  constructor
  · rw [clause, clause, isEmpty_eq_of_forall₂ h, sql_same h]
  · rw [params, params, List.length_flatMap, List.length_flatMap, hvalues]

theorem ofJson_alike (h : List.Forall₂ (List.Forall₂ (Json.ConditionsAlike true)) docs docs')
    (hf : ofJson docs = .ok f) : ∃ f', ofJson docs' = .ok f' ∧ f.Same f' := by
  obtain ⟨groups, hgroups, hf⟩ := bind_eq_ok.mp hf
  cases hf
  have hgroup : ∀ items items' group, List.Forall₂ (Json.ConditionsAlike true) items items' →
      items.mapM Condition.ofJson = .ok group →
      ∃ group', items'.mapM Condition.ofJson = .ok group' ∧
        List.Forall₂ Condition.Same group group' :=
    fun _ _ _ hitems hok => mapM_forall₂ (fun _ _ _ => Condition.ofJson_alike) hitems hok
  obtain ⟨groups', hgroups', hall⟩ := mapM_forall₂ hgroup h hgroups
  refine ⟨_, bind_eq_ok.mpr ⟨groups', hgroups', rfl⟩, ?_⟩
  have hkept : ∀ group group', List.Forall₂ Condition.Same group group' →
      List.Forall₂ Condition.Same (group.filter (!·.isEmpty)) (group'.filter (!·.isEmpty)) :=
    fun _ _ => forall₂_kept fun _ _ => Condition.Same.isEmpty
  exact forall₂_kept (fun _ _ => isEmpty_eq_of_forall₂) (List.rel_map hkept hall)

end Filter

/-- Rows with the same columns that differ in values only. -/
def RowsAlike (row row' : Row) : Prop :=
  List.Forall₂ (fun e e' => e.1 = e'.1 ∧ e.2.Alike e'.2) row.entries row'.entries

namespace Mutation

variable {action : String} {row row' : Row} {cells : List (String × SqlValue)}

theorem bindRow_alike (h : RowsAlike row row') (hc : bindRow action row = .ok cells) :
    ∃ cells', bindRow action row' = .ok cells' ∧ cells.map Prod.fst = cells'.map Prod.fst := by
  obtain ⟨binds, rfl⟩ := bindRow_eq_ok.mp hc
  have hnames : row.entries.map Prod.fst = row'.entries.map Prod.fst :=
    map_eq_of_forall₂ (fun _ _ he => he.1) h
  have binds' : Binds row' := by
    refine ⟨fun hnone => binds.filled ?_, fun entry' he' => ?_⟩
    · rw [hnone] at hnames
      simpa using hnames
    · obtain ⟨entry, he, hsame, -⟩ := forall₂_mem h.flip he'
      exact hsame ▸ binds.named entry he
  refine ⟨_, binds'.bound action, ?_⟩
  rw [List.map_map, List.map_map]
  exact hnames

theorem requireCondition_alike (h : Json.ConditionsAlike true j j')
    (hc : requireCondition action j = .ok c) :
    ∃ c', requireCondition action j' = .ok c' ∧ c.Same c' := by
  obtain ⟨hok, hne⟩ := requireCondition_eq_ok.mp hc
  obtain ⟨c', hok', hsame⟩ := Condition.ofJson_alike h hok
  have hne' : c' ≠ [] := by
    rwa [ne_eq, ← List.isEmpty_iff, ← hsame.isEmpty, List.isEmpty_iff]
  exact ⟨c', requireCondition_eq_ok.mpr ⟨hok', hne'⟩, hsame⟩

end Mutation

/-- A call that gives a statement. -/
inductive StatementCall where
  | compile (q : Query)
  | compileFirst (q : Query)
  | compileCount (q : Query)
  | insert (table : String) (row : Row)
  | update (table : String) (conditions : Json) (patch : Row)
  | delete (table : String) (conditions : Json)
  | count (table : String) (conditions : Json)
  | related (r : Relation) (rows : List Row)

/-- The texts of the values that related rows are looked up by. -/
def Relation.keyTexts (r : Relation) (rows : List Row) : List String :=
  ((rows.filterMap fun row => row.get? r.keyColumn).filter fun key => !key.isNull).map Json.compact

namespace StatementCall

/-- The statement of a call, when it has one. -/
def statement? : StatementCall → Option Statement
  | compile q => q.compile.toOption
  | compileFirst q => q.compileFirst.toOption
  | compileCount q => q.compileCount.toOption
  | insert table row => (Mutation.insert table row).toOption
  | update table conditions patch => (Mutation.update table conditions patch).toOption
  | delete table conditions => (Mutation.delete table conditions).toOption
  | count table conditions => (Mutation.count table conditions).toOption
  | related r rows => r.relatedStatement? rows

/-- A relation whose rows are asked for is one of a schema that compiles. -/
def Resolved : StatementCall → Prop
  | related r _ => ∃ (d : Definition) (s : Schema), d.compile = .ok s ∧
      r ∈ (RelationMap.resolve s).relations
  | _ => True

/-- Calls that differ in values only, those being null at the same places and patterns at the same
places. Strictly, the tests for null are the same ones, and related rows are looked up by as many
distinct values. -/
inductive Alike (strict : Bool) : StatementCall → StatementCall → Prop where
  | compile {q : Query} {groups : List (List Json)}
    (conditions : List.Forall₂ (List.Forall₂ (Json.ConditionsAlike strict)) q.groups groups) :
    Alike strict (compile q) (compile { q with groups })
  | compileFirst {q : Query} {groups : List (List Json)}
    (conditions : List.Forall₂ (List.Forall₂ (Json.ConditionsAlike strict)) q.groups groups) :
    Alike strict (compileFirst q) (compileFirst { q with groups })
  | compileCount {q : Query} {groups : List (List Json)}
    (conditions : List.Forall₂ (List.Forall₂ (Json.ConditionsAlike strict)) q.groups groups) :
    Alike strict (compileCount q) (compileCount { q with groups })
  | insert {table : String} {row row' : Row} (cells : RowsAlike row row') :
    Alike strict (insert table row) (insert table row')
  | update {table : String} {j j' : Json} {patch patch' : Row}
    (conditions : j.ConditionsAlike strict j') (cells : RowsAlike patch patch') :
    Alike strict (update table j patch) (update table j' patch')
  | delete {table : String} {j j' : Json} (conditions : j.ConditionsAlike strict j') :
    Alike strict (delete table j) (delete table j')
  | count {table : String} {j j' : Json} (conditions : j.ConditionsAlike strict j') :
    Alike strict (count table j) (count table j')
  | related {r : Relation} {rows rows' : List Row} (each : List.Forall₂ RowsAlike rows rows')
    (distinct : strict = true →
      (r.keyTexts rows).dedup.length = (r.keyTexts rows').dedup.length) :
    Alike strict (related r rows) (related r rows')

end StatementCall

theorem toOption_eq_some {ε α : Type} {x : Except ε α} {a : α} :
    x.toOption = some a ↔ x = .ok a := by
  cases x <;> simp [Except.toOption]

/-- Statements of one text with as many values. -/
structure Statement.SameShape (s s' : Statement) : Prop where
  sql : s'.sql = s.sql
  params : s'.params.length = s.params.length

namespace Query

variable {q : Query} {limit : Option UInt64} {s : Statement} {groups : List (List Json)}

theorem render_alike
    (h : List.Forall₂ (List.Forall₂ (Json.ConditionsAlike true)) q.groups groups)
    (hs : q.render limit = .ok s) :
    ∃ s', Query.render { q with groups } limit = .ok s' ∧ s.SameShape s' := by
  obtain ⟨filter, columns, order, htable, hfilter, hcolumns, horder, rfl⟩ := render_ok hs
  obtain ⟨filter', hfilter', hsame⟩ := Filter.ofJson_alike h hfilter
  obtain ⟨hclause, hparams⟩ := hsame.text
  refine ⟨_, bind_eq_ok.mpr ⟨⟨⟩, htable, bind_eq_ok.mpr ⟨columns, hcolumns,
    bind_eq_ok.mpr ⟨filter', hfilter', bind_eq_ok.mpr ⟨order, horder, rfl⟩⟩⟩⟩, ?_, hparams.symm⟩
  rw [← hclause]
  rfl

theorem compileCount_alike
    (h : List.Forall₂ (List.Forall₂ (Json.ConditionsAlike true)) q.groups groups)
    (hs : q.compileCount = .ok s) :
    ∃ s', Query.compileCount { q with groups } = .ok s' ∧ s.SameShape s' := by
  obtain ⟨filter, htable, hfilter, rfl⟩ := compileCount_ok hs
  obtain ⟨filter', hfilter', hsame⟩ := Filter.ofJson_alike h hfilter
  obtain ⟨hclause, hparams⟩ := hsame.text
  refine ⟨_, bind_eq_ok.mpr ⟨⟨⟩, htable, bind_eq_ok.mpr ⟨filter', hfilter', rfl⟩⟩, ?_,
    hparams.symm⟩
  rw [← hclause]

end Query

namespace Mutation

variable {table : String} {row row' : Row} {s : Statement}

theorem insert_alike (h : RowsAlike row row') (hs : insert table row = .ok s) :
    ∃ s', insert table row' = .ok s' ∧ s.SameShape s' := by
  obtain ⟨cells, htable, hcells, rfl⟩ := insert_ok hs
  obtain ⟨cells', hcells', hnames⟩ := bindRow_alike h hcells
  have hlen : cells.length = cells'.length := by simpa using congrArg List.length hnames
  refine ⟨_, bind_eq_ok.mpr ⟨⟨⟩, htable, bind_eq_ok.mpr ⟨cells', hcells', rfl⟩⟩, ?_, ?_⟩
  · simp only [hnames, hlen]
  · simp only [List.length_map, hlen]

theorem update_alike (h : RowsAlike row row') (hj : j.ConditionsAlike true j')
    (hs : update table j row = .ok s) :
    ∃ s', update table j' row' = .ok s' ∧ s.SameShape s' := by
  obtain ⟨cells, c, htable, hcells, hc, rfl⟩ := update_ok hs
  obtain ⟨cells', hcells', hnames⟩ := bindRow_alike h hcells
  obtain ⟨c', hc', hsame⟩ := requireCondition_alike hj hc
  obtain ⟨htext, hparams⟩ := hsame.text
  have hlen : cells.length = cells'.length := by simpa using congrArg List.length hnames
  have hassigned : (cells.map fun cell => cell.1 ++ " = ?") =
      cells'.map fun cell => cell.1 ++ " = ?" := by
    have hmap := congrArg (List.map (· ++ " = ?")) hnames
    rwa [List.map_map, List.map_map] at hmap
  refine ⟨_, bind_eq_ok.mpr ⟨⟨⟩, htable, bind_eq_ok.mpr ⟨cells', hcells',
    bind_eq_ok.mpr ⟨c', hc', rfl⟩⟩⟩, ?_, ?_⟩
  · rw [hassigned, htext]
  · simp only [List.length_append, List.length_map, hlen, hparams]

theorem delete_alike (hj : j.ConditionsAlike true j') (hs : delete table j = .ok s) :
    ∃ s', delete table j' = .ok s' ∧ s.SameShape s' := by
  obtain ⟨c, htable, hc, rfl⟩ := delete_ok hs
  obtain ⟨c', hc', hsame⟩ := requireCondition_alike hj hc
  obtain ⟨htext, hparams⟩ := hsame.text
  refine ⟨_, bind_eq_ok.mpr ⟨⟨⟩, htable, bind_eq_ok.mpr ⟨c', hc', rfl⟩⟩, ?_, hparams.symm⟩
  rw [htext]

theorem count_alike (hj : j.ConditionsAlike true j') (hs : count table j = .ok s) :
    ∃ s', count table j' = .ok s' ∧ s.SameShape s' := by
  have hgroups : List.Forall₂ (List.Forall₂ (Json.ConditionsAlike true))
      (Query.filterBy { table } j).groups [[j']] := .cons (.cons hj .nil) .nil
  obtain ⟨s', hs', hsame⟩ := Query.compileCount_alike hgroups hs
  exact ⟨s', hs', hsame⟩

end Mutation

namespace Relation

/-- Each text that is not yet seen is looked up once. -/
theorem distinctKeys_length (seen : List String) (keys : List Json) :
    (distinctKeys seen keys).length =
      ((keys.map Json.compact).toFinset \ seen.toFinset).card := by
  -- `seen` grows along the list, so the count is of the texts outside it.
  induction keys generalizing seen with
  | nil => simp [distinctKeys]
  | cons key keys ih =>
    rw [distinctKeys, List.map_cons, List.toFinset_cons]
    split
    next hseen =>
      have hmem : key.compact ∈ seen.toFinset := by simpa using hseen
      rw [ih, Finset.insert_sdiff_of_mem _ hmem]
    next hseen =>
      have hnot : key.compact ∉ seen.toFinset := by simpa using hseen
      have hrest : insert key.compact (keys.map Json.compact).toFinset \ seen.toFinset =
          insert key.compact
            ((keys.map Json.compact).toFinset \ (key.compact :: seen).toFinset) := by
        ext text
        by_cases heq : text = key.compact <;> simp_all
      rw [List.length_cons, ih, hrest, Finset.card_insert_of_notMem (by simp)]

theorem lookupKeys_length (r : Relation) (rows : List Row) :
    (lookupKeys r.keyColumn rows).length = (r.keyTexts rows).dedup.length := by
  rw [lookupKeys, distinctKeys_length, List.toFinset_nil, Finset.sdiff_empty, ← List.card_toFinset]
  rfl

theorem relatedStatement?_isSome (r : Relation) (rows : List Row) :
    (r.relatedStatement? rows).isSome = true ↔ 0 < (lookupKeys r.keyColumn rows).length := by
  unfold relatedStatement?
  split
  next h => simp [h]
  next h => simpa [List.length_pos_iff] using h

theorem relatedStatement?_alike {r : Relation} {rows rows' : List Row} {s : Statement}
    (hn : (r.keyTexts rows).dedup.length = (r.keyTexts rows').dedup.length)
    (h : r.relatedStatement? rows = some s) :
    ∃ s', r.relatedStatement? rows' = some s' ∧ s.SameShape s' := by
  rw [← lookupKeys_length, ← lookupKeys_length] at hn
  have hpos := (relatedStatement?_isSome r rows).mp (h ▸ rfl)
  have hsome := (relatedStatement?_isSome r rows').mpr (hn ▸ hpos)
  obtain ⟨s', hs'⟩ := Option.isSome_iff_exists.mp hsome
  refine ⟨s', hs', ?_⟩
  cases relatedStatement?_eq_some h
  cases relatedStatement?_eq_some hs'
  exact ⟨by simp only [hn], by simp only [List.length_map, hn]⟩

end Relation

namespace StatementCall

variable {call call' : StatementCall} {s : Statement}

/-- The statement of a call that is resolved is closed. -/
theorem statement_closed (hr : call.Resolved) (h : call.statement? = some s) : s.Closed := by
  cases call with
  | compile q => exact Query.render_closed (toOption_eq_some.mp h)
  | compileFirst q => exact Query.render_closed (toOption_eq_some.mp h)
  | compileCount q => exact Query.compileCount_closed (toOption_eq_some.mp h)
  | insert table row => exact Mutation.insert_closed (toOption_eq_some.mp h)
  | update table conditions patch => exact Mutation.update_closed (toOption_eq_some.mp h)
  | delete table conditions => exact Mutation.delete_closed (toOption_eq_some.mp h)
  | count table conditions => exact Query.compileCount_closed (toOption_eq_some.mp h)
  | related r rows =>
    obtain ⟨d, schema, hd, hmem⟩ := hr
    exact Relation.relatedStatement_closed
      (RelationMap.resolve_named (Definition.compile_wellFormed hd) hmem) h

/-- Calls that are strictly alike have statements of one text. -/
theorem statement_alike (ha : call.Alike true call') (h : call.statement? = some s) :
    ∃ s', call'.statement? = some s' ∧ s.SameShape s' := by
  have lift : ∀ {x : Except CompileError Statement},
      (∃ s', x = .ok s' ∧ s.SameShape s') → ∃ s', x.toOption = some s' ∧ s.SameShape s' :=
    fun ⟨s', hs', hsame⟩ => ⟨s', toOption_eq_some.mpr hs', hsame⟩
  cases ha with
  | compile hc => exact lift (Query.render_alike hc (toOption_eq_some.mp h))
  | compileFirst hc => exact lift (Query.render_alike hc (toOption_eq_some.mp h))
  | compileCount hc => exact lift (Query.compileCount_alike hc (toOption_eq_some.mp h))
  | insert hcells => exact lift (Mutation.insert_alike hcells (toOption_eq_some.mp h))
  | update hc hcells => exact lift (Mutation.update_alike hcells hc (toOption_eq_some.mp h))
  | delete hc => exact lift (Mutation.delete_alike hc (toOption_eq_some.mp h))
  | count hc => exact lift (Mutation.count_alike hc (toOption_eq_some.mp h))
  | related _ distinct => exact Relation.relatedStatement?_alike (distinct rfl) h

/-- Values do not shape statements: the statement of a call is closed, and calls that are strictly
alike have statements of one text. -/
theorem values_shape_nothing (hr : call.Resolved) (h : call.statement? = some s) :
    s.Closed ∧ ∀ call', call.Alike true call' →
      ∃ s', call'.statement? = some s' ∧ s.SameShape s' :=
  ⟨statement_closed hr h, fun _ ha => statement_alike ha h⟩

/-- Users with their orders. -/
def shop : Definition :=
  ({ name := "shop" } : Definition).column "users" "id" "text primary key"
    |>.column "orders" "id" "text primary key" |>.column "orders" "userId" "integer"

/-- What the users and orders compile to. -/
def shopSchema : Schema :=
  ⟨"shop", 1, [
    { name := "users"
      columns := [{ name := "id", type := .text, primaryKey := true }] },
    { name := "orders"
      columns := [{ name := "id", type := .text, primaryKey := true },
        { name := "userId", type := .integer }] }]⟩

/-- The relation from an order to its user. -/
def orderUser : Relation :=
  ⟨"users", .belongsTo, "orders", "users", "userId", "id"⟩

/-- An order of a user. -/
def orderOf (user : Int) : Row :=
  .ofList [("userId", .int user)]

theorem orderUser_resolved (rows : List Row) : (related orderUser rows).Resolved := by
  have hcompile : shop.compile = .ok shopSchema := by decide +kernel
  exact ⟨shop, shopSchema, hcompile, by decide +kernel⟩

theorem orderOf_alike (m n : Int) : RowsAlike (orderOf m) (orderOf n) :=
  .cons ⟨rfl, .values rfl rfl rfl⟩ .nil

theorem orders_alike (strict : Bool) {a b c d : Int}
    (h : strict = true → (orderUser.keyTexts [orderOf a, orderOf b]).dedup.length =
      (orderUser.keyTexts [orderOf c, orderOf d]).dedup.length) :
    Alike strict (related orderUser [orderOf a, orderOf b])
      (related orderUser [orderOf c, orderOf d]) :=
  .related (.cons (orderOf_alike a c) (.cons (orderOf_alike b d) .nil)) h

theorem values_shape_nothing_orders :
    ∃ s, (related orderUser [orderOf 1, orderOf 2]).Resolved ∧
      (related orderUser [orderOf 1, orderOf 2]).statement? = some s ∧ s.Closed ∧
      ∃ s', (related orderUser [orderOf 3, orderOf (-4)]).statement? = some s' ∧
        s.SameShape s' := by
  have hr := orderUser_resolved [orderOf 1, orderOf 2]
  refine ⟨_, hr, rfl, ?_⟩
  obtain ⟨hclosed, hsame⟩ := values_shape_nothing hr rfl
  exact ⟨hclosed, hsame _ (orders_alike true fun _ => by decide +kernel)⟩

/-- A test for null of either kind. -/
def nullish (b : Bool) : Json :=
  .record [("x", .record [("isNullish", .bool b)])]

/-- Calls that differ in values only have different texts when a value repeats among the keys or
says which test for null is meant. -/
theorem repeated_key_shapes :
    (related orderUser [orderOf 1, orderOf 1]).Resolved ∧
      (related orderUser [orderOf 1, orderOf 2]).Resolved ∧
      Alike false (related orderUser [orderOf 1, orderOf 2])
        (related orderUser [orderOf 1, orderOf 1]) ∧
      (related orderUser [orderOf 1, orderOf 2]).statement? =
        some ⟨"SELECT * FROM users WHERE id IN (?, ?)", [.int 1, .int 2]⟩ ∧
      (related orderUser [orderOf 1, orderOf 1]).statement? =
        some ⟨"SELECT * FROM users WHERE id IN (?)", [.int 1]⟩ ∧
      Alike false (count "t" (nullish true)) (count "t" (nullish false)) ∧
      (count "t" (nullish true)).statement? =
        some ⟨"SELECT COUNT(*) as count FROM t WHERE x IS NULL", []⟩ ∧
      (count "t" (nullish false)).statement? =
        some ⟨"SELECT COUNT(*) as count FROM t WHERE x IS NOT NULL", []⟩ := by
  refine ⟨orderUser_resolved _, orderUser_resolved _, orders_alike false (by simp), rfl, rfl, ?_,
    rfl, rfl⟩
  have hvalue : Json.OperatorsAlike false ("isNullish", .bool true) ("isNullish", .bool false) :=
    ⟨rfl, .values rfl rfl rfl, by simp⟩
  exact .count (.records (.cons ⟨rfl, .operators (.cons hvalue .nil)⟩ .nil))

end StatementCall

end Tabularium
