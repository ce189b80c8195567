import Mathlib.Algebra.GroupWithZero.Nat
import Tabularium.Proofs.Query.WhereMeaning
import Tabularium.Proofs.Schema.ResolvedRelations
import Tabularium.Proofs.Schema.StatementText
import Tabularium.Query.Mutation
import Tabularium.Query.Related

namespace Tabularium

variable {a b s name column : String} {m n : Nat} {t : ColumnTest} {c : Condition}
  {group : List Condition} {f : Filter} {j : Json}

/-- The text has a number of marks for values, and no quote, semicolon or start of a comment. -/
structure Marked (n : Nat) (s : String) : Prop where
  ordinary : ∀ c ∈ s.toList, isOrdinary c = true
  marks : s.toList.count '?' = n

/-- A text with marks at whose end another one can be left out: its own end is no blank. -/
structure Fragment (n : Nat) (s : String) : Prop extends Marked n s where
  finishes : Finishes s

/-- A text that is left out or goes behind a fragment. -/
def Attached (n : Nat) (s : String) : Prop :=
  s = "" ∧ n = 0 ∨ Fragment n s

theorem marked_phrase (h : (s.toList.all isOrdinary && s.toList.count '?' == n) = true) :
    Marked n s := by
  rw [Bool.and_eq_true, List.all_eq_true, beq_iff_eq] at h
  exact ⟨h.1, h.2⟩

theorem fragment_phrase (h : (s.toList.all isOrdinary && s.toList.count '?' == n) = true)
    (hf : Finishes s) : Fragment n s :=
  ⟨marked_phrase h, hf⟩

theorem marked_text (ha : Marked m a) (hb : Marked n b) : Marked (m + n) (a ++ b) := by
  constructor
  · intro c hc
    rw [String.toList_append, List.mem_append] at hc
    exact hc.elim (ha.ordinary c) (hb.ordinary c)
  · rw [String.toList_append, List.count_append, ha.marks, hb.marks]

theorem fragment_text (ha : Marked m a) (hb : Fragment n b) : Fragment (m + n) (a ++ b) :=
  ⟨marked_text ha hb.toMarked, finishes_text hb.finishes⟩

theorem fragment_attached (ha : Fragment m a) (hb : Attached n b) : Fragment (m + n) (a ++ b) := by
  rcases hb with ⟨rfl, rfl⟩ | hb
  · rwa [String.append_empty]
  · exact fragment_text ha.toMarked hb

theorem fragment_name (h : isIdentifier name = true) : Fragment 0 name := by
  have hs := identifier_solid h
  refine ⟨⟨fun c hc => (hs.plain c hc).1, List.count_eq_zero.mpr fun hmark => ?_⟩, hs.finishes⟩
  obtain ⟨c, cs, hname, -, hall⟩ := identifier_chars h
  exact absurd (hall '?' (hname ▸ hmark)) (by decide)

/-- The marks of texts with a separator between them are those of the texts. -/
theorem marked_separated {α : Type} (xs : List α) (text : α → String) (marks : α → Nat)
    (hs : Marked 0 s) (h : ∀ x ∈ xs, Marked (marks x) (text x)) :
    Marked (xs.map marks).sum (separated s (xs.map text)) := by
  induction xs with
  | nil => exact ⟨by simp [separated], by simp [separated]⟩
  | cons x xs ih =>
    have hx := h x List.mem_cons_self
    cases xs with
    | nil => simpa [separated] using hx
    | cons y ys =>
      have hrest := ih fun z hz => h z (List.mem_cons_of_mem x hz)
      exact marked_text (marked_text hx hs) hrest

theorem fragment_separated {α : Type} {xs : List α} (text : α → String) (marks : α → Nat)
    (hs : Marked 0 s) (hne : xs ≠ []) (h : ∀ x ∈ xs, Fragment (marks x) (text x)) :
    Fragment (xs.map marks).sum (separated s (xs.map text)) := by
  refine ⟨marked_separated xs text marks hs fun x hx => (h x hx).toMarked, ?_⟩
  induction xs with
  | nil => exact absurd rfl hne
  | cons x xs ih =>
    cases xs with
    | nil => exact (h x List.mem_cons_self).finishes
    | cons y ys =>
      exact finishes_text (ih (by simp) fun z hz => h z (List.mem_cons_of_mem x hz))

theorem marked_placeholders (count : Nat) : Marked count (SqlValue.placeholders count) := by
  have hcomma : Marked 0 ", " := marked_phrase (by decide)
  have h := marked_separated (List.replicate count SqlValue.placeholder) id (fun _ => 1) hcomma
    fun x hx => by
      rw [List.eq_of_mem_replicate hx]
      exact marked_phrase (by decide)
  simpa [SqlValue.placeholders] using h

theorem fragment_closing : Fragment 0 ")" :=
  fragment_phrase (by decide) ⟨')', by decide, by decide⟩

theorem fragment_group (h : Marked m a) : Fragment m ("(" ++ a ++ ")") := by
  have hopen : Marked 0 "(" := marked_phrase (by decide)
  simpa using fragment_text (marked_text hopen h) fragment_closing

theorem fragment_behind_name {w : String} (h : isIdentifier name = true) (hw : Fragment n w) :
    Fragment n (name ++ w) := by
  simpa using fragment_text (fragment_name h).toMarked hw

/-- The text of a test has a mark for each value that it binds. -/
theorem Test.fragment (test : Test) (h : isIdentifier column = true) :
    Fragment test.params.length (test.sql column) := by
  cases test with
  | eq value =>
    have hrest : Fragment 1 " = ?" := fragment_phrase (by decide) ⟨'?', by decide, by decide⟩
    exact fragment_behind_name h hrest
  | like pattern =>
    have hrest : Fragment 1 " LIKE ?" := fragment_phrase (by decide) ⟨'?', by decide, by decide⟩
    exact fragment_behind_name h hrest
  | oneOf values =>
    cases values with
    | nil =>
      have hnone : Fragment 0 "1 = 0" := fragment_phrase (by decide) ⟨'0', by decide, by decide⟩
      exact hnone
    | cons v vs =>
      have hin : Marked 0 " IN (" := marked_phrase (by decide)
      have hrest := fragment_text (marked_text hin (marked_placeholders (vs.length + 1)))
        fragment_closing
      simpa [Test.sql, Test.params, String.append_assoc] using fragment_behind_name h hrest
  | isNull =>
    have hrest : Fragment 0 " IS NULL" := fragment_phrase (by decide) ⟨'L', by decide, by decide⟩
    exact fragment_behind_name h hrest
  | isNotNull =>
    have hrest : Fragment 0 " IS NOT NULL" :=
      fragment_phrase (by decide) ⟨'L', by decide, by decide⟩
    exact fragment_behind_name h hrest
  | compare op value =>
    have hrest : Fragment 1 (" " ++ op.sql ++ " ?") := by
      cases op <;> exact fragment_phrase (by decide) ⟨'?', by decide, by decide⟩
    simpa [Test.sql, Test.params, String.append_assoc] using fragment_behind_name h hrest

theorem Condition.fragment (hne : c ≠ []) (h : ∀ t ∈ c, isIdentifier t.column = true) :
    Fragment c.params.length c.sql := by
  have hand : Marked 0 " AND " := marked_phrase (by decide)
  have hsum := fragment_separated ColumnTest.sql (fun t => t.params.length) hand hne
    fun t ht => t.test.fragment (h t ht)
  rwa [Condition.params, List.length_flatMap]

namespace Filter

theorem groupSql_fragment (hs : Sound [group]) :
    Fragment (group.flatMap Condition.params).length (groupSql group) := by
  have hc : ∀ c ∈ group, Fragment c.params.length c.sql := fun c hc =>
    c.fragment (hs.tested group List.mem_cons_self c hc) (hs.named group List.mem_cons_self c hc)
  cases group with
  | nil => exact absurd rfl (hs.inhabited [] List.mem_cons_self)
  | cons c rest =>
    cases rest with
    | nil => simpa [groupSql] using hc c List.mem_cons_self
    | cons d rest =>
      rw [List.length_flatMap]
      exact fragment_separated _ _ (marked_phrase (by decide)) (by simp) fun c hm =>
        fragment_group (hc c hm).toMarked

theorem fragment (hne : f ≠ []) (hs : f.Sound) : Fragment f.params.length f.sql := by
  have hgroup : ∀ group ∈ f, Fragment (group.flatMap Condition.params).length (groupSql group) :=
    fun group hg => groupSql_fragment (hs.of_mem hg)
  cases f with
  | nil => exact absurd rfl hne
  | cons group rest =>
    cases rest with
    | nil => simpa [Filter.sql, Filter.params] using hgroup group List.mem_cons_self
    | cons other rest =>
      have hsql : sql (group :: other :: rest) = separated " AND " ((group :: other :: rest).map
          fun group => if 1 < group.length then "(" ++ groupSql group ++ ")" else groupSql group) :=
        rfl
      rw [hsql, Filter.params, List.length_flatMap]
      refine fragment_separated _ _ (marked_phrase (by decide)) hne fun group hg => ?_
      split
      next => exact fragment_group (hgroup group hg).toMarked
      next => exact hgroup group hg

theorem clause_attached (hs : f.Sound) : Attached f.params.length f.clause := by
  rw [clause]
  split
  next hempty =>
    rw [List.isEmpty_iff.mp hempty]
    exact .inl ⟨rfl, rfl⟩
  next hne =>
    have hwhere : Marked 0 " WHERE " := marked_phrase (by decide)
    have hsql := fragment (by simpa using hne) hs
    exact .inr (by simpa using fragment_text hwhere hsql)

end Filter

theorem fragment_repr (n : Nat) : Fragment 0 (Nat.repr n) := by
  have hdigits : (Nat.repr n).toList = Nat.toDigits 10 n := by simp [Nat.repr]
  refine ⟨⟨fun c hc => ?_, List.count_eq_zero.mpr fun hmark => ?_⟩, (int_text n).2⟩
  · exact (toDigits_plain c (hdigits ▸ hc)).1
  · have hd := Nat.isDigit_of_mem_toDigits (by omega) (by omega) (hdigits ▸ hmark)
    exact absurd hd (by decide)

theorem attached_words {w : String} (hw : Marked 0 w) (n : Nat) :
    Attached 0 (w ++ Nat.repr n) :=
  .inr (fragment_text hw (fragment_repr n))

theorem fragment_names {names : List String} (hne : names ≠ [])
    (h : ∀ name ∈ names, isIdentifier name = true) : Fragment 0 (separated ", " names) := by
  have hcomma : Marked 0 ", " := marked_phrase (by decide)
  have hnames := fragment_separated id (fun _ => 0) hcomma hne fun name hn =>
    fragment_name (h name hn)
  simpa using hnames

namespace Query

variable {columns : List String} {order : List (String × Order)} {q : Query} {text : String}

theorem projection_marked (h : projection columns = .ok text) : Marked 0 text := by
  obtain ⟨⟨⟩, hnames, h⟩ := bind_eq_ok.mp h
  cases h
  split
  next => exact marked_phrase (by decide)
  next hne =>
    exact (fragment_names (by simpa using hne) fun name hn =>
      requireIdentifier_ok (forM_eq_ok.mp hnames name hn)).toMarked

theorem orderItem_fragment {column : String} (h : isIdentifier column = true) (o : Order) :
    Fragment 0 (column ++ " " ++ o.sql) := by
  have hrest : Fragment 0 (" " ++ o.sql) := by
    cases o with
    | asc => exact fragment_phrase (by decide) ⟨'C', by decide, by decide⟩
    | desc => exact fragment_phrase (by decide) ⟨'C', by decide, by decide⟩
  rw [String.append_assoc]
  exact fragment_behind_name h hrest

theorem orderClause_attached (h : orderClause order = .ok text) : Attached 0 text := by
  obtain ⟨⟨⟩, hnames, h⟩ := bind_eq_ok.mp h
  cases h
  split
  next => exact .inl ⟨rfl, rfl⟩
  next hne =>
    have hcomma : Marked 0 ", " := marked_phrase (by decide)
    have hitems := fragment_separated (fun item => item.1 ++ " " ++ Order.sql item.2) (fun _ => 0)
      hcomma (by simpa using hne) fun item hm =>
        orderItem_fragment (requireIdentifier_ok (forM_eq_ok.mp hnames item hm)) item.2
    have hby : Marked 0 " ORDER BY " := marked_phrase (by decide)
    exact .inr (by simpa using fragment_text hby hitems)

theorem limitClause_attached (limit : Option UInt64) : Attached 0 (limitClause limit) := by
  cases limit with
  | none => exact .inl ⟨rfl, rfl⟩
  | some n => exact attached_words (marked_phrase (by decide)) n.toNat

theorem offsetClause_attached (q : Query) : Attached 0 q.offsetClause := by
  rw [offsetClause]
  split
  next offset => exact attached_words (marked_phrase (by decide)) _
  next => exact .inl ⟨rfl, rfl⟩

end Query

/-- The text has a mark for each bound value, and no quote, semicolon or start of a comment. A
script splits it off as the one statement that it is. -/
structure Statement.Closed (s : Statement) : Prop where
  marks : s.sql.toList.count '?' = s.params.length
  ordinary : ∀ c ∈ s.sql.toList, isOrdinary c = true
  single : splitStatements s.sql = [s.sql]

theorem splitStatements_whole (h : Whole s.toList) : splitStatements s = [s] := by
  obtain ⟨c, hc, -⟩ := h.first
  have hne : s.toList ≠ [] := by
    rintro he
    rw [he] at hc
    cases hc
  have hpieces := h.inert []
  rw [List.append_nil, scriptPieces, foldr_keepChar, List.append_nil] at hpieces
  rw [splitStatements_eq, hpieces, statementsOf, List.map_singleton, trim_whole h,
    List.filter_cons_of_pos (by simpa using hne), List.filter_nil, List.map_singleton,
    String.ofList_toList]

theorem Fragment.closed {s : Statement} (h : Fragment s.params.length s.sql)
    (hs : Starts s.sql) : s.Closed where
  marks := h.marks
  ordinary := h.ordinary
  single := splitStatements_whole ⟨inert_of_ordinary h.ordinary, hs, h.finishes⟩

namespace Query

variable {q : Query} {limit : Option UInt64} {s : Statement}

theorem render_closed (h : q.render limit = .ok s) : s.Closed := by
  obtain ⟨filter, columns, order, htable, hfilter, hcolumns, horder, rfl⟩ := render_ok h
  have hselect : Marked 0 "SELECT " := marked_phrase (by decide)
  have hfrom : Marked 0 " FROM " := marked_phrase (by decide)
  have hhead := fragment_text
    (marked_text (marked_text hselect (projection_marked hcolumns)) hfrom)
    (fragment_name (requireIdentifier_ok htable))
  have hwhole := fragment_attached (fragment_attached (fragment_attached (fragment_attached hhead
    (Filter.clause_attached (Filter.ofJson_sound hfilter))) (orderClause_attached horder))
    (limitClause_attached limit)) q.offsetClause_attached
  refine Fragment.closed (by simpa using hwhole) ?_
  iterate 7 refine starts_text ?_
  exact ⟨'S', by decide, by decide⟩

theorem compileCount_closed (h : q.compileCount = .ok s) : s.Closed := by
  obtain ⟨filter, htable, hfilter, rfl⟩ := compileCount_ok h
  have hcount : Marked 0 "SELECT COUNT(*) as count FROM " := marked_phrase (by decide)
  have hwhole := fragment_attached (fragment_text hcount
    (fragment_name (requireIdentifier_ok htable)))
    (Filter.clause_attached (Filter.ofJson_sound hfilter))
  refine Fragment.closed (by simpa using hwhole) (starts_text (starts_text ?_))
  exact ⟨'S', by decide, by decide⟩

end Query

namespace Mutation

variable {action table : String} {row patch : Row} {cells : List (String × SqlValue)}
  {conditions : Json} {s : Statement}

/-- A row binds when it has columns and all are named. -/
structure Binds (row : Row) : Prop where
  filled : row.entries ≠ []
  named : ∀ entry ∈ row.entries, isIdentifier entry.1 = true

theorem bindRow_eq_ok : bindRow action row = .ok cells ↔
    Binds row ∧ cells = row.entries.map fun entry => (entry.1, .ofJson entry.2) := by
  have hempty : row.isEmpty = true ↔ row.entries = [] := List.isEmpty_iff
  rw [bindRow]
  split
  next h => exact iff_of_false (by simp) fun hb => hb.1.filled (hempty.mp h)
  next h =>
    rw [mapM_eq_ok]
    constructor
    · intro hcells
      refine ⟨⟨mt hempty.mpr h, fun entry he => ?_⟩, ?_⟩
      · obtain ⟨cell, -, hcell⟩ := forall₂_mem hcells he
        obtain ⟨⟨⟩, hname, -⟩ := bind_eq_ok.mp hcell
        exact requireIdentifier_ok hname
      · rw [← List.map_id cells]
        refine (map_eq_of_forall₂ (fun entry cell hcell => ?_) hcells).symm
        obtain ⟨⟨⟩, -, hcell⟩ := bind_eq_ok.mp hcell
        exact Except.ok.inj hcell
    · rintro ⟨hb, rfl⟩
      refine List.forall₂_map_right_iff.mpr (List.forall₂_same.mpr fun entry he => ?_)
      exact bind_eq_ok.mpr ⟨(), if_pos (hb.named entry he), rfl⟩

theorem Binds.bound (binds : Binds row) (action : String) : bindRow action row =
    .ok (row.entries.map fun entry => (entry.1, .ofJson entry.2)) :=
  bindRow_eq_ok.mpr ⟨binds, rfl⟩

theorem bindRow_named (h : bindRow action row = .ok cells) :
    cells ≠ [] ∧ ∀ cell ∈ cells, isIdentifier cell.1 = true := by
  obtain ⟨hb, rfl⟩ := bindRow_eq_ok.mp h
  refine ⟨by simpa using hb.filled, fun cell hcell => ?_⟩
  obtain ⟨entry, he, rfl⟩ := List.mem_map.mp hcell
  exact hb.named entry he

theorem requireCondition_eq_ok : requireCondition action conditions = .ok c ↔
    Condition.ofJson conditions = .ok c ∧ c ≠ [] := by
  constructor
  · intro h
    obtain ⟨condition, hc, h⟩ := bind_eq_ok.mp h
    dsimp only at h
    split at h
    next => cases h
    next hne =>
      cases h
      exact ⟨hc, by simpa using hne⟩
  · rintro ⟨hc, hne⟩
    refine bind_eq_ok.mpr ⟨c, hc, ?_⟩
    rw [if_neg (by simpa using hne)]
    rfl

theorem condition_fragment (h : requireCondition action conditions = .ok c) :
    Fragment c.params.length c.sql := by
  obtain ⟨hc, hne⟩ := requireCondition_eq_ok.mp h
  exact c.fragment hne (Condition.ofJson_named hc)

theorem insert_ok (h : insert table row = .ok s) :
    ∃ cells, requireIdentifier table = .ok () ∧ bindRow "insert" row = .ok cells ∧
      s = ⟨"INSERT INTO " ++ table ++ " (" ++ separated ", " (cells.map Prod.fst) ++ ") VALUES ("
        ++ SqlValue.placeholders cells.length ++ ")", cells.map Prod.snd⟩ := by
  obtain ⟨⟨⟩, htable, h⟩ := bind_eq_ok.mp h
  obtain ⟨cells, hcells, h⟩ := bind_eq_ok.mp h
  cases h
  exact ⟨cells, htable, hcells, rfl⟩

theorem update_ok (h : update table conditions patch = .ok s) :
    ∃ cells c, requireIdentifier table = .ok () ∧ bindRow "update" patch = .ok cells ∧
      requireCondition "update" conditions = .ok c ∧
      s = ⟨"UPDATE " ++ table ++ " SET "
        ++ separated ", " (cells.map fun cell => cell.1 ++ " = ?") ++ " WHERE " ++ c.sql,
        cells.map Prod.snd ++ c.params⟩ := by
  obtain ⟨⟨⟩, htable, h⟩ := bind_eq_ok.mp h
  obtain ⟨cells, hcells, h⟩ := bind_eq_ok.mp h
  obtain ⟨c, hc, h⟩ := bind_eq_ok.mp h
  cases h
  exact ⟨cells, c, htable, hcells, hc, rfl⟩

theorem delete_ok (h : delete table conditions = .ok s) :
    ∃ c, requireIdentifier table = .ok () ∧ requireCondition "delete" conditions = .ok c ∧
      s = ⟨"DELETE FROM " ++ table ++ " WHERE " ++ c.sql, c.params⟩ := by
  obtain ⟨⟨⟩, htable, h⟩ := bind_eq_ok.mp h
  obtain ⟨c, hc, h⟩ := bind_eq_ok.mp h
  cases h
  exact ⟨c, htable, hc, rfl⟩

theorem insert_closed (h : insert table row = .ok s) : s.Closed := by
  obtain ⟨cells, htable, hcells, rfl⟩ := insert_ok h
  obtain ⟨hne, hnamed⟩ := bindRow_named hcells
  have hinto : Marked 0 "INSERT INTO " := marked_phrase (by decide)
  have hopen : Marked 0 " (" := marked_phrase (by decide)
  have hvalues : Marked 0 ") VALUES (" := marked_phrase (by decide)
  have hcolumns : Fragment 0 (separated ", " (cells.map Prod.fst)) :=
    fragment_names (by simpa using hne) fun name hn => by
      obtain ⟨cell, hcell, rfl⟩ := List.mem_map.mp hn
      exact hnamed cell hcell
  have hhead := marked_text (marked_text (marked_text (marked_text hinto
    (fragment_name (requireIdentifier_ok htable)).toMarked) hopen) hcolumns.toMarked) hvalues
  have hwhole := fragment_text (marked_text hhead (marked_placeholders cells.length))
    fragment_closing
  refine Fragment.closed (by simpa using hwhole) ?_
  iterate 6 refine starts_text ?_
  exact ⟨'I', by decide, by decide⟩

theorem update_closed (h : update table conditions patch = .ok s) : s.Closed := by
  obtain ⟨cells, c, htable, hcells, hc, rfl⟩ := update_ok h
  obtain ⟨hne, hnamed⟩ := bindRow_named hcells
  have hupdate : Marked 0 "UPDATE " := marked_phrase (by decide)
  have hset : Marked 0 " SET " := marked_phrase (by decide)
  have hwhere : Marked 0 " WHERE " := marked_phrase (by decide)
  have hassigned : Fragment 1 " = ?" := fragment_phrase (by decide) ⟨'?', by decide, by decide⟩
  have hcomma : Marked 0 ", " := marked_phrase (by decide)
  have hcolumns := marked_separated cells (fun cell => cell.1 ++ " = ?") (fun _ => 1) hcomma
    fun cell hcell => (fragment_behind_name (hnamed cell hcell) hassigned).toMarked
  have hhead := marked_text (marked_text (marked_text (marked_text hupdate
    (fragment_name (requireIdentifier_ok htable)).toMarked) hset) hcolumns) hwhere
  have hwhole := fragment_text hhead (condition_fragment hc)
  refine Fragment.closed (by simpa using hwhole) ?_
  iterate 5 refine starts_text ?_
  exact ⟨'U', by decide, by decide⟩

theorem delete_closed (h : delete table conditions = .ok s) : s.Closed := by
  obtain ⟨c, htable, hc, rfl⟩ := delete_ok h
  have hdelete : Marked 0 "DELETE FROM " := marked_phrase (by decide)
  have hwhere : Marked 0 " WHERE " := marked_phrase (by decide)
  have hwhole := fragment_text (marked_text (marked_text hdelete
    (fragment_name (requireIdentifier_ok htable)).toMarked) hwhere) (condition_fragment hc)
  refine Fragment.closed (by simpa using hwhole) ?_
  iterate 3 refine starts_text ?_
  exact ⟨'D', by decide, by decide⟩

end Mutation

namespace Relation

variable {r : Relation} {rows : List Row} {s : Statement}

theorem Named.filterColumn (h : r.Named) : isIdentifier r.filterColumn = true := by
  rw [Relation.filterColumn]
  split
  next => exact h.targetKey
  next => exact h.foreignKey

theorem relatedStatement?_eq_some (h : r.relatedStatement? rows = some s) :
    s = ⟨"SELECT * FROM " ++ r.related ++ " WHERE " ++ r.filterColumn ++ " IN ("
      ++ SqlValue.placeholders (lookupKeys r.keyColumn rows).length ++ ")",
      (lookupKeys r.keyColumn rows).map SqlValue.ofJson⟩ := by
  unfold relatedStatement? at h
  split at h
  next => cases h
  next => exact (Option.some.inj h).symm

theorem relatedStatement_closed (hn : r.Named) (h : r.relatedStatement? rows = some s) :
    s.Closed := by
  cases relatedStatement?_eq_some h
  have hselect : Marked 0 "SELECT * FROM " := marked_phrase (by decide)
  have hwhere : Marked 0 " WHERE " := marked_phrase (by decide)
  have hin : Marked 0 " IN (" := marked_phrase (by decide)
  have hhead := marked_text (marked_text (marked_text (marked_text hselect
    (fragment_name hn.related).toMarked) hwhere) (fragment_name hn.filterColumn).toMarked) hin
  have hwhole := fragment_text
    (marked_text hhead (marked_placeholders (lookupKeys r.keyColumn rows).length)) fragment_closing
  refine Fragment.closed (by simpa using hwhole) ?_
  iterate 6 refine starts_text ?_
  exact ⟨'S', by decide, by decide⟩

end Relation

end Tabularium
