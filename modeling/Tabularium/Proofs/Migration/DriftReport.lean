import Mathlib.Data.List.Forall2
import Mathlib.Data.List.Nodup
import Tabularium.Migration.Drift
import Tabularium.Proofs.Schema.Compiled
import Tabularium.Proofs.Store.Contract

namespace Tabularium

variable {t : Table} {ts : List Table} {actual : List ColumnInfo} {c live : ColumnInfo} {d : Drift}
  {reported : List (List ColumnInfo)}

/-- How a table differs from the columns that a store reports for it. One for which the store
reports nothing is missing, and its columns are not looked at. -/
inductive Table.Differs (t : Table) (actual : List ColumnInfo) : Drift → Prop
  | missingTable (nothing : actual = []) : Differs t actual (.missingTable t.name)
  | missingColumn {c : ColumnInfo} (something : actual ≠ []) (expected : c ∈ t.expectedColumns)
    (unreported : c.name ∉ actual.map (·.name)) : Differs t actual (.missingColumn t.name c.name)
  | mismatch {c live : ColumnInfo} (expected : c ∈ t.expectedColumns) (reported : live ∈ actual)
    (same : live.name = c.name) (differs : live ≠ c) : Differs t actual (.mismatch t.name c live)
  | extraColumn {live : ColumnInfo} (reported : live ∈ actual)
    (unexpected : live.name ∉ t.expectedColumns.map (·.name)) :
    Differs t actual (.extraColumn t.name live.name)

/-- A store reports of a table what the schema says, in whatever order. -/
def Table.Agrees (t : Table) (actual : List ColumnInfo) : Prop :=
  ∀ c, c ∈ actual ↔ c ∈ t.expectedColumns

namespace Table

theorem expectedColumns_names (t : Table) :
    t.expectedColumns.map (·.name) = t.columns.map (·.name) := by
  rw [expectedColumns, List.map_map]
  rfl

theorem WellFormed.expectedDistinct (hw : t.WellFormed) :
    (t.expectedColumns.map (·.name)).Nodup := by
  rw [expectedColumns_names]
  exact hw.columnsDistinct

/-- Among columns of different names, a table agrees with a report exactly when it does not differ
from it. -/
theorem agrees_iff (inhabited : t.columns ≠ []) (distinct : (actual.map (·.name)).Nodup) :
    t.Agrees actual ↔ ∀ d, ¬ t.Differs actual d := by
  constructor
  · intro agrees d differs
    cases differs with
    | missingTable nothing =>
      obtain ⟨k, hk⟩ := List.exists_mem_of_ne_nil _ inhabited
      have hmem := (agrees _).mpr (List.mem_map_of_mem hk)
      rw [nothing] at hmem
      cases hmem
    | missingColumn _ expected unreported =>
      exact unreported (List.mem_map_of_mem ((agrees _).mpr expected))
    | mismatch expected reported same differs =>
      exact differs
        (List.inj_on_of_nodup_map distinct reported ((agrees _).mpr expected) same)
    | extraColumn reported unexpected =>
      exact unexpected (List.mem_map_of_mem ((agrees _).mp reported))
  · intro none
    have something : actual ≠ [] := fun nothing => none _ (.missingTable nothing)
    refine fun c => ⟨fun reported => ?_, fun expected => ?_⟩
    · by_contra hc
      have hname : c.name ∈ t.expectedColumns.map (·.name) := by
        by_contra unexpected
        exact none _ (.extraColumn reported unexpected)
      obtain ⟨e, expected, same⟩ := List.mem_map.mp hname
      exact none _ (.mismatch expected reported same.symm fun heq => hc (heq ▸ expected))
    · by_contra hc
      have hname : c.name ∈ actual.map (·.name) := by
        by_contra unreported
        exact none _ (.missingColumn something expected unreported)
      obtain ⟨live, reported, same⟩ := List.mem_map.mp hname
      exact none _ (.mismatch expected reported same fun heq => hc (heq ▸ reported))

end Table

namespace Drift

/-- The table that a difference is about. -/
def table : Drift → String
  | missingTable table => table
  | missingColumn table _ => table
  | extraColumn table _ => table
  | mismatch table _ _ => table

/-- The column that a difference is about, when it is about one. -/
def column? : Drift → Option String
  | missingTable _ => none
  | missingColumn _ column => some column
  | extraColumn _ column => some column
  | mismatch _ expected _ => some expected.name

/-- Of reported columns of different names, the look-up finds the one of a name. -/
theorem find?_name {name : String} (distinct : (actual.map (·.name)).Nodup) :
    actual.find? (fun live => live.name == name) = some live ↔
      live ∈ actual ∧ live.name = name := by
  constructor
  · intro h
    exact ⟨List.mem_of_find?_eq_some h, by simpa using List.find?_some h⟩
  · rintro ⟨hmem, rfl⟩
    cases hfound : actual.find? fun other => other.name == live.name with
    | none =>
      have hother := List.find?_eq_none.mp hfound live hmem
      simp at hother
    | some other =>
      have hname : other.name = live.name := by simpa using List.find?_some hfound
      rw [List.inj_on_of_nodup_map distinct (List.mem_of_find?_eq_some hfound) hmem hname]

theorem ofExpected_eq_some {table : String} (distinct : (actual.map (·.name)).Nodup) :
    ofExpected table actual c = some d ↔
      (c.name ∉ actual.map (·.name) ∧ d = .missingColumn table c.name) ∨
        ∃ live ∈ actual, live.name = c.name ∧ live ≠ c ∧ d = .mismatch table c live := by
  unfold ofExpected
  split
  next hfound =>
    have hunreported : c.name ∉ actual.map (·.name) := by simpa using hfound
    constructor
    · intro h
      exact .inl ⟨hunreported, (Option.some.inj h).symm⟩
    · rintro (⟨-, rfl⟩ | ⟨live, hlive, hname, -⟩)
      · rfl
      · exact absurd (hname ▸ List.mem_map_of_mem hlive) hunreported
  next live hfound =>
    obtain ⟨hlive, hname⟩ := (find?_name distinct).mp hfound
    have honly : ∀ other ∈ actual, other.name = c.name → other = live := fun other hother hsame =>
      List.inj_on_of_nodup_map distinct hother hlive (hsame.trans hname.symm)
    split
    next hsame =>
      refine ⟨fun h => (Option.some_ne_none d h.symm).elim, ?_⟩
      rintro (⟨hunreported, -⟩ | ⟨other, hother, hothername, hne, -⟩)
      · exact absurd (hname ▸ List.mem_map_of_mem hlive) hunreported
      · exact absurd ((honly other hother hothername).trans hsame) hne
    next hdiffers =>
      constructor
      · intro h
        exact .inr ⟨live, hlive, hname, hdiffers, (Option.some.inj h).symm⟩
      · rintro (⟨hunreported, -⟩ | ⟨other, hother, hothername, -, rfl⟩)
        · exact absurd (hname ▸ List.mem_map_of_mem hlive) hunreported
        · rw [honly other hother hothername]

theorem ofActual_eq_some {table : String} {expected : List ColumnInfo} :
    ofActual table expected live = some d ↔
      live.name ∉ expected.map (·.name) ∧ d = .extraColumn table live.name := by
  have hany : (expected.any fun e => e.name == live.name) = true ↔
      live.name ∈ expected.map (·.name) := by simp
  unfold ofActual
  split
  next hfound =>
    refine ⟨fun h => (Option.some_ne_none d h.symm).elim, fun h => absurd (hany.mp hfound) h.1⟩
  next hnone =>
    rw [hany] at hnone
    exact ⟨fun h => ⟨hnone, (Option.some.inj h).symm⟩, fun h => by rw [h.2]⟩

/-- What is said of a table is how it differs from the report, and all of that. -/
theorem mem_ofTable_iff (distinct : (actual.map (·.name)).Nodup) :
    d ∈ ofTable t actual ↔ t.Differs actual d := by
  unfold ofTable
  split
  next hempty =>
    have hnil : actual = [] := List.isEmpty_iff.mp hempty
    subst hnil
    rw [List.mem_singleton]
    constructor
    · rintro rfl
      exact .missingTable rfl
    · rintro (_ | ⟨something, -, -⟩ | ⟨-, reported, -, -⟩ | ⟨reported, -⟩)
      · rfl
      · exact absurd rfl something
      · cases reported
      · cases reported
  next hsome =>
    have something : actual ≠ [] := by simpa using hsome
    rw [List.mem_append, List.mem_filterMap, List.mem_filterMap]
    constructor
    · rintro (⟨c, hc, hd⟩ | ⟨live, hlive, hd⟩)
      · rcases (ofExpected_eq_some distinct).mp hd with
          ⟨unreported, rfl⟩ | ⟨live, hlive, same, hne, rfl⟩
        · exact .missingColumn something hc unreported
        · exact .mismatch hc hlive same hne
      · obtain ⟨unexpected, rfl⟩ := ofActual_eq_some.mp hd
        exact .extraColumn hlive unexpected
    · intro differs
      cases differs with
      | missingTable nothing => exact absurd nothing something
      | missingColumn _ expected unreported =>
        exact .inl ⟨_, expected, (ofExpected_eq_some distinct).mpr (.inl ⟨unreported, rfl⟩)⟩
      | mismatch expected reported same differs =>
        exact .inl ⟨_, expected,
          (ofExpected_eq_some distinct).mpr (.inr ⟨_, reported, same, differs, rfl⟩)⟩
      | extraColumn reported unexpected =>
        exact .inr ⟨_, reported, ofActual_eq_some.mpr ⟨unexpected, rfl⟩⟩

theorem nodup_filterMap {f : ColumnInfo → Option Drift} {cs : List ColumnInfo}
    (names : ∀ c d, f c = some d → d.column? = some c.name) (distinct : (cs.map (·.name)).Nodup) :
    (cs.filterMap f).Nodup := by
  rw [List.Nodup, List.pairwise_filterMap]
  refine (List.pairwise_map.mp distinct).imp fun hne d hd d' hd' heq => ?_
  subst heq
  exact hne (Option.some.inj ((names _ _ hd).symm.trans (names _ _ hd')))

/-- Nothing is said of a table twice. -/
theorem ofTable_nodup (hw : t.WellFormed) (distinct : (actual.map (·.name)).Nodup) :
    (ofTable t actual).Nodup := by
  unfold ofTable
  split
  next => exact List.nodup_singleton _
  next =>
    refine List.Nodup.append (nodup_filterMap (fun c d hd => ?_) hw.expectedDistinct)
      (nodup_filterMap (fun live d hd => ?_) distinct) fun d hexpected hactual => ?_
    · rcases (ofExpected_eq_some distinct).mp hd with ⟨-, rfl⟩ | ⟨live, -, -, -, rfl⟩ <;> rfl
    · obtain ⟨-, rfl⟩ := ofActual_eq_some.mp hd
      rfl
    · obtain ⟨c, -, hd⟩ := List.mem_filterMap.mp hexpected
      obtain ⟨live, -, hextra⟩ := List.mem_filterMap.mp hactual
      obtain ⟨-, rfl⟩ := ofActual_eq_some.mp hextra
      rcases (ofExpected_eq_some distinct).mp hd with ⟨-, h⟩ | ⟨live, -, -, -, h⟩ <;> cases h

end Drift

theorem Table.Differs.table (h : t.Differs actual d) : d.table = t.name := by
  cases h <;> rfl

namespace Introspection

variable {σ : Type} {serve : σ → Call → RowsResult × σ} {state : σ} {drift : List Drift}

/-- What a store reports for tables that it is asked about one after the other. -/
inductive Reports (serve : σ → Call → RowsResult × σ) :
    σ → List Table → List (List ColumnInfo) → Prop
  | nil (state : σ) : Reports serve state [] []
  | cons {state later : σ} {t : Table} {ts : List Table} {actual : List ColumnInfo}
    {reported : List (List ColumnInfo)}
    (first : (columns t.name).run serve state = (.ok actual, later))
    (rest : Reports serve later ts reported) : Reports serve state (t :: ts) (actual :: reported)

/-- The list says of each table in turn how it differs from what is reported for it: all of that,
nothing else and nothing twice. It is empty exactly when all tables agree with the reports. -/
structure Tells (ts : List Table) (reported : List (List ColumnInfo)) (drift : List Drift) :
    Prop where
  inOrder : ∃ parts, drift = parts.flatten ∧ List.Forall₂
    (fun (p : Table × List ColumnInfo) part => ∀ d, d ∈ part ↔ p.1.Differs p.2 d)
    (ts.zip reported) parts
  once : drift.Nodup
  vacant : drift = [] ↔ List.Forall₂ Table.Agrees ts reported

theorem Reports.length_eq (h : Reports serve state ts reported) :
    ts.length = reported.length := by
  induction h with
  | nil => rfl
  | cons _ _ ih => rw [List.length_cons, List.length_cons, ih]

/-- Tables that are reported on are compared with the reports one by one. -/
theorem Reports.run_verifyTables (h : Reports serve state ts reported) :
    ∃ final, (verifyTables ts).run serve state =
      (.ok ((ts.zip reported).flatMap fun p => Drift.ofTable p.1 p.2), final) := by
  induction h with
  | nil state => exact ⟨state, rfl⟩
  | cons first _ ih =>
    obtain ⟨final, hrest⟩ := ih
    refine ⟨final, ?_⟩
    rw [verifyTables, Dialogue.run_bind, first]
    dsimp only
    rw [Dialogue.run_bind, hrest]
    rfl

theorem tells_ofTables (wellFormed : ∀ t ∈ ts, t.WellFormed) (named : (ts.map (·.name)).Nodup)
    (inhabited : ∀ t ∈ ts, t.columns ≠ []) (hlen : ts.length = reported.length)
    (distinct : ∀ actual ∈ reported, (actual.map (·.name)).Nodup) :
    Tells ts reported ((ts.zip reported).flatMap fun p => Drift.ofTable p.1 p.2) := by
  have hmem : ∀ p ∈ ts.zip reported, ∀ d, d ∈ Drift.ofTable p.1 p.2 ↔ p.1.Differs p.2 d :=
    fun p hp d => Drift.mem_ofTable_iff (distinct _ (List.of_mem_zip hp).2)
  have hagrees : ∀ p ∈ ts.zip reported, Drift.ofTable p.1 p.2 = [] ↔ p.1.Agrees p.2 := by
    intro p hp
    obtain ⟨ht, hactual⟩ := List.of_mem_zip hp
    rw [Table.agrees_iff (inhabited _ ht) (distinct _ hactual), List.eq_nil_iff_forall_not_mem]
    exact forall_congr' fun d => not_congr (hmem p hp d)
  refine ⟨⟨_, rfl, ?_⟩, ?_, ?_⟩
  · exact List.forall₂_map_right_iff.mpr (List.forall₂_same.mpr hmem)
  · rw [List.nodup_flatMap]
    refine ⟨fun p hp => ?_, ?_⟩
    · obtain ⟨ht, hactual⟩ := List.of_mem_zip hp
      exact Drift.ofTable_nodup (wellFormed _ ht) (distinct _ hactual)
    · have hfirst : (ts.zip reported).map Prod.fst = ts := List.map_fst_zip (Nat.le_of_eq hlen)
      rw [← hfirst, List.map_map] at named
      -- Differences of two tables are told apart by the name of the table in them.
      refine (List.pairwise_map.mp named).imp_of_mem fun hp hp' hne d hd hd' => hne ?_
      exact ((hmem _ hp d).mp hd).table.symm.trans ((hmem _ hp' d).mp hd').table
  · rw [List.flatMap_eq_nil_iff, List.forall₂_iff_zip]
    constructor
    · intro h
      exact ⟨hlen, fun hp => (hagrees _ hp).mp (h _ hp)⟩
    · rintro ⟨-, h⟩ p hp
      exact (hagrees p hp).mpr (h hp)

/-- A store that reports on every table of a compiled schema, no table having two columns of one
name, is told from the schema by exactly the differences that there are. -/
theorem verify_tells {definition : Definition} {s : Schema} (compiled : definition.compile = .ok s)
    (inhabited : ∀ t ∈ s.tables, t.columns ≠ []) (reports : Reports serve state s.tables reported)
    (distinct : ∀ actual ∈ reported, (actual.map (·.name)).Nodup) :
    ∃ drift final, (verify s).run serve state = (.ok drift, final)
      ∧ Tells s.tables reported drift := by
  have hw := Definition.compile_wellFormed compiled
  obtain ⟨final, hrun⟩ := reports.run_verifyTables
  exact ⟨_, final, hrun,
    tells_ofTables hw.tables hw.tablesDistinct inhabited reports.length_eq distinct⟩

/-- A store of posts that were changed by hand, without users. -/
def driftedStore (_ : Unit) (call : Call) : RowsResult × Unit :=
  if call.request = .exec (.raw "PRAGMA table_info(posts)") then
    (.ok [.ofList [("name", .text "note"), ("type", .text "text"), ("dflt_value", .null)],
      .ofList [("name", .text "updatedAt"), ("type", .text "integer"), ("notnull", .int 1)],
      .ofList [("name", .text "id"), ("type", .text "INTEGER"), ("pk", .int 1)],
      .ofList [("name", .text "createdAt"), ("type", .text "Integer"), ("notnull", .int 1),
        ("dflt_value", .text "now"), ("pk", .int 0)]] {}, ())
  else (.ok [] {}, ())

def driftedPosts : List ColumnInfo :=
  [⟨"note", "TEXT", false, false, false⟩, ⟨"updatedAt", "INTEGER", true, false, false⟩,
    ⟨"id", "INTEGER", false, false, true⟩, ⟨"createdAt", "INTEGER", true, true, false⟩]

theorem driftedStore_reports :
    Reports driftedStore () Definition.blogSchema.tables [driftedPosts, []] :=
  .cons rfl (.cons rfl (.nil ()))

theorem verify_tells_drifted :
    Definition.blog.compile = .ok Definition.blogSchema
      ∧ (∀ t ∈ Definition.blogSchema.tables, t.columns ≠ [])
      ∧ Reports driftedStore () Definition.blogSchema.tables [driftedPosts, []]
      ∧ (∀ actual ∈ [driftedPosts, []], (actual.map (·.name)).Nodup)
      ∧ ∃ drift final, (verify Definition.blogSchema).run driftedStore () = (.ok drift, final)
        ∧ Tells Definition.blogSchema.tables [driftedPosts, []] drift := by
  have inhabited : ∀ t ∈ Definition.blogSchema.tables, t.columns ≠ [] := by decide
  have distinct : ∀ actual ∈ [driftedPosts, []], (actual.map (·.name)).Nodup := by decide
  exact ⟨Definition.blog_compiles, inhabited, driftedStore_reports, distinct,
    verify_tells Definition.blog_compiles inhabited driftedStore_reports distinct⟩

example : ((verify Definition.blogSchema).run driftedStore ()).1 = .ok
    [.mismatch "posts" ⟨"updatedAt", "INTEGER", false, false, false⟩
        ⟨"updatedAt", "INTEGER", true, false, false⟩,
      .missingColumn "posts" "userId", .extraColumn "posts" "note", .missingTable "users"] := rfl

end Introspection

end Tabularium
