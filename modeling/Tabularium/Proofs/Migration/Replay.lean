import Tabularium.Proofs.Migration.Generation
import Tabularium.Proofs.Schema.MigrationScript
import Tabularium.Proofs.Schema.Succession

namespace Tabularium

namespace MigrationBundle

open Difference Directory

/-- A migration to a schema can be generated under a name, and its script is faithful: the schema is
compiled, and its expressions are closed and do not break a comment. -/
structure Eligible (step : String × Schema) : Prop where
  usable : IsUsable step.1
  compiled : ∃ e : Definition, e.compile = .ok step.2
  closed : step.2.IsClosed
  oneLine : step.2.OneLineDefaults

/-- What generating migrations for schemas one after the other leads to: the bundle is loaded, its
scripts are split into statements that a blank store can execute in order, and in the end every
table of the last schema has the columns that the schema declares. -/
structure Replays (d : Directory) (steps : List (String × Schema)) (d' : Directory)
    (migrations : List Migration) (final : Catalog) : Prop where
  generated : generateAll d steps = .ok d'
  loaded : load d' = .ok ⟨migrations⟩ ∨ migrations = [] ∧ isIn d' = false
  ordered : migrations.Pairwise fun m n => m.idx < n.idx
  scripts : migrations.map (fun m => splitStatements m.sql)
    = (planned d steps).map fun e => e.statements.map Ddl.sql
  executed : Catalog.blank.run ((planned d steps).flatMap (·.statements)) = some final
  arrived : ∀ step ∈ steps.getLast?, ∀ t ∈ step.2.tables, ∃ columns ∈ final.columns t.name,
    (columns.map (·.name)).Perm (t.columns.map (·.name))

/-- What is known after a next schema. -/
theorem baseOf_added (log : List Generated) (name name' : String) (s : Schema) :
    (baseOf (log ++ added log name s) name').tables
      = (Tracks.next (baseOf log s.name) s).tables := by
  have hdifference : (nextOf log name s).difference = between (baseOf log s.name) s := rfl
  unfold added Tracks.next
  rw [hdifference]
  split
  next => rw [List.append_nil, baseOf_tables log name' s.name]
  next =>
    rw [baseOf_snoc]
    rfl

/-- A store tracks the schemas whatever it is told of the schema before the first. -/
def Follows (schemas : List Schema) (log : List Generated) (c : Catalog) : Prop :=
  ∀ name, Tracks schemas (baseOf log name) c

theorem Follows.blank : Follows [] [] .blank := fun name => Tracks.blank name

/-- The migration for a next schema can be executed. -/
theorem Follows.step {schemas : List Schema} {log : List Generated} {c : Catalog}
    (h : Follows schemas log c) {s : Schema} (hs : s.WellFormed)
    (hr : Returns Table.Continues (schemas ++ [s])) (name : String) :
    ∃ c', c.run ((added log name s).flatMap (·.difference.statements)) = some c'
      ∧ Follows (schemas ++ [s]) (log ++ added log name s) c' := by
  obtain ⟨c', hrun, hnext⟩ := (h s.name).step hs hr
  refine ⟨c', ?_, fun name' => hnext.of_tables (baseOf_added log name name' s)⟩
  have hdifference : (nextOf log name s).difference = between (baseOf log s.name) s := rfl
  unfold added
  rw [hdifference]
  split
  next hempty =>
    unfold isEmpty at hempty
    rw [Bool.and_eq_true, List.isEmpty_iff, List.isEmpty_iff] at hempty
    rwa [hempty.1] at hrun
  next =>
    rw [List.flatMap_singleton, hdifference]
    exact hrun

/-- The migrations for schemas one after the other can be executed in order. -/
theorem Follows.run {steps : List (String × Schema)} :
    ∀ {schemas : List Schema} {log : List Generated} {c : Catalog}, Follows schemas log c →
      (∀ step ∈ steps, step.2.WellFormed) → Returns Table.Continues (schemas ++ steps.map (·.2)) →
      ∃ c', c.run ((addedAll log steps).flatMap (·.difference.statements)) = some c'
        ∧ Follows (schemas ++ steps.map (·.2)) (log ++ addedAll log steps) c' := by
  induction steps with
  | nil =>
    intro schemas log c h _ _
    exact ⟨c, rfl, by simpa [addedAll] using h⟩
  | cons step steps ih =>
    intro schemas log c h hs hr
    obtain ⟨name, s⟩ := step
    rw [List.forall_mem_cons] at hs
    rw [List.map_cons, List.append_cons] at hr
    obtain ⟨c₁, hrun₁, h₁⟩ := h.step hs.1 hr.of_append name
    obtain ⟨c₂, hrun₂, h₂⟩ := ih h₁ hs.2 hr
    refine ⟨c₂, ?_, ?_⟩
    · rw [addedAll, List.flatMap_append]
      exact Catalog.run_trans hrun₁ hrun₂
    · rw [List.map_cons, List.append_cons, addedAll, ← List.append_assoc]
      exact h₂

/-- The scripts of migrations for eligible schemas are faithful. -/
theorem addedAll_faithful {steps : List (String × Schema)} :
    ∀ {log : List Generated}, (∀ name, (baseOf log name).WellFormed) →
      (∀ step ∈ steps, Eligible step) → ∀ g ∈ addedAll log steps, g.difference.Faithful := by
  induction steps with
  | nil =>
    intro log _ _ g hg
    cases hg
  | cons step steps ih =>
    intro log hbase hs
    obtain ⟨name, s⟩ := step
    rw [List.forall_mem_cons] at hs
    obtain ⟨e, he⟩ := hs.1.compiled
    have hw : s.WellFormed := Definition.compile_wellFormed he
    have hbase' : ∀ name', (baseOf (log ++ added log name s) name').WellFormed := by
      intro name'
      unfold added
      split
      next => rw [List.append_nil]; exact hbase name'
      next => rw [baseOf_snoc]; exact hw.readBack
    rw [addedAll, List.forall_mem_append]
    refine ⟨fun g hg => ?_, ih hbase' hs.2⟩
    unfold added at hg
    split at hg
    next => cases hg
    next =>
      cases List.mem_singleton.mp hg
      exact faithful_of_oneLine (hbase s.name) hw hs.1.closed (quoted_oneLine hs.1.oneLine)

theorem Eligible.finite {step : String × Schema} (h : Eligible step) : step.2.FiniteDefaults := by
  obtain ⟨e, he⟩ := h.compiled
  exact Definition.compile_finiteDefaults he

theorem Eligible.wellFormed {step : String × Schema} (h : Eligible step) : step.2.WellFormed := by
  obtain ⟨e, he⟩ := h.compiled
  exact Definition.compile_wellFormed he

theorem generated_holds {d : Directory} {steps : List (String × Schema)} (hd : d.Blank)
    (hs : ∀ step ∈ steps, Eligible step) (hfew : steps.length ≤ 2 ^ 32) :
    planned d steps = (addedAll [] steps).map (·.difference)
      ∧ ∃ d', generateAll d steps = .ok d' ∧ Holds d' (addedAll [] steps) := by
  obtain ⟨hplanned, -, hgenerated⟩ := Holds.generateAll_blank hd
    (fun step hstep => (hs step hstep).usable) (fun step hstep => (hs step hstep).finite) hfew
  exact ⟨hplanned, hgenerated⟩

/-- Replaying the bundle that was generated for schemas one after the other leads to the last one,
when every table that comes back continues the one that left. -/
theorem generated_replays {d : Directory} {steps : List (String × Schema)} (hd : d.Blank)
    (hs : ∀ step ∈ steps, Eligible step) (hfew : steps.length ≤ 2 ^ 32)
    (hr : Returns Table.Continues (steps.map (·.2))) :
    ∃ d' migrations final, Replays d steps d' migrations final := by
  obtain ⟨hplanned, d', hgenerated, hd'⟩ := generated_holds hd hs hfew
  obtain ⟨final, hrun, hfollows⟩ :=
    Follows.blank.run (fun step hstep => (hs step hstep).wellFormed) hr
  have hbase : ∀ name, (baseOf [] name).WellFormed := fun name => Schema.WellFormed.empty name
  have hfaithful := addedAll_faithful hbase hs
  rw [List.nil_append, List.nil_append] at hfollows
  refine ⟨d', (addedAll [] steps).map Generated.migration, final, hgenerated, ?_, ?_, ?_, ?_, ?_⟩
  · by_cases hne : addedAll [] steps = []
    · refine .inr ⟨by rw [hne]; rfl, ?_⟩
      rw [hd'.isIn_eq, hne]
      rfl
    · exact .inl (hd'.load_eq hne)
  · exact List.pairwise_map.mpr (hd'.idx_pairwise.imp fun hlt => UInt32.lt_iff_toNat_lt.mpr hlt)
  · rw [hplanned, List.map_map, List.map_map]
    exact List.map_congr_left fun g hg => (hfaithful g hg).statements
  · rw [hplanned, List.flatMap_map]
    exact hrun
  · intro step hstep t ht
    have hlast : step.2 ∈ (steps.map (·.2)).getLast? := by
      rw [List.getLast?_map]
      exact Option.mem_map_of_mem _ hstep
    exact ((hfollows "").arrived step.2 hlast t ht).columns

def textTable (name : String) (columns : List String) (indexes : List Index) : Table :=
  { name, columns := columns.map fun column => { name := column, type := .text }, indexes }

def textDefinition (tables : List Table) : Definition :=
  tables.foldl (fun e t => t.indexes.foldl (fun e i => e.index t.name i)
    (t.columns.foldl (fun e c => e.column t.name c.name "text") e)) { name := "s" }

theorem eligible_texts {steps : List (String × Schema)}
    (h : ∀ step ∈ steps, ((slug step.1).isEmpty = false ∧ (slug step.1).length ≤ 230)
      ∧ (textDefinition step.2.tables).compile = .ok step.2
      ∧ ∀ t ∈ step.2.tables, t.checks = [] ∧ ∀ k ∈ t.columns, k.default = none) :
    ∀ step ∈ steps, Eligible step := by
  intro step hstep
  obtain ⟨hu, hcompile, hplain⟩ := h step hstep
  refine ⟨⟨hu.1, hu.2⟩, ⟨_, hcompile⟩, fun t ht => ⟨fun k hk v hv => ?_, ?_⟩,
    fun t ht k hk sql hsql => ?_⟩
  · rw [(hplain t ht).2 k hk] at hv
    cases hv
  · rw [(hplain t ht).1]
    simp
  · rw [(hplain t ht).2 k hk] at hsql
    cases hsql

/-- A table leaves, and the tables of further schemas follow. -/
def leaving (further : List (String × List Table)) : List (String × Schema) :=
  [("first", ⟨"s", 1, [textTable "t" ["a", "b"] [⟨"i", ["b"], false⟩]]⟩),
    ("second", ⟨"s", 1, [textTable "u" ["x"] []]⟩)]
    ++ further.map fun next => (next.1, ⟨"s", 1, textTable "u" ["x"] [] :: next.2⟩)

/-- The table comes back as it was. -/
def intact : List (String × Schema) :=
  leaving [("third", [textTable "t" ["a", "b"] [⟨"i", ["b"], false⟩]])]

/-- The table comes back with its index, but with another column. -/
def altered : List (String × Schema) :=
  leaving [("third", [textTable "t" ["b", "c"] [⟨"i", ["b"], false⟩]])]

/-- The table comes back without its index, and then loses the column. -/
def stripped : List (String × Schema) :=
  leaving [("third", [textTable "t" ["a", "b"] []]), ("fourth", [textTable "t" ["a"] []])]

theorem generated_replays_intact :
    Returns Table.Continues (intact.map (·.2))
      ∧ ∃ d' migrations final, Replays ⟨"migrations", []⟩ intact d' migrations final := by
  have hr : Returns Table.Continues (intact.map (·.2)) := by decide +kernel
  exact ⟨hr, generated_replays (.inl rfl) (eligible_texts (by decide +kernel)) (by decide) hr⟩

theorem Replays.executed_added {d d' : Directory} {steps : List (String × Schema)}
    {migrations : List Migration} {final : Catalog} (h : Replays d steps d' migrations final)
    (hd : d.Blank) (hs : ∀ step ∈ steps, Eligible step) (hfew : steps.length ≤ 2 ^ 32) :
    Catalog.blank.run ((addedAll [] steps).flatMap (·.difference.statements)) = some final := by
  have hexecuted := h.executed
  rwa [(generated_holds hd hs hfew).1, List.flatMap_map] at hexecuted

theorem altered_lost :
    ¬ ∃ d' migrations final, Replays ⟨"migrations", []⟩ altered d' migrations final := by
  rintro ⟨d', migrations, final, h⟩
  have hrun := h.executed_added (.inl rfl) (eligible_texts (by decide +kernel)) (by decide)
  have hkept : (Catalog.blank.run ((addedAll [] altered).flatMap
      (·.difference.statements))).map (fun c => c.columns "t")
      = some (some [⟨"a", "a TEXT"⟩, ⟨"b", "b TEXT"⟩]) := by decide +kernel
  rw [hrun, Option.map_some, Option.some.injEq] at hkept
  obtain ⟨columns, hcolumns, hp⟩ := h.arrived _ rfl
    (textTable "t" ["b", "c"] [⟨"i", ["b"], false⟩]) (by decide +kernel)
  have hcolumns : final.columns "t" = some columns := hcolumns
  rw [hkept] at hcolumns
  cases hcolumns
  revert hp
  decide +kernel

theorem stripped_lost :
    ¬ ∃ d' migrations final, Replays ⟨"migrations", []⟩ stripped d' migrations final := by
  rintro ⟨d', migrations, final, h⟩
  have hrun := h.executed_added (.inl rfl) (eligible_texts (by decide +kernel)) (by decide)
  have hstuck : (Catalog.blank.run ((addedAll [] stripped).flatMap
      (·.difference.statements))).isNone = true := by decide +kernel
  rw [hrun] at hstuck
  cases hstuck

/-- A table that comes back with other columns keeps the ones that it had, and one that comes back
without its indexes keeps them as well: neither half of what is asked of it can be left out. -/
theorem replay_lost :
    (¬ ∀ (d : Directory) (steps : List (String × Schema)), d.Blank →
      (∀ step ∈ steps, Eligible step ∧ step.2.IndexesDistinct) → steps.length ≤ 2 ^ 32 →
      ∃ d' migrations final, Replays d steps d' migrations final)
    ∧ (¬ ∀ (d : Directory) (steps : List (String × Schema)), d.Blank →
      (∀ step ∈ steps, Eligible step ∧ step.2.IndexesDistinct) → steps.length ≤ 2 ^ 32 →
      Returns Table.KeepsIndexes (steps.map (·.2)) →
      ∃ d' migrations final, Replays d steps d' migrations final)
    ∧ ¬ ∀ (d : Directory) (steps : List (String × Schema)), d.Blank →
      (∀ step ∈ steps, Eligible step ∧ step.2.IndexesDistinct) → steps.length ≤ 2 ^ 32 →
      Returns Table.SameColumns (steps.map (·.2)) →
      ∃ d' migrations final, Replays d steps d' migrations final := by
  have haltered : ∀ step ∈ altered, Eligible step ∧ step.2.IndexesDistinct := fun step hstep =>
    ⟨eligible_texts (by decide +kernel) step hstep, by revert step; decide +kernel⟩
  have hstripped : ∀ step ∈ stripped, Eligible step ∧ step.2.IndexesDistinct := fun step hstep =>
    ⟨eligible_texts (by decide +kernel) step hstep, by revert step; decide +kernel⟩
  refine ⟨fun h => ?_, fun h => ?_, fun h => ?_⟩
  · exact altered_lost (h _ altered (.inl rfl) haltered (by decide))
  · exact altered_lost (h _ altered (.inl rfl) haltered (by decide) (by decide +kernel))
  · exact stripped_lost (h _ stripped (.inl rfl) hstripped (by decide) (by decide +kernel))

end MigrationBundle

end Tabularium
