import Tabularium.Proofs.Migration.Generation
import Tabularium.Proofs.Migration.RunCourse
import Tabularium.Proofs.Schema.MigrationScript
import Tabularium.Proofs.Schema.Succession

namespace Tabularium

namespace Difference

theorem between_empty (name : String) (s : Schema) : between (.empty name) s = ⟨s.ddl, []⟩ := by
  have hnew : ∀ t : Table, ofNewTable (.empty name) t = ⟨t.ddl, []⟩ := fun _ => rfl
  have hnone : collect (Schema.empty name).tables (ofOldTable s) = {} := rfl
  rw [between, hnone]
  simp only [collect, hnew, Schema.ddl]
  show Difference.mk _ _ = _
  simp

end Difference

namespace MigrationBundle

open Directory

variable {d d' : Directory} {name : String} {s : Schema} {p : Plan}

/-- A plan that is carried out leaves its script in the directory. -/
theorem Plan.write_script {g : GeneratedMigration} {idx : UInt32}
    (htag : p.tag = tagOf idx (slug name)) (h : p.write d s = (.ok g, d')) :
    d'.read (scriptPath g.tag) = .ok p.difference.toSql := by
  have hscript : IsName (scriptPath p.tag) := htag ▸ (scriptPath_isName idx name).1
  have hsnapshot : IsName (snapshotName p.tag) := htag ▸ (snapshotName_isName idx name).1
  unfold Plan.write at h
  split at h
  next => cases h
  next d₁ _ =>
    split at h
    next => cases h
    next =>
      split at h
      next => cases h
      next d₂ hwrite =>
        cases h
        rw [Plan.files, journalPath_eq] at hwrite
        unfold Directory.writeAll at hwrite
        split at hwrite
        next d₃ hfirst =>
          refine ((Carries.of_write hscript hfirst).writeAll ?_ hwrite).read
          simp only [List.forall_mem_cons, List.not_mem_nil, false_implies, implies_true, and_true]
          exact ⟨⟨_, hsnapshot, snapshotPath_eq _⟩, _, journalName_isFileName.toIsName, rfl⟩
        next => cases hwrite

/-- A directory holds no migration: it has no journal, or one without entries. -/
def IsEmptyIn (d : Directory) : Prop :=
  isIn d = true → readJournal d = .ok {}

/-- Where there is no migration, the difference from the empty schema is planned. -/
theorem plan_first (h : IsEmptyIn d) (hplan : plan d name s = .ok (some p)) :
    p.tag = tagOf p.idx (slug name) ∧ p.difference = .between (.empty s.name) s := by
  cases hn : (slug name).isEmpty with
  | true =>
    rw [plan_unusable hn] at hplan
    cases hplan
  | false =>
    have hsnapshot : latestSnapshot d {} = .ok none := rfl
    rw [plan_known hn h (fun _ => rfl) hsnapshot] at hplan
    split at hplan
    next => cases hplan
    next =>
      cases hplan
      exact ⟨rfl, rfl⟩

/-- The script of the first migration is the difference from the empty schema. -/
theorem generate_script {g : GeneratedMigration} (h : IsEmptyIn d)
    (hgenerate : generate d name s = (.ok (some g), d')) :
    d'.read (scriptPath g.tag) = .ok (Difference.between (.empty s.name) s).toSql := by
  unfold generate at hgenerate
  split at hgenerate
  next => cases hgenerate
  next => cases hgenerate
  next p hplan =>
    obtain ⟨htag, hdifference⟩ := plan_first h hplan
    split at hgenerate
    next => cases hgenerate
    next m d₁ hwrite =>
      cases hgenerate
      rw [← hdifference]
      exact Plan.write_script htag hwrite

/-- In a blank directory a first migration is generated for every schema with tables. -/
theorem generate_blank (hd : d.Blank) (hn : IsUsable name) (hf : s.FiniteDefaults)
    (hs : s.tables ≠ []) : ∃ g d', generate d name s = (.ok (some g), d') := by
  have holds := Holds.of_blank hd
  have hdifference : (nextOf [] name s).difference = ⟨s.ddl, []⟩ :=
    Difference.between_empty s.name s
  have hunreached : ¬ (nextOf [] name s).difference.isEmpty = true := by
    obtain ⟨t, ts, ht⟩ := List.exists_cons_of_ne_nil hs
    rw [hdifference]
    simp [Difference.isEmpty, Schema.ddl, Table.ddl, ht]
  obtain ⟨d', hwrite, -⟩ := holds.write_eq (g := nextOf [] name s) (hn.hasRoom _) hf
    (holds.nextIdx_eq (by decide))
  exact ⟨_, d', holds.generate_unreached hn.nonempty hunreached hwrite⟩

end MigrationBundle

/-- What a store is asked to do for a schema that it does not have: the statements that create the
tables and indexes, and the insertion of a tag. -/
def Schema.creation (s : Schema) (tag : String) (createdAt : Int64) : List Statement :=
  s.ddl.map (fun statement => ⟨statement.sql, []⟩) ++ [HistoryTable.insertion tag createdAt]

namespace MigrationHistory

open Dialogue

variable {clock : Nat → Int64} {source : MigrationSource} {s : Schema} {es : List Exchange}
  {replies : Nat → RowsResult} {outcome : Except MigrationError MigrationReport}

/-- The only migration that can be pending is the one that creates the schema. -/
theorem pendingOf_synthesized {read : RowsResult} {i : Nat} {m : Migration}
    (h : (pendingOf (.synthesized s) read)[i]? = some m) :
    i = 0 ∧ m = ⟨0, "0000_initial", s.toSql⟩ := by
  have sublist : (pendingOf (.synthesized s) read).Sublist [⟨0, "0000_initial", s.toSql⟩] :=
    List.filter_sublist
  obtain ⟨hi, rfl⟩ := List.getElem?_eq_some_iff.mp h
  have hlength := sublist.length_le
  rw [List.length_singleton] at hlength
  exact ⟨by omega, List.mem_singleton.mp (sublist.subset (List.getElem_mem hi))⟩

/-- On a store without a history, a run submits the one migration that creates a schema. -/
theorem Course.submits (course : Course clock (.synthesized s) es outcome)
    (answered : es.map (·.reply) = (List.range' 0 es.length).map replies)
    (hcreated : (replies 0).success = true) (hread : (replies 1).success = true)
    (hnone : replyTags (replies 1) = []) :
    ∃ e e' last, es = [e, e', last]
      ∧ last.call.request
        = .batch ((⟨0, "0000_initial", s.toSql⟩ : Migration).batch (clock 0)) := by
  have pending : ∀ {read : RowsResult}, replyTags read = [] →
      pendingOf (.synthesized s) read = [⟨0, "0000_initial", s.toSql⟩] := by
    intro read hread
    simp [pendingOf, hread, MigrationSource.migrations, MigrationSource.initialTag]
  cases course with
  | @uncreated e failed =>
    have first : e.reply = replies 0 := reply_eq answered rfl
    cases (first ▸ failed.2).symm.trans hcreated
  | @unread _ e' _ failed =>
    have second : e'.reply = replies 1 := reply_eq answered rfl
    cases (second ▸ failed.2).symm.trans hread
  | @refused _ e' _ refused =>
    have second : e'.reply = replies 1 := reply_eq answered rfl
    exact absurd (second ▸ hnone) refused.recorded
  | @stopped e e' last es m done left _ _ hpending applied failed =>
    have second : e'.reply = replies 1 := reply_eq answered rfl
    rw [pending (second ▸ hnone)] at hpending
    cases done with
    | nil =>
      cases hpending
      cases applied
      exact ⟨e, e', last, rfl, failed.1⟩
    | cons _ done => simp at hpending
  | @completed e e' es _ _ applied =>
    have second : e'.reply = replies 1 := reply_eq answered rfl
    rw [pending (second ▸ hnone)] at applied
    cases applied with
    | cons applies rest =>
      cases rest
      exact ⟨e, e', _, rfl, applies.1⟩

end MigrationHistory

/-- The ways to a first migration for a schema lead to the same statements. -/
structure InitialAgrees (s : Schema) : Prop where
  synthesized : ∀ name, (MigrationSource.synthesized s).migrations
    = [⟨0, "0000_initial", (Difference.between (.empty name) s).toSql⟩]
  /-- The script that is generated where there is no migration is the same text. -/
  generated : ∀ d name g d', MigrationBundle.IsEmptyIn d →
    MigrationBundle.generate d name s = (.ok (some g), d') →
    d'.read (MigrationBundle.scriptPath g.tag) = .ok (Difference.between (.empty s.name) s).toSql
  generates : ∀ d name, d.Blank → MigrationBundle.IsUsable name → s.tables ≠ [] →
    MigrationBundle.IsEmptyIn d
      ∧ ∃ g d', MigrationBundle.generate d name s = (.ok (some g), d')
  split : ∀ name, splitStatements (Difference.between (.empty name) s).toSql = s.ddl.map Ddl.sql
  batches : ∀ (h : MigrationHistory) (clock : Nat → Int64) (replies : Nat → RowsResult),
    ∀ e ∈ ((h.run clock (.synthesized s)).run (Dialogue.answering replies) []).2,
      ∀ statements, e.call.request = .batch statements →
        statements = s.creation "0000_initial" (clock 0)
  /-- On a store without a history, the batch is submitted. -/
  submitted : ∀ (h : MigrationHistory) (clock : Nat → Int64) (replies : Nat → RowsResult),
    (replies 0).success = true → (replies 1).success = true →
    MigrationHistory.replyTags (replies 1) = [] →
    ∃ e e' last,
      ((h.run clock (.synthesized s)).run (Dialogue.answering replies) []).2 = [e, e', last]
      ∧ last.call.request = .batch (s.creation "0000_initial" (clock 0))

/-- For a compiled schema whose expressions are closed, the synthesized migration and the generated
one are the same script, and what is submitted are the statements that create the schema with the
one record of the migration. -/
theorem initial_agrees {d : Definition} {s : Schema} (h : d.compile = .ok s) (hc : s.IsClosed) :
    InitialAgrees s := by
  have hscript : ∀ name, (Difference.between (.empty name) s).toSql = s.toSql := by
    intro name
    rw [Difference.between_empty]
    simp [Difference.toSql, Schema.toSql]
  have hclean : ∀ statement ∈ s.ddl, statement.Clean := by
    have clean := Difference.between_clean (.empty s.name) (Definition.compile_wellFormed h) hc
    rwa [Difference.between_empty] at clean
  have hsplit : splitStatements s.toSql = s.ddl.map Ddl.sql := splitStatements_script hclean
  have hbatch : ∀ createdAt, (⟨0, "0000_initial", s.toSql⟩ : Migration).batch createdAt
      = s.creation "0000_initial" createdAt := by
    intro createdAt
    simp [Migration.batch, Schema.creation, hsplit]
  refine ⟨fun name => ?_, fun d name g d' hd hg => MigrationBundle.generate_script hd hg,
    fun d name hd hn hs => ⟨?_, ?_⟩, fun name => ?_,
    fun hist clock replies e he statements hr => ?_,
    fun hist clock replies h₀ h₁ hnone => ?_⟩
  · rw [hscript]
    rfl
  · intro hin
    rw [MigrationBundle.isIn, Directory.hasFile, MigrationBundle.Holds.read_blank hd] at hin
    cases hin
  · exact MigrationBundle.generate_blank hd hn (Definition.compile_finiteDefaults h) hs
  · rw [hscript, hsplit]
  · obtain ⟨es, kept, played, -⟩ :=
      (hist.run clock (.synthesized s)).plays_answering replies []
    rw [List.nil_append] at kept
    rw [kept] at he
    rcases (MigrationHistory.run_plays played).requests he with
      create | read | ⟨_, _, _, hm, request⟩
    · cases create.symm.trans hr
    · cases read.symm.trans hr
    · obtain ⟨rfl, rfl⟩ := MigrationHistory.pendingOf_synthesized hm
      cases request.symm.trans hr
      exact hbatch (clock 0)
  · obtain ⟨es, kept, played, answered⟩ :=
      (hist.run clock (.synthesized s)).plays_answering replies []
    rw [List.nil_append] at kept
    have course := MigrationHistory.run_plays played
    obtain ⟨e, e', last, hes, hlast⟩ := course.submits answered h₀ h₁ hnone
    exact ⟨e, e', last, kept.trans hes, by rw [hlast, hbatch]⟩

/-- Notes with marks of all kinds in their texts. -/
def markedNotes : Definition :=
  ({ name := "app" } : Definition).column "notes" "body"
      "text not null default 'it''s; -- no\ncomment /* \"'"
    |>.column "notes" "state" "text default 'a;b' enum('x;y', '--z', 'it''s')"
    |>.column "notes" "mark" "text default (hex(randomblob(8)) || ';--')"
    |>.check "notes" "body <> ';' and length(body) > 1"
    |>.index "notes" ⟨"notes_state", ["state"], true⟩

def markedNotesSchema : Schema :=
  ⟨"app", 1, [
    { name := "notes"
      columns := [
        { name := "body", type := .text, notNull := true,
          default := some (.value (.text "it's; -- no\ncomment /* \"")) },
        { name := "state", type := .text, enumValues := some ["x;y", "--z", "it's"],
          default := some (.value (.text "a;b")) },
        { name := "mark", type := .text, default := some (.raw "hex(randomblob(8)) || ';--'") }]
      indexes := [⟨"notes_state", ["state"], true⟩]
      checks := ["body <> ';' and length(body) > 1"] }]⟩

theorem markedNotes_closed : markedNotesSchema.IsClosed := by
  intro t ht
  cases List.mem_singleton.mp ht
  refine ⟨fun k hk v hv sql hsql => ?_, by decide⟩
  subst hsql
  simp only [List.mem_cons, List.not_mem_nil, or_false] at hk
  rcases hk with rfl | rfl | rfl
  · cases hv
  · cases hv
  · cases hv
    decide

theorem initial_agrees_markedNotes :
    markedNotes.compile = .ok markedNotesSchema ∧ markedNotesSchema.IsClosed
      ∧ InitialAgrees markedNotesSchema
      ∧ markedNotesSchema.ddl.map Ddl.sql = [
        "CREATE TABLE IF NOT EXISTS notes (\n  "
          ++ "body TEXT NOT NULL DEFAULT 'it''s; -- no\ncomment /* \"',\n  "
          ++ "state TEXT DEFAULT 'a;b' CHECK (state IN ('x;y', '--z', 'it''s')),\n  "
          ++ "mark TEXT DEFAULT (hex(randomblob(8)) || ';--'),\n  "
          ++ "CHECK (body <> ';' and length(body) > 1)\n)",
        "CREATE UNIQUE INDEX IF NOT EXISTS notes_state ON notes(state)"] := by
  have hcompiles : markedNotes.compile = .ok markedNotesSchema := by decide +kernel
  refine ⟨hcompiles, markedNotes_closed, initial_agrees hcompiles markedNotes_closed, ?_⟩
  decide +kernel

end Tabularium
