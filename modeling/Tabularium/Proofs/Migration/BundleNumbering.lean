import Tabularium.Proofs.Migration.Generation

namespace Tabularium

namespace MigrationBundle

open Directory

variable {d d' : Directory} {b : MigrationBundle} {journal : Journal} {place : Place}
  {name text : String} {s : Schema} {p : Plan}
  {answer : Except MigrationError GeneratedMigration}

/-- The migrations are the entries of the journal in a directory, whatever the order that they stand
in there, with the scripts that the directory has for them. -/
def Journaled (d : Directory) (b : MigrationBundle) : Prop :=
  ∃ text journal, d.read journalPath = .ok text ∧ Draft.decode Journal.read text = .ok journal
    ∧ b.journal.entries.Perm journal.entries
    ∧ ∀ m ∈ b.migrations, d.read (scriptPath m.tag) = .ok m.sql

/-- What comes next comes last: its number is above all others, and the bundle in the directory is
the one with it at the end once it is generated. -/
structure Continues (d : Directory) (b : MigrationBundle) : Prop where
  above : ∀ m ∈ b.migrations, m.idx < b.journal.nextIdx
  appended : ∀ tag sql, (b.withEntry tag sql).Ascends
  generated : ∀ name s m d', generate d name s = (.ok (some m), d') →
    ∃ sql, load d' = .ok (b.withEntry m.tag sql)

theorem journaled_of_load (h : load d = .ok b) : Journaled d b := by
  obtain ⟨-, journal, hjournal, hmore, -⟩ := load_eq_ok_iff.mp h
  obtain ⟨text, written, hread, hdecode, rfl⟩ := readJournal_eq_ok_iff.mp hjournal
  refine ⟨text, written, hread, hdecode, ?_, fun m hm => ?_⟩
  · rw [journal_entries hmore]
    exact List.mergeSort_perm written.entries _
  · exact read_script hmore hm

/-- The place of a script shows that it is one. -/
theorem place_script {tag : String} (h : d.place (scriptPath tag) = .ok place) :
    ∃ front stem, place = front ++ [stem ++ ".sql"] :=
  place_ended (by decide) (by decide) h

theorem place_script_ne {tag document : String} (hdocument : document.toList.getLast? = some 'n')
    (h : d.place (scriptPath tag) = .ok place) : place ≠ ["meta", document] := by
  obtain ⟨front, stem, rfl⟩ := place_script h
  intro hsame
  have hlast := congrArg List.getLast? hsame
  rw [List.getLast?_concat] at hlast
  obtain rfl : stem ++ ".sql" = document := Option.some.inj hlast
  rw [String.toList_append, List.getLast?_append] at hdocument
  cases hdocument

theorem ofEntries_put {entries : List JournalEntry} {ms : List Migration}
    (h : List.Forall₂ (OfEntry d) entries ms) (hp : d.node? place ≠ some .folder)
    (hscripts : ∀ m ∈ ms, d.place (scriptPath m.tag) ≠ .ok place) (n : Node) :
    List.Forall₂ (OfEntry (d.put place n)) entries ms := by
  induction h with
  | nil => exact .nil
  | cons of _ ih =>
    rw [List.forall_mem_cons, of.tag] at hscripts
    exact .cons ⟨of.idx, of.tag, read_put of.sql hp hscripts.1 n⟩ (ih hscripts.2)

/-- The bundle stays as it is when something is put where it has nothing. -/
theorem load_put (h : load d = .ok b) (hp : d.node? place ≠ some .folder)
    (hjournal : d.place journalPath ≠ .ok place)
    (hscripts : ∀ m ∈ b.migrations, d.place (scriptPath m.tag) ≠ .ok place) (n : Node) :
    load (d.put place n) = .ok b := by
  obtain ⟨hroot, journal, hread, hmore, apart⟩ := load_eq_ok_iff.mp h
  obtain ⟨text, written, htext, hdecode, rfl⟩ := readJournal_eq_ok_iff.mp hread
  have hnode := hasFolder_root_iff.mp hroot
  refine load_eq_ok_iff.mpr ⟨hasFolder_root_iff.mpr ?_, _, readJournal_eq_ok_iff.mpr
    ⟨text, written, read_put htext hp hjournal n, hdecode, rfl⟩,
    ofEntries_put hmore hp hscripts n, apart⟩
  rw [node?_put, if_neg, hnode]
  rintro rfl
  exact hp hnode

theorem place_ne_of_read {path : String} (h : d.read path = .ok text)
    (hfree : d.node? place = none) : d.place path ≠ .ok place := by
  obtain ⟨q, hq, hfile⟩ := read_ok h
  intro hplace
  obtain rfl : q = place := Except.ok.inj (hq.symm.trans hplace)
  cases hfree.symm.trans hfile

section Steps

variable {idx : UInt32} {sql : String}

/-- The script of a migration is written where nothing stands, which leaves the bundle as it is. -/
theorem load_script (h : load d = .ok b)
    (hfree : d.has (scriptPath (tagOf idx (slug name))) = false)
    (hwrite : d.write (scriptPath (tagOf idx (slug name))) sql = .ok d') :
    load d' = .ok b ∧ d'.read (scriptPath (tagOf idx (slug name))) = .ok sql := by
  have hname := (scriptPath_isName idx name).1
  obtain ⟨q, hplace, hnode, rfl⟩ := write_put hwrite
  have hnone := node?_of_has hfree hplace
  obtain ⟨-, journal, hjournal, hmore, -⟩ := load_eq_ok_iff.mp h
  obtain ⟨journalText, -, htext, -⟩ := readJournal_eq_ok_iff.mp hjournal
  refine ⟨load_put h hnode (place_ne_of_read htext hnone) (fun m hm =>
    place_ne_of_read (read_script hmore hm) hnone) _, (Carries.of_write hname hwrite).read⟩

theorem place_journal (hplace : d.place journalPath = .ok place) :
    place = ["meta", journalName] := by
  rw [journalPath_eq] at hplace
  exact place_metaPath_ok journalName_isFileName.toIsName hplace

/-- The schema that a migration leads to is written where the bundle has nothing. -/
theorem load_snapshot {schema : String} (h : load d = .ok b)
    (hread : d.read (scriptPath (tagOf idx (slug name))) = .ok sql)
    (hwrite : d.write (snapshotPath (tagOf idx (slug name))) schema = .ok d') :
    load d' = .ok b ∧ d'.read (scriptPath (tagOf idx (slug name))) = .ok sql := by
  obtain ⟨q, hplace, hnode, rfl⟩ := write_put hwrite
  rw [snapshotPath_eq] at hplace
  obtain rfl := place_metaPath_ok (snapshotName_isName idx name).1 hplace
  have hdocument : (snapshotName (tagOf idx (slug name))).toList.getLast? = some 'n' := by
    rw [snapshotName, String.toList_append, List.getLast?_append]
    rfl
  refine ⟨load_put h hnode (fun hjournal => ?_) (fun m _ hscript =>
    place_script_ne hdocument hscript rfl) _, read_put hread hnode (fun hscript =>
    place_script_ne hdocument hscript rfl) _⟩
  exact snapshotName_ne_journal idx (slug name) (by simpa using place_journal hjournal)

/-- Once the journal is written, the bundle has the migration at its end. -/
theorem load_journal {tag : String} (h : load d = .ok b)
    (room : ∀ m ∈ b.migrations, m.idx.toNat + 1 < UInt32.size)
    (hread : d.read (scriptPath tag) = .ok sql) (hnew : ∀ m ∈ b.migrations, m.tag ≠ tag)
    (hwrite : d.write journalPath (Journal.mk
      (b.journal.entries ++ [⟨b.journal.nextIdx, tag⟩])).toJson.pretty = .ok d') :
    load d' = .ok (b.withEntry tag sql) := by
  have above := (lt_nextIdx_iff (load_ascends h)).mpr room
  obtain ⟨hroot, journal, hjournal, hmore, apart⟩ := load_eq_ok_iff.mp h
  obtain ⟨q, hplace, hnode, rfl⟩ := write_put hwrite
  obtain rfl := place_journal hplace
  have hscripts : ∀ tag, d.place (scriptPath tag) ≠ .ok ["meta", journalName] := fun tag hscript =>
    place_script_ne (by decide) hscript rfl
  have hroot' := hasFolder_root_iff.mp hroot
  have hentries := journal_entries hmore
  -- The journal was in order, and the new entry is above all of it.
  have hsorted : (Journal.mk (b.journal.entries ++ [⟨b.journal.nextIdx, tag⟩])).sorted
      = ⟨b.journal.entries ++ [⟨b.journal.nextIdx, tag⟩]⟩ := by
    refine Journal.sorted_self (List.pairwise_append.mpr ⟨?_, List.pairwise_singleton _ _, ?_⟩)
    · rw [hentries]
      exact readJournal_ascends hjournal
    · intro e he e' he'
      cases List.mem_singleton.mp he'
      obtain ⟨m, hm, rfl⟩ := List.mem_map.mp he
      exact UInt32.le_of_lt (above m hm)
  refine load_eq_ok_iff.mpr ⟨hasFolder_root_iff.mpr ?_, _, readJournal_eq_ok_iff.mpr
    ⟨_, _, read_file (place_put hplace hnode _) ?_, Journal.decode_pretty _, hsorted.symm⟩, ?_,
    List.pairwise_append.mpr ⟨apart, List.pairwise_singleton _ _, ?_⟩⟩
  · rw [node?_put, if_neg (by simp), hroot']
  · rw [node?_put, if_pos rfl]
  · rw [hentries]
    exact List.rel_append (ofEntries_put hmore hnode (fun m _ => hscripts m.tag) _)
      (.cons ⟨rfl, rfl, read_put hread hnode (hscripts tag) _⟩ .nil)
  · intro m hm n hn
    cases List.mem_singleton.mp hn
    exact ⟨UInt32.ne_of_lt (above m hm), hnew m hm⟩

end Steps

/-- What is planned in a directory with a journal takes the next number of the journal. -/
theorem plan_eq_some (h : plan d name s = .ok (some p)) (hjournal : readJournal d = .ok journal) :
    p.journal = journal ∧ p.idx = journal.nextIdx ∧ p.tag = tagOf journal.nextIdx (slug name) := by
  have hin : isIn d = true := by
    obtain ⟨text, -, hread, -⟩ := readJournal_eq_ok_iff.mp hjournal
    rw [isIn, hasFile, hread]
    rfl
  have husable : (slug name).isEmpty = false := by
    rw [← Bool.not_eq_true]
    intro hunusable
    rw [plan_unusable hunusable] at h
    cases h
  cases hknown : latestSnapshot d journal with
  | error e =>
    unfold plan at h
    simp only [husable, hin, hjournal, hknown, Bool.false_eq_true, if_false, if_true, pure,
      Except.pure, bind, Except.bind] at h
    cases h
  | ok known =>
    rw [plan_known husable (fun _ => hjournal) (fun hout => by rw [hin] at hout; cases hout) hknown]
      at h
    split at h
    next => cases h
    next =>
      cases h
      exact ⟨rfl, rfl, rfl⟩

/-- Writing a migration in a directory with the folder of the journal stops in front of the script,
of the schema or of the journal, or goes through. -/
theorem Plan.write_cases (hd : d.HasFolders) (h : p.write d s = (answer, d')) :
    (d' = d ∧ ∃ e, answer = .error e)
      ∨ d.has (scriptPath p.tag) = false
        ∧ ∃ d₁, d.write (scriptPath p.tag) p.difference.toSql = .ok d₁
          ∧ ((d' = d₁ ∧ ∃ e, answer = .error e)
            ∨ ∃ d₂, d₁.write (snapshotPath p.tag) s.toJson.pretty = .ok d₂
              ∧ ((d' = d₂ ∧ ∃ e, answer = .error e)
                ∨ d₂.write journalPath
                    (Journal.mk (p.journal.entries ++ [⟨p.idx, p.tag⟩])).toJson.pretty = .ok d'
                  ∧ answer = .ok ⟨p.tag, p.difference.warnings⟩)) := by
  rw [Plan.write, hd.makeFolder] at h
  dsimp only at h
  cases hhas : d.has (scriptPath p.tag) with
  | true =>
    rw [hhas] at h
    cases h
    exact .inl ⟨rfl, _, rfl⟩
  | false =>
    rw [hhas, if_neg Bool.false_ne_true, Plan.files, writeAll] at h
    cases h₁ : d.write (scriptPath p.tag) p.difference.toSql with
    | error fault =>
      rw [h₁] at h
      cases h
      exact .inl ⟨rfl, _, rfl⟩
    | ok d₁ =>
      refine .inr ⟨rfl, d₁, rfl, ?_⟩
      rw [h₁] at h
      dsimp only at h
      rw [writeAll] at h
      cases h₂ : d₁.write (snapshotPath p.tag) s.toJson.pretty with
      | error fault =>
        rw [h₂] at h
        cases h
        exact .inl ⟨rfl, _, rfl⟩
      | ok d₂ =>
        refine .inr ⟨d₂, rfl, ?_⟩
        rw [h₂] at h
        dsimp only at h
        rw [writeAll] at h
        cases h₃ : d₂.write journalPath
            (Journal.mk (p.journal.entries ++ [⟨p.idx, p.tag⟩])).toJson.pretty with
        | error fault =>
          rw [h₃] at h
          cases h
          exact .inl ⟨rfl, _, rfl⟩
        | ok d₃ =>
          rw [h₃] at h
          dsimp only at h
          rw [writeAll] at h
          cases h
          exact .inr ⟨rfl, rfl⟩

/-- What is written behind a bundle is loaded at its end, as long as there is a number for it; a
failure leaves the bundle as it is. -/
theorem write_load (h : load d = .ok b) (hplan : plan d name s = .ok (some p))
    (hwrite : p.write d s = (answer, d')) :
    ((∃ e, answer = .error e) ∧ load d' = .ok b)
      ∨ ∃ m, answer = .ok m ∧ ((∀ m ∈ b.migrations, m.idx.toNat + 1 < UInt32.size) →
        load d' = .ok (b.withEntry m.tag p.difference.toSql)) := by
  obtain ⟨-, journal, hjournal, hmore, -⟩ := load_eq_ok_iff.mp h
  obtain ⟨rfl, hidx, htag⟩ := plan_eq_some hplan hjournal
  have hsame : b.journal = p.journal := congrArg Journal.mk (journal_entries hmore)
  have hfolders : d.HasFolders := by
    obtain ⟨text, -, hread, -⟩ := readJournal_eq_ok_iff.mp hjournal
    obtain ⟨q, hplace, -⟩ := read_ok hread
    rw [journalPath_eq] at hplace
    exact (place_metaPath_folders journalName_isFileName.toIsName hplace).1
  rcases Plan.write_cases hfolders hwrite with ⟨rfl, hfailed⟩ | ⟨hfree, d₁, hscript, hrest⟩
  · exact .inl ⟨hfailed, h⟩
  have hnew : ∀ m ∈ b.migrations, m.tag ≠ p.tag := by
    intro m hm htags
    rw [← htags, has_of_read (read_script hmore hm)] at hfree
    cases hfree
  rw [hidx, htag, ← hsame] at hrest
  rw [htag, ← hsame] at hfree hscript hnew
  obtain ⟨h₁, hread₁⟩ := load_script h hfree hscript
  rcases hrest with ⟨rfl, hfailed⟩ | ⟨d₂, hschema, hrest⟩
  · exact .inl ⟨hfailed, h₁⟩
  obtain ⟨h₂, hread₂⟩ := load_snapshot h₁ hread₁ hschema
  rcases hrest with ⟨rfl, hfailed⟩ | ⟨hlast, rfl⟩
  · exact .inl ⟨hfailed, h₂⟩
  exact .inr ⟨_, rfl, fun room => load_journal h₂ room hread₂ hnew hlast⟩

theorem generate_load (h : load d = .ok b)
    {outcome : Except MigrationError (Option GeneratedMigration)}
    (hgenerate : generate d name s = (outcome, d')) :
    ((∀ m, outcome ≠ .ok (some m)) ∧ load d' = .ok b)
      ∨ ∃ m, outcome = .ok (some m) ∧ ((∀ m ∈ b.migrations, m.idx.toNat + 1 < UInt32.size) →
        ∃ sql, load d' = .ok (b.withEntry m.tag sql)) := by
  rw [generate] at hgenerate
  cases hplan : plan d name s with
  | error e =>
    rw [hplan] at hgenerate
    cases hgenerate
    exact .inl ⟨by simp, h⟩
  | ok planned =>
    cases planned with
    | none =>
      rw [hplan] at hgenerate
      cases hgenerate
      exact .inl ⟨by simp, h⟩
    | some p =>
      rw [hplan] at hgenerate
      dsimp only at hgenerate
      cases hwrite : p.write d s with
      | mk answer d₁ =>
        rw [hwrite] at hgenerate
        rcases write_load h hplan hwrite with ⟨⟨e, rfl⟩, hkept⟩ | ⟨m, rfl, hadded⟩
        · cases hgenerate
          exact .inl ⟨by simp, hkept⟩
        · cases hgenerate
          exact .inr ⟨m, rfl, fun room => ⟨_, hadded room⟩⟩

/-- Whatever the order of a journal is, a directory is loaded as its entries with their scripts, the
numbers ascending and the tags distinct, and what is generated takes the number behind the last one.
That number is above all others, and what is generated is loaded at the end of the bundle, exactly
when no number is the largest one. -/
theorem load_continues_iff (h : load d = .ok b) :
    Journaled d b ∧ b.Ascends ∧ (b.migrations.map (·.tag)).Nodup
      ∧ (∀ name s p, plan d name s = .ok (some p) → p.idx = b.journal.nextIdx)
      ∧ (∀ name s, (∀ m, (generate d name s).1 ≠ .ok (some m)) →
        load (generate d name s).2 = .ok b)
      ∧ (Continues d b ↔ ∀ m ∈ b.migrations, m.idx.toNat + 1 < UInt32.size) := by
  have ascends := load_ascends h
  refine ⟨journaled_of_load h, ascends, ?_, fun name s p hplan => ?_, fun name s hnone => ?_,
    fun hcontinues => (lt_nextIdx_iff ascends).mp hcontinues.above, fun room => ?_⟩
  · obtain ⟨-, journal, -, -, apart⟩ := load_eq_ok_iff.mp h
    exact List.pairwise_map.mpr (apart.imp And.right)
  · obtain ⟨-, journal, hjournal, hmore, -⟩ := load_eq_ok_iff.mp h
    have hentries : b.journal = journal := congrArg Journal.mk (journal_entries hmore)
    rw [(plan_eq_some hplan hjournal).2.1, hentries]
  · have hgenerate : generate d name s = ((generate d name s).1, (generate d name s).2) :=
      Prod.mk.eta.symm
    rcases generate_load h hgenerate with ⟨-, hkept⟩ | ⟨m, hadded, -⟩
    · exact hkept
    · exact absurd hadded (hnone m)
  · refine ⟨(lt_nextIdx_iff ascends).mpr room, withEntry_ascends ascends room, ?_⟩
    intro name s m d' hgenerate
    rcases generate_load h hgenerate with ⟨hnone, -⟩ | ⟨_, hadded, hload⟩
    · exact (hnone m rfl).elim
    · cases hadded
      exact hload room

/-- A directory with a journal of two entries and their scripts. -/
def filed (first second : JournalEntry) : Directory where
  root := "migrations"
  nodes := [([], .folder), (["meta"], .folder),
    (["meta", journalName], .file (Journal.mk [first, second]).toJson.pretty),
    ([scriptPath first.tag], .file "SELECT 1"), ([scriptPath second.tag], .file "SELECT 2")]

theorem readJournal_filed (first second : JournalEntry) :
    readJournal (filed first second) = .ok (Journal.mk [first, second]).sorted := by
  have hfolders : (filed first second).HasFolders := ⟨rfl, rfl⟩
  have hread : (filed first second).read journalPath
      = .ok (Journal.mk [first, second]).toJson.pretty := by
    rw [journalPath_eq]
    exact read_file (place_meta journalName_isFileName hfolders) rfl
  exact readJournal_eq_ok_iff.mpr ⟨_, _, hread, Journal.decode_pretty _, rfl⟩

/-- A journal out of order, with gaps in its numbers, is loaded in order and can be continued. -/
theorem load_continues_iff_unordered :
    load (filed ⟨7, "late"⟩ ⟨2, "early"⟩)
        = .ok ⟨[⟨2, "early", "SELECT 2"⟩, ⟨7, "late", "SELECT 1"⟩]⟩
      ∧ Continues (filed ⟨7, "late"⟩ ⟨2, "early"⟩)
        ⟨[⟨2, "early", "SELECT 2"⟩, ⟨7, "late", "SELECT 1"⟩]⟩ := by
  have hsorted : (Journal.mk [⟨7, "late"⟩, ⟨2, "early"⟩]).sorted
      = ⟨[⟨2, "early"⟩, ⟨7, "late"⟩]⟩ := by
    simp [Journal.sorted, List.mergeSort]
  have hload : load (filed ⟨7, "late"⟩ ⟨2, "early"⟩)
      = .ok ⟨[⟨2, "early", "SELECT 2"⟩, ⟨7, "late", "SELECT 1"⟩]⟩ :=
    load_eq_ok_iff.mpr ⟨by decide, _, readJournal_filed _ _, by
      rw [hsorted]
      exact .cons ⟨rfl, rfl, by decide⟩ (.cons ⟨rfl, rfl, by decide⟩ .nil), by
      simp [Apart]⟩
  exact ⟨hload, (load_continues_iff hload).2.2.2.2.2.mpr (by decide)⟩

/-- A journal whose last entry has the largest number is loaded. What comes next takes the number 0,
which an entry has, and is not in order at the end of the bundle. -/
theorem exhausted_not_continued :
    load (filed ⟨0, "0000_a"⟩ ⟨4294967295, "z"⟩)
        = .ok ⟨[⟨0, "0000_a", "SELECT 1"⟩, ⟨4294967295, "z", "SELECT 2"⟩]⟩
      ∧ (MigrationBundle.mk [⟨0, "0000_a", "SELECT 1"⟩,
          ⟨4294967295, "z", "SELECT 2"⟩]).journal.nextIdx = 0
      ∧ ¬ ((MigrationBundle.mk [⟨0, "0000_a", "SELECT 1"⟩,
          ⟨4294967295, "z", "SELECT 2"⟩]).withEntry "0000_b" "SELECT 3").Ascends
      ∧ ∀ name s p, plan (filed ⟨0, "0000_a"⟩ ⟨4294967295, "z"⟩) name s = .ok (some p) →
        p.idx = 0 := by
  have hsorted : (Journal.mk [⟨0, "0000_a"⟩, ⟨4294967295, "z"⟩]).sorted
      = ⟨[⟨0, "0000_a"⟩, ⟨4294967295, "z"⟩]⟩ :=
    Journal.sorted_self (by simp)
  refine ⟨load_eq_ok_iff.mpr ⟨by decide, _, readJournal_filed _ _, ?_, ?_⟩, rfl, ?_,
    fun name s p hplan => ?_⟩
  · rw [hsorted]
    exact .cons ⟨rfl, rfl, by decide⟩ (.cons ⟨rfl, rfl, by decide⟩ .nil)
  · simp [Apart]
  · rw [Ascends]
    decide
  · rw [(plan_eq_some hplan (readJournal_filed _ _)).2.1, hsorted]
    rfl

end MigrationBundle

end Tabularium
