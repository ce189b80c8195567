import Tabularium.Proofs.Migration.BundleOrder
import Tabularium.Proofs.Migration.Tag
import Tabularium.Proofs.Schema.Snapshot

namespace Tabularium

open Draft Json

theorem JournalEntry.read_toJson (e : JournalEntry) :
    JournalEntry.read e.toJson.reread = .ok e :=
  Fills.asRecord (.given (storing_ok (asWord_ok (uint32?_toNat _)) _)
    (.given (storing_ok (asText_reread _) _) (.done _))) (by decide)

theorem JournalEntry.toJson_readable (e : JournalEntry) {level : Nat} (hl : level < depthLimit) :
    Readable level e.toJson := by
  have hidx := e.idx.toNat_lt
  refine .record level _ hl ?_
  simp only [List.forall_mem_cons, List.not_mem_nil, false_implies, implies_true, and_true]
  exact ⟨.int _ _ (by omega) (by omega), .text _ _⟩

/-- A journal is read from its text. -/
theorem Journal.decode_pretty (j : Journal) :
    Draft.decode Journal.read j.toJson.pretty = .ok j := by
  have hlimit : depthLimit = 128 := rfl
  have hentries := asList_map JournalEntry.read JournalEntry.toJson (fun e => e)
    fun e (_ : e ∈ j.entries) => e.read_toJson
  rw [List.map_id'] at hentries
  have hread : Journal.read j.toJson.reread = .ok j :=
    Fills.asRecord (.given (storing_ok hentries _) (.done _)) (by decide)
  have hreadable : Readable 1 j.toJson := by
    refine .record 1 _ (by omega) ?_
    simp only [List.forall_mem_cons, List.not_mem_nil, false_implies, implies_true, and_true]
    exact map_readable (by omega) fun e _ => e.toJson_readable (by omega)
  rw [Draft.decode_pretty Journal.read hreadable, hread]

/-- A migration that was generated for a schema. -/
structure Generated where
  idx : UInt32
  name : String
  schema : Schema
  difference : Difference

namespace Generated

open MigrationBundle

def tag (g : Generated) : String := tagOf g.idx (slug g.name)

/-- The line of the journal for the migration. -/
def entry (g : Generated) : JournalEntry := ⟨g.idx, g.tag⟩

def migration (g : Generated) : Migration := ⟨g.idx, g.tag, g.difference.toSql⟩

end Generated

namespace MigrationBundle

open Directory

/-- The journal of migrations that were generated one after the other. -/
def journalOf (log : List Generated) : Journal := ⟨log.map Generated.entry⟩

/-- What is known of the schema that the last of them leads to. -/
def knownOf (log : List Generated) : Option Schema :=
  log.getLast?.map fun g => g.schema.readBack

/-- How a migration is written behind others. -/
def planOf (log : List Generated) (g : Generated) : Plan :=
  ⟨journalOf log, g.idx, g.tag, g.difference⟩

/-- The schema that the next difference is measured from, under a name when there is none. -/
def baseOf (log : List Generated) (name : String) : Schema :=
  (knownOf log).getD (.empty name)

theorem baseOf_snoc (log : List Generated) (g : Generated) (name : String) :
    baseOf (log ++ [g]) name = g.schema.readBack := by
  unfold baseOf knownOf
  rw [List.getLast?_concat]
  rfl

theorem baseOf_tables (log : List Generated) (name name' : String) :
    (baseOf log name).tables = (baseOf log name').tables := by
  unfold baseOf
  cases knownOf log <;> rfl

/-- The migration that leads to a schema behind others. -/
def nextOf (log : List Generated) (name : String) (s : Schema) : Generated :=
  ⟨(journalOf log).nextIdx, name, s, Difference.between ((knownOf log).getD (.empty s.name)) s⟩

/-- The migration that is added for a schema, none when the schema is reached. -/
def added (log : List Generated) (name : String) (s : Schema) : List Generated :=
  if (nextOf log name s).difference.isEmpty then [] else [nextOf log name s]

def addedAll (log : List Generated) : List (String × Schema) → List Generated
  | [] => []
  | (name, s) :: steps =>
    added log name s ++ addedAll (log ++ added log name s) steps

/-- Generates a migration for each of the schemas, up to the first failure. -/
def generateAll (d : Directory) : List (String × Schema) → Except MigrationError Directory
  | [] => .ok d
  | (name, s) :: steps =>
    match generate d name s with
    | (.error e, _) => .error e
    | (.ok _, d) => generateAll d steps

/-- The difference that the next migration is written from, none when the schema is reached. -/
def plannedNext (d : Directory) (name : String) (s : Schema) : List Difference :=
  match plan d name s with
  | .ok (some p) => [p.difference]
  | _ => []

/-- The differences that migrations for schemas are written from. -/
def planned (d : Directory) : List (String × Schema) → List Difference
  | [] => []
  | (name, s) :: steps => plannedNext d name s ++ planned (generate d name s).2 steps

/-- The call gives a migration that it wrote. -/
def writes (d : Directory) (name : String) (s : Schema) : Bool :=
  match (generate d name s).1 with
  | .ok (some _) => true
  | _ => false

/-- Those of the calls that write a migration. -/
def written (d : Directory) : List (String × Schema) → List (String × Schema)
  | [] => []
  | (name, s) :: steps =>
    (if writes d name s then [(name, s)] else []) ++ written (generate d name s).2 steps

/-- A directory has the files of migrations that were generated one after the other, and room for
the next one. -/
structure Holds (d : Directory) (log : List Generated) : Prop where
  room : ∀ g ∈ log, HasRoom g.idx g.name
  finite : ∀ g ∈ log, g.schema.FiniteDefaults
  numbered : log.map (·.idx.toNat) = List.range log.length
  blank : log = [] → d.Blank
  folders : log ≠ [] → d.HasFolders
  journal : log ≠ [] → d.node? ["meta", journalName] = some (.file (journalOf log).toJson.pretty)
  snapshots : ∀ g ∈ log,
    d.node? ["meta", snapshotName g.tag] = some (.file g.schema.toJson.pretty)
  files : ∀ name, d.node? ["meta", name] ≠ some .folder
  scripts : ∀ g ∈ log, d.node? [scriptPath g.tag] = some (.file g.difference.toSql)
  others : ∀ name, d.node? [name] ≠ none → name = "meta" ∨ ∃ g ∈ log, name = scriptPath g.tag

/-- What is planned from a journal and the schema that its latest entry leads to. -/
theorem plan_known {d : Directory} {name : String} {s : Schema} {journal : Journal}
    {known : Option Schema} (hn : (slug name).isEmpty = false)
    (hjournal : isIn d = true → readJournal d = .ok journal)
    (hnone : isIn d = false → journal = {}) (hknown : latestSnapshot d journal = .ok known) :
    plan d name s = .ok (
      if (Difference.between (known.getD (.empty s.name)) s).isEmpty then none
      else some ⟨journal, journal.nextIdx, tagOf journal.nextIdx (slug name),
        .between (known.getD (.empty s.name)) s⟩) := by
  unfold plan
  cases hin : isIn d with
  | false =>
    rw [hnone hin] at hknown ⊢
    simp only [hn, Bool.false_eq_true, if_false, pure, Except.pure, bind, Except.bind, hknown]
    split <;> rfl
  | true =>
    simp only [hn, Bool.false_eq_true, if_false, if_true, pure, Except.pure, bind, Except.bind,
      hjournal hin, hknown]
    split <;> rfl

theorem plan_unusable {d : Directory} {name : String} {s : Schema}
    (hn : (slug name).isEmpty = true) :
    plan d name s = .error (.invalidBundle d.root (.unusableName name)) := by
  unfold plan
  rw [hn]
  rfl

namespace Holds

variable {d : Directory} {log : List Generated} {name : String} {s : Schema}

theorem of_blank (h : d.Blank) : Holds d [] := by
  refine ⟨by simp, by simp, rfl, fun _ => h, by simp, by simp, by simp, ?_, by simp, ?_⟩
  · intro name
    rw [h.node?_eq_none (by simp)]
    simp
  · intro name hn
    exact absurd (h.node?_eq_none (by simp)) hn

theorem read_blank (h : d.Blank) : (d.read journalPath).isOk = false := by
  obtain ⟨root, nodes⟩ := d
  rcases h with rfl | rfl <;> rfl

theorem read_journal (h : Holds d log) (hne : log ≠ []) :
    d.read journalPath = .ok (journalOf log).toJson.pretty := by
  rw [journalPath_eq]
  exact read_file (place_meta journalName_isFileName (h.folders hne)) (h.journal hne)

theorem isIn_eq (h : Holds d log) : isIn d = !log.isEmpty := by
  unfold isIn Directory.hasFile
  by_cases hne : log = []
  · rw [read_blank (h.blank hne), hne]
    rfl
  · rw [h.read_journal hne]
    cases log with
    | nil => exact absurd rfl hne
    | cons => rfl

theorem idx_pairwise (h : Holds d log) : log.Pairwise fun a b => a.idx.toNat < b.idx.toNat := by
  have hrange : (log.map (·.idx.toNat)).Pairwise (· < ·) := by
    rw [h.numbered]
    exact List.pairwise_lt_range
  exact List.pairwise_map.mp hrange

theorem readJournal_eq (h : Holds d log) (hne : log ≠ []) :
    readJournal d = .ok (journalOf log) := by
  have hsorted : (journalOf log).sorted = journalOf log := by
    refine Journal.sorted_self (List.pairwise_map.mpr (h.idx_pairwise.imp fun hlt => ?_))
    exact UInt32.le_iff_toNat_le.mpr (Nat.le_of_lt hlt)
  exact readJournal_eq_ok_iff.mpr
    ⟨_, _, h.read_journal hne, Journal.decode_pretty _, hsorted.symm⟩

theorem read_script (h : Holds d log) {g : Generated} (hg : g ∈ log) :
    d.read (scriptPath g.tag) = .ok g.difference.toSql := by
  have hplace := place_name (h.room g hg).script (h.folders (List.ne_nil_of_mem hg)).root
  exact read_file hplace (h.scripts g hg)

theorem read_snapshot (h : Holds d log) {g : Generated} (hg : g ∈ log) :
    d.read (snapshotPath g.tag) = .ok g.schema.toJson.pretty := by
  have hplace := place_meta (h.room g hg).snapshot (h.folders (List.ne_nil_of_mem hg))
  exact read_file hplace (h.snapshots g hg)

theorem findSnapshot_cons {e : JournalEntry} {es : List JournalEntry} {text : String}
    (hread : d.read (snapshotPath e.tag) = .ok text)
    (hdecode : Draft.decode Schema.read text = .ok s) :
    findSnapshot d (e :: es) = .ok (some s) := by
  unfold findSnapshot
  rw [hread]
  dsimp only
  rw [hdecode]

theorem latestSnapshot_eq (h : Holds d log) :
    latestSnapshot d (journalOf log) = .ok (knownOf log) := by
  rcases List.eq_nil_or_concat' log with rfl | ⟨front, g, rfl⟩
  · rfl
  · have hne : front ++ [g] ≠ [] := by simp
    have hread := h.read_snapshot (List.mem_append_right front (List.mem_singleton_self g))
    have hdecode := Schema.decode_pretty (h.finite g (by simp))
    unfold latestSnapshot journalOf knownOf
    simp only [List.map_append, List.map_cons, List.map_nil, List.reverse_append, List.reverse_cons,
      List.reverse_nil, List.nil_append, List.singleton_append, List.getLast?_append,
      List.getLast?_singleton]
    rw [findSnapshot_cons (e := g.entry) hread hdecode]
    rfl

theorem nextIdx_eq (h : Holds d log) (hfew : log.length < 2 ^ 32) :
    (journalOf log).nextIdx.toNat = log.length := by
  unfold Journal.nextIdx journalOf
  dsimp only
  rcases List.eq_nil_or_concat' log with rfl | ⟨front, g, rfl⟩
  · rfl
  · have hnumbered := h.numbered
    rw [List.map_append, List.length_append, List.length_singleton, List.range_succ] at hnumbered
    have hidx : g.idx.toNat = front.length := by
      have := (List.append_inj' hnumbered rfl).2
      simpa using this
    rw [List.length_append, List.length_singleton] at hfew
    rw [List.map_append, List.getLast?_append]
    have hadd : (g.idx + 1).toNat = g.idx.toNat + 1 := by
      rw [UInt32.toNat_add]
      have hone : (1 : UInt32).toNat = 1 := rfl
      omega
    rw [List.length_append, List.length_singleton, ← hidx, ← hadd]
    rfl

/-- The next migration is planned from what is known of the last one. -/
theorem plan_eq (h : Holds d log) (hn : (slug name).isEmpty = false) :
    plan d name s = .ok (
      if (nextOf log name s).difference.isEmpty then none
      else some (planOf log (nextOf log name s))) := by
  refine plan_known hn (fun hin => h.readJournal_eq ?_) (fun hin => ?_) h.latestSnapshot_eq
  · rintro rfl
    rw [h.isIn_eq] at hin
    cases hin
  · rw [h.isIn_eq, Bool.not_eq_false', List.isEmpty_iff] at hin
    rw [hin]
    rfl

theorem idx_lt (h : Holds d log) {g : Generated} (hg : g ∈ log) : g.idx.toNat < log.length := by
  rw [← List.mem_range, ← h.numbered]
  exact List.mem_map_of_mem hg

theorem script_free (h : Holds d log) {g : Generated} (hidx : g.idx.toNat = log.length) :
    d.node? [scriptPath g.tag] = none := by
  by_contra hn
  rcases h.others _ hn with hmeta | ⟨g', hg', hsame⟩
  · exact scriptPath_ne_meta _ _ hmeta
  · have hsame : g.idx = g'.idx := tagOf_inj (append_right_inj hsame)
    have hlt := h.idx_lt hg'
    rw [← hsame, hidx] at hlt
    exact Nat.lt_irrefl _ hlt

theorem folders_or (h : Holds d log) :
    (d.node? [] = none ∨ d.node? [] = some .folder)
      ∧ (d.node? ["meta"] = none ∨ d.node? ["meta"] = some .folder) := by
  by_cases hne : log = []
  · exact ⟨(h.blank hne).root, .inl ((h.blank hne).node?_eq_none (by simp))⟩
  · exact ⟨.inr (h.folders hne).root, .inr (h.folders hne).middle⟩

/-- What stands in a directory behind the next migration. -/
theorem snoc {d' : Directory} (h : Holds d log) {g : Generated} (hroom : HasRoom g.idx g.name)
    (hf : g.schema.FiniteDefaults) (hidx : g.idx.toNat = log.length) (hfolders : d'.HasFolders)
    (hnode : ∀ q, q ≠ [] → q ≠ ["meta"] → d'.node? q =
      if q = ["meta", journalName] then some (.file (journalOf (log ++ [g])).toJson.pretty)
      else if q = ["meta", snapshotName g.tag] then some (.file g.schema.toJson.pretty)
      else if q = [scriptPath g.tag] then some (.file g.difference.toSql)
      else d.node? q) : Holds d' (log ++ [g]) := by
  refine
    { room := ?room, finite := ?finite, numbered := ?numbered, blank := by simp,
      folders := fun _ => hfolders, journal := fun _ => ?journal, snapshots := ?snapshots,
      files := ?files, scripts := ?scripts, others := ?others }
  case room =>
    exact List.forall_mem_append.mpr ⟨h.room, by simpa using hroom⟩
  case finite =>
    exact List.forall_mem_append.mpr ⟨h.finite, by simpa using hf⟩
  case numbered =>
    rw [List.map_append, h.numbered, List.length_append, List.length_singleton, List.range_succ,
      List.map_singleton, hidx]
  case journal =>
    rw [hnode _ (by simp) (by simp), if_pos rfl]
  case snapshots =>
    intro g' hg'
    have hjournal : snapshotName g'.tag ≠ journalName := snapshotName_ne_journal _ _
    rw [hnode _ (by simp) (by simp), if_neg (by simpa using hjournal)]
    rcases List.mem_append.mp hg' with hg' | hg'
    · -- the tags start with different numbers
      have hother : snapshotName g'.tag ≠ snapshotName g.tag := by
        intro hsame
        have hlt := h.idx_lt hg'
        rw [tagOf_inj (append_right_inj hsame), hidx] at hlt
        exact Nat.lt_irrefl _ hlt
      rw [if_neg (by simpa using hother), if_neg (by simp), h.snapshots g' hg']
    · cases List.mem_singleton.mp hg'
      rw [if_pos rfl]
  case files =>
    intro name
    rw [hnode _ (by simp) (by simp)]
    split
    · simp
    · split
      · simp
      · rw [if_neg (by simp)]
        exact h.files name
  case scripts =>
    intro g' hg'
    have hmeta : scriptPath g'.tag ≠ "meta" := scriptPath_ne_meta _ _
    rw [hnode _ (by simp) (by simpa using hmeta), if_neg (by simp), if_neg (by simp)]
    rcases List.mem_append.mp hg' with hg' | hg'
    · rw [if_neg, h.scripts g' hg']
      intro hsame
      have hfree := h.script_free hidx
      rw [← hsame, h.scripts g' hg'] at hfree
      cases hfree
    · cases List.mem_singleton.mp hg'
      rw [if_pos rfl]
  case others =>
    intro name hn
    by_cases hmeta : name = "meta"
    · exact .inl hmeta
    · rw [hnode _ (by simp) (by simpa using hmeta), if_neg (by simp), if_neg (by simp)] at hn
      split at hn
      next hscript => exact .inr ⟨g, by simp, (List.cons.inj hscript).1⟩
      next =>
        rcases h.others name hn with hmeta | ⟨g', hg', hsame⟩
        · exact .inl hmeta
        · exact .inr ⟨g', List.mem_append_left _ hg', hsame⟩

theorem scriptPlace_ne_meta (g : Generated) : [scriptPath g.tag] ≠ ["meta"] := by
  intro he
  exact scriptPath_ne_meta _ _ (List.cons.inj he).1

/-- The script of the next migration can be written, unless its name is too long. -/
theorem script_written (h : Holds d log) {g : Generated} (hidx : g.idx.toNat = log.length)
    (hscript : IsFileName (scriptPath g.tag)) :
    ∃ d₁, d.makeFolder "meta" = .ok d₁ ∧ d₁.HasFolders ∧ d₁.has (scriptPath g.tag) = false
      ∧ d₁.write (scriptPath g.tag) g.difference.toSql
          = .ok (d₁.put [scriptPath g.tag] (.file g.difference.toSql))
      ∧ ∀ q, q ≠ [] → q ≠ ["meta"] → d₁.node? q = d.node? q := by
  obtain ⟨d₁, hmake, hfolders, hsame⟩ := makeFolder_meta h.folders_or.1 h.folders_or.2
  have hfree : d₁.node? [scriptPath g.tag] = none := by
    rw [hsame _ (by simp) (scriptPlace_ne_meta g), h.script_free hidx]
  have hplace := place_name hscript hfolders.root
  refine ⟨d₁, hmake, hfolders, has_none hplace hfree, write_file hplace ?_, hsame⟩
  rw [hfree]
  simp

/-- The next migration is written behind the others. -/
theorem write_eq (h : Holds d log) {g : Generated} (hroom : HasRoom g.idx g.name)
    (hf : g.schema.FiniteDefaults) (hidx : g.idx.toNat = log.length) :
    ∃ d', (planOf log g).write d g.schema = (.ok ⟨g.tag, g.difference.warnings⟩, d')
      ∧ Holds d' (log ++ [g]) := by
  obtain ⟨d₁, hmake, hfolders₁, hhas, hwrite₂, hsame⟩ := h.script_written hidx hroom.script
  -- the script, the schema and the journal are written one after the other
  let d₂ := d₁.put [scriptPath g.tag] (.file g.difference.toSql)
  let d₃ := d₂.put ["meta", snapshotName g.tag] (.file g.schema.toJson.pretty)
  let d₄ := d₃.put ["meta", journalName] (.file (journalOf (log ++ [g])).toJson.pretty)
  have hfolders₂ : d₂.HasFolders := hfolders₁.put (by simp) (scriptPlace_ne_meta g) _
  have hfolders₃ : d₃.HasFolders := hfolders₂.put (by simp) (by simp) _
  have hfolders₄ : d₄.HasFolders := hfolders₃.put (by simp) (by simp) _
  have hwrite₃ : d₂.write (snapshotPath g.tag) g.schema.toJson.pretty = .ok d₃ := by
    refine write_file (place_meta hroom.snapshot hfolders₂) ?_
    rw [node?_put, if_neg (by simp), hsame _ (by simp) (by simp)]
    exact h.files _
  have hwrite₄ : d₃.write journalPath (journalOf (log ++ [g])).toJson.pretty = .ok d₄ := by
    rw [journalPath_eq]
    refine write_file (place_meta journalName_isFileName hfolders₃) ?_
    rw [node?_put]
    split
    · simp
    · rw [node?_put, if_neg (by simp), hsame _ (by simp) (by simp)]
      exact h.files _
  refine ⟨d₄, ?_, h.snoc hroom hf hidx hfolders₄ fun q hq hq' => ?_⟩
  · have hjournal : (Journal.mk ((journalOf log).entries ++ [⟨g.idx, g.tag⟩]))
        = journalOf (log ++ [g]) := by
      unfold journalOf
      rw [List.map_append]
      rfl
    unfold planOf Plan.write Plan.files
    simp only [hmake, hhas, Bool.false_eq_true, if_false, Directory.writeAll, hwrite₂, hwrite₃,
      hjournal, d₂, hwrite₄]
  · simp only [d₄, d₃, d₂, node?_put, hsame q hq hq']

/-- Without room for the names of its files, the next migration is not written. -/
theorem write_unwritable (h : Holds d log) {g : Generated} (hroom : ¬ HasRoom g.idx g.name)
    (hidx : g.idx.toNat = log.length) :
    ((planOf log g).write d g.schema).1 = .error (.unwritable .nameTooLong) := by
  have hlong : nameLimit < (snapshotName g.tag).utf8ByteSize := Nat.lt_of_not_le hroom
  have hname : IsName (scriptPath g.tag) := (scriptPath_isName g.idx g.name).1
  have hname' : IsName (snapshotName g.tag) := (snapshotName_isName g.idx g.name).1
  by_cases hscript : nameLimit < (scriptPath g.tag).utf8ByteSize
  · obtain ⟨d₁, hmake, hfolders₁, -⟩ := makeFolder_meta h.folders_or.1 h.folders_or.2
    have hplace : d₁.place (scriptPath g.tag) = .error .nameTooLong := by
      rw [place_root hname hfolders₁.root, if_pos hscript]
    unfold planOf Plan.write Plan.files
    simp only [hmake, has_misplaced hplace, Bool.false_eq_true, if_false, Directory.writeAll,
      write_misplaced hplace]
  · have hfits : IsFileName (scriptPath g.tag) := ⟨hname, Nat.le_of_not_lt hscript⟩
    obtain ⟨d₁, hmake, hfolders₁, hhas, hwrite₂, -⟩ := h.script_written hidx hfits
    have hfolders₂ := hfolders₁.put (by simp) (scriptPlace_ne_meta g) (.file g.difference.toSql)
    have hplace : (d₁.put [scriptPath g.tag] (.file g.difference.toSql)).place (snapshotPath g.tag)
        = .error .nameTooLong := by
      rw [snapshotPath_eq, place_metaPath hname' hfolders₂, if_pos hlong]
    unfold planOf Plan.write Plan.files
    simp only [hmake, hhas, Bool.false_eq_true, if_false, Directory.writeAll, hwrite₂,
      write_misplaced hplace]

theorem added_length (log : List Generated) (name : String) (s : Schema) :
    (added log name s).length ≤ 1 := by
  unfold added
  split <;> simp

theorem generate_reached (h : Holds d log) (hn : (slug name).isEmpty = false)
    (hempty : (nextOf log name s).difference.isEmpty = true) :
    generate d name s = (.ok none, d) := by
  unfold generate
  rw [h.plan_eq hn, if_pos hempty]

/-- The next migration is written when the schema is not reached. -/
theorem generate_unreached (h : Holds d log) (hn : (slug name).isEmpty = false)
    (hempty : ¬ (nextOf log name s).difference.isEmpty = true)
    {answer : Except MigrationError GeneratedMigration} {d' : Directory}
    (hwrite : (planOf log (nextOf log name s)).write d (nextOf log name s).schema = (answer, d')) :
    generate d name s = (answer.map some, d') := by
  have hwritten : (planOf log (nextOf log name s)).write d s = (answer, d') := hwrite
  unfold generate
  rw [h.plan_eq hn, if_neg hempty]
  dsimp only
  rw [hwritten]
  cases answer <;> rfl

/-- The next migration is generated, unless the schema is reached. -/
theorem generate_eq (h : Holds d log) (hn : (slug name).isEmpty = false)
    (hroom : ∀ g ∈ added log name s, HasRoom g.idx g.name) (hf : s.FiniteDefaults)
    (hfew : log.length + (added log name s).length ≤ 2 ^ 32) :
    plannedNext d name s = (added log name s).map (·.difference)
      ∧ writes d name s = !(nextOf log name s).difference.isEmpty
      ∧ ∃ m d', generate d name s = (.ok m, d') ∧ Holds d' (log ++ added log name s) := by
  unfold plannedNext writes
  by_cases hempty : (nextOf log name s).difference.isEmpty = true
  · have hnone : added log name s = [] := if_pos hempty
    rw [h.generate_reached hn hempty, h.plan_eq hn, if_pos hempty, hnone, List.append_nil, hempty]
    exact ⟨rfl, rfl, none, d, rfl, h⟩
  · have hone : added log name s = [nextOf log name s] := if_neg hempty
    rw [hone, List.length_singleton] at hfew
    rw [hone] at hroom ⊢
    obtain ⟨d', hwrite, hd'⟩ := h.write_eq (g := nextOf log name s)
      (hroom _ (List.mem_singleton_self _)) hf (h.nextIdx_eq (by omega))
    rw [h.generate_unreached hn hempty hwrite, h.plan_eq hn, if_neg hempty,
      eq_false_of_ne_true hempty]
    exact ⟨rfl, rfl, some _, d', rfl, hd'⟩

/-- A call that writes stands for the migration that is added. -/
theorem calls_eq (hwrites : writes d name s = !(nextOf log name s).difference.isEmpty) :
    (if writes d name s then [(name, s)] else [])
      = (added log name s).map (fun g => (g.name, g.schema)) := by
  rw [hwrites]
  unfold added
  cases (nextOf log name s).difference.isEmpty <;> rfl

theorem generateAll_eq {steps : List (String × Schema)} :
    ∀ {d : Directory} {log : List Generated}, Holds d log →
      (∀ step ∈ steps, (slug step.1).isEmpty = false) →
      (∀ step ∈ steps, step.2.FiniteDefaults) →
      (∀ g ∈ addedAll log steps, HasRoom g.idx g.name) →
      log.length + (addedAll log steps).length ≤ 2 ^ 32 →
      planned d steps = (addedAll log steps).map (·.difference)
        ∧ written d steps = (addedAll log steps).map (fun g => (g.name, g.schema))
        ∧ ∃ d', generateAll d steps = .ok d' ∧ Holds d' (log ++ addedAll log steps) := by
  induction steps with
  | nil =>
    intro d log h _ _ _ _
    exact ⟨rfl, rfl, d, rfl, by rwa [addedAll, List.append_nil]⟩
  | cons step steps ih =>
    intro d log h hn hf hroom hfew
    obtain ⟨name, s⟩ := step
    rw [List.forall_mem_cons] at hn hf
    dsimp only at hn hf
    rw [addedAll] at hroom hfew ⊢
    rw [List.forall_mem_append] at hroom
    rw [List.length_append] at hfew
    have hfew₀ : log.length + (added log name s).length ≤ 2 ^ 32 := by omega
    obtain ⟨hnext, hwrites, m, d₁, hgenerate, h₁⟩ := h.generate_eq hn.1 hroom.1 hf.1 hfew₀
    have hfew₁ : (log ++ added log name s).length
        + (addedAll (log ++ added log name s) steps).length ≤ 2 ^ 32 := by
      rw [List.length_append]
      omega
    obtain ⟨hplanned, hwritten, d₂, hall, h₂⟩ := ih h₁ hn.2 hf.2 hroom.2 hfew₁
    refine ⟨?_, ?_, d₂, ?_, ?_⟩
    · rw [planned, hgenerate, hnext, hplanned, List.map_append]
    · rw [written, hgenerate, calls_eq hwrites, hwritten, List.map_append]
    · rw [generateAll, hgenerate]
      exact hall
    · rwa [← List.append_assoc]

theorem addedAll_length_le (log : List Generated) (steps : List (String × Schema)) :
    (addedAll log steps).length ≤ steps.length := by
  induction steps generalizing log with
  | nil => exact Nat.le_refl 0
  | cons step steps ih =>
    have hone := added_length log step.1 step.2
    have hrest := ih (log ++ added log step.1 step.2)
    rw [addedAll, List.length_append, List.length_cons]
    omega

/-- A migration that is added is one for a step. -/
theorem mem_addedAll {steps : List (String × Schema)} {g : Generated} :
    ∀ {log}, g ∈ addedAll log steps → (g.name, g.schema) ∈ steps := by
  induction steps with
  | nil =>
    intro log hg
    cases hg
  | cons step steps ih =>
    intro log hg
    rw [addedAll] at hg
    rcases List.mem_append.mp hg with hg | hg
    · unfold added at hg
      split at hg
      next => cases hg
      next =>
        cases List.mem_singleton.mp hg
        exact List.mem_cons_self
    · exact List.mem_cons_of_mem _ (ih hg)

/-- Under short names, migrations are generated in a blank directory one after the other. -/
theorem generateAll_blank {steps : List (String × Schema)} (hd : d.Blank)
    (hu : ∀ step ∈ steps, IsUsable step.1) (hf : ∀ step ∈ steps, step.2.FiniteDefaults)
    (hfew : steps.length ≤ 2 ^ 32) :
    planned d steps = (addedAll [] steps).map (·.difference)
      ∧ written d steps = (addedAll [] steps).map (fun g => (g.name, g.schema))
      ∧ ∃ d', generateAll d steps = .ok d' ∧ Holds d' (addedAll [] steps) := by
  have hroom : ∀ g ∈ addedAll [] steps, HasRoom g.idx g.name := fun g hg =>
    (hu _ (mem_addedAll hg)).hasRoom g.idx
  have hlength := addedAll_length_le [] steps
  exact (of_blank hd).generateAll_eq (fun step hstep => (hu step hstep).nonempty) hf hroom
    (by simpa using hlength.trans hfew)

/-- The migrations that were generated are loaded in order. -/
theorem load_eq (h : Holds d log) (hne : log ≠ []) :
    load d = .ok ⟨log.map Generated.migration⟩ := by
  have hentries : List.Forall₂ (OfEntry d) (journalOf log).entries
      (log.map Generated.migration) := by
    rw [journalOf, List.forall₂_map_left_iff, List.forall₂_map_right_iff, List.forall₂_same]
    exact fun g hg => ⟨rfl, rfl, h.read_script hg⟩
  have apart : (log.map Generated.migration).Pairwise Apart := by
    refine List.pairwise_map.mpr (h.idx_pairwise.imp fun hlt => ?_)
    have hidx := fun he => Nat.ne_of_lt hlt (congrArg UInt32.toNat he)
    exact ⟨hidx, fun htag => hidx (tagOf_inj htag)⟩
  exact load_eq_ok_iff.mpr ⟨hasFolder_root_iff.mpr (h.folders hne).root, _, h.readJournal_eq hne,
    hentries, apart⟩

end Holds

end MigrationBundle

end Tabularium
