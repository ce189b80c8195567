import Tabularium.Proofs.Migration.HistoryTable
import Tabularium.Proofs.Store.Contract

namespace Tabularium

/-- The migrations of a source are those of its bundle, or the one that creates its schema. -/
def MigrationSource.Has : MigrationSource → List Migration → Prop
  | bundle b, migrations => migrations = b.migrations
  | synthesized s, migrations => migrations = [⟨0, "0000_initial", s.toSql⟩]

theorem MigrationSource.has_migrations (source : MigrationSource) :
    source.Has source.migrations := by
  cases source <;> rfl

namespace MigrationHistory

def IsRead (e : Exchange) : Prop :=
  e.call.request = .exec HistoryTable.reading ∧ e.reply.success = true

instance (e : Exchange) : Decidable (IsRead e) :=
  inferInstanceAs (Decidable (_ ∧ _))

/-- The tags in the rows of a reply; a row without one does not count. -/
def replyTags (reply : RowsResult) : List String :=
  (reply.data.getD []).filterMap HistoryTable.tagOf?

def tagsRead (past : List Exchange) : List String :=
  (past.filter fun e => IsRead e).flatMap fun e => replyTags e.reply

/-- The request is the batch of a migration with some reading of the clock. -/
def IsBatch (clock : Nat → Int64) (m : Migration) (request : Request) : Prop :=
  ∃ n, request = .batch (m.batch (clock n))

/-- A migration was submitted, and the store reported success. -/
def Acknowledged (clock : Nat → Int64) (past : List Exchange) (m : Migration) : Prop :=
  ∃ e ∈ past, IsBatch clock m e.call.request ∧ e.reply.success = true

/-- What a run may ask for: that the table is created, that it is read, and behind a read the batch
of a migration that the read did not report. -/
def RunAllows (clock : Nat → Int64) (source : MigrationSource) (past : List Exchange)
    (call : Call) : Prop :=
  call.request = .exec HistoryTable.creation ∨ call.request = .exec HistoryTable.reading ∨
    ∃ m ∈ source.migrations, IsBatch clock m call.request ∧ m.tag ∉ tagsRead past ∧
      ∃ e ∈ past, IsRead e

/-- What a run may report: behind a read, the migrations of the source that the read did not
report, each acknowledged, and the others apart from them. An error other than one of the history
has a migration that the read did not report. -/
def RunReturns (clock : Nat → Int64) (source : MigrationSource) (past : List Exchange) :
    Except MigrationError MigrationReport × MigrationHistory → Prop
  | (.ok report, _) =>
    (∃ e ∈ past, IsRead e) ∧
      report.applied = (source.migrations.map (·.tag)).filter (· ∉ tagsRead past) ∧
      report.skipped = (source.migrations.map (·.tag)).filter (· ∈ tagsRead past) ∧
      ∀ m ∈ source.migrations, m.tag ∉ tagsRead past → Acknowledged clock past m
  | (.error e, _) =>
    (∃ message, e = .history message) ∨
      (∃ e ∈ past, IsRead e) ∧ ∃ m ∈ source.migrations, m.tag ∉ tagsRead past

variable {clock : Nat → Int64} {source : MigrationSource} {past : List Exchange}
  {h : MigrationHistory}

theorem tagsRead_append (past more : List Exchange) :
    tagsRead (past ++ more) = tagsRead past ++ tagsRead more := by
  simp [tagsRead, List.filter_append, List.flatMap_append]

theorem tagsRead_read {e : Exchange} (he : IsRead e) : tagsRead [e] = replyTags e.reply := by
  simp [tagsRead, he]

theorem tagsRead_other {e : Exchange} (he : e.call.request ≠ .exec HistoryTable.reading) :
    tagsRead [e] = [] := by
  simp [tagsRead, IsRead, he]

/-- The tags of a reply are those of the records that it holds. -/
theorem replyTags_eq (reply : RowsResult) :
    ((reply.data.getD []).filterMap ofRow?).map (·.tag) = replyTags reply := by
  rw [List.map_filterMap, replyTags]
  exact congrArg (List.filterMap · _) (funext HistoryTable.tag_ofRow?)

theorem Acknowledged.append {m : Migration} (h : Acknowledged clock past m) (e : Exchange) :
    Acknowledged clock (past ++ [e]) m := by
  obtain ⟨old, mem, rest⟩ := h
  exact ⟨old, List.mem_append_left _ mem, rest⟩

theorem keeps_ask {allowed : List Exchange → Call → Prop} {request : Request}
    (ha : allowed past ⟨request, h.bookmark⟩) :
    Dialogue.Keeps allowed
      (fun after (answer : RowsResult × MigrationHistory) =>
        ∃ bookmark, after = past ++ [⟨⟨request, bookmark⟩, answer.1⟩]) past (h.ask request) :=
  ⟨ha, fun _ => ⟨_, rfl⟩⟩

theorem rowsOf_error {r : RowsResult} {e : MigrationError} (he : rowsOf r = .error e) :
    ∃ message, e = .history message := by
  unfold rowsOf at he
  split at he
  next => cases he
  next => exact ⟨_, (Except.error.inj he).symm⟩

theorem rowsOf_ok {r : RowsResult} {rows : List Row} (hr : rowsOf r = .ok rows) :
    r.success = true ∧ rows = r.data.getD [] := by
  unfold rowsOf at hr
  split at hr
  next hs => exact ⟨hs, (Except.ok.inj hr).symm⟩
  next => cases hr

/-- Creating the table is one exchange that reads nothing. -/
theorem keeps_ensureTable :
    Dialogue.Keeps (RunAllows clock source)
      (fun past (answer : Except MigrationError Unit × MigrationHistory) =>
        tagsRead past = [] ∧ ∀ e, answer.1 = .error e → ∃ message, e = .history message)
      [] h.ensureTable := by
  have create : Request.exec createStatement = .exec HistoryTable.creation := by
    rw [HistoryTable.createStatement_eq]
  refine Dialogue.keeps_bind (keeps_ask (.inl create)) ?_
  rintro past ⟨reply, later⟩ ⟨bookmark, rfl⟩
  have other : Request.exec createStatement ≠ .exec HistoryTable.reading := by decide
  refine ⟨tagsRead_other other, fun e he => ?_⟩
  cases hr : rowsOf reply with
  | error fault =>
    obtain ⟨message, rfl⟩ := rowsOf_error hr
    rw [hr] at he
    exact ⟨message, (Except.error.inj he).symm⟩
  | ok rows => rw [hr] at he; cases he

/-- Reading the history is one exchange, which reports the tags of the records. -/
theorem keeps_applied (hp : tagsRead past = []) :
    Dialogue.Keeps (RunAllows clock source)
      (fun past (answer : Except MigrationError (List AppliedMigration) × MigrationHistory) =>
        match answer.1 with
        | .error e => ∃ message, e = .history message
        | .ok records => (∃ e ∈ past, IsRead e) ∧ tagsRead past = records.map (·.tag))
      past h.applied := by
  have request : Request.exec readStatement = .exec HistoryTable.reading := by
    rw [HistoryTable.readStatement_eq]
  refine Dialogue.keeps_bind (keeps_ask (.inr (.inl request))) ?_
  rintro after ⟨reply, later⟩ ⟨bookmark, rfl⟩
  cases hr : rowsOf reply with
  | error fault =>
    apply Dialogue.keeps_pure
    simpa [hr, Except.map] using rowsOf_error hr
  | ok rows =>
    obtain ⟨success, rfl⟩ := rowsOf_ok hr
    apply Dialogue.keeps_pure
    have read : IsRead ⟨⟨.exec readStatement, bookmark⟩, reply⟩ := ⟨request, success⟩
    simp only [hr, Except.map]
    refine ⟨⟨_, List.mem_append_right _ (List.mem_singleton_self _), read⟩, ?_⟩
    rw [tagsRead_append, hp, tagsRead_read read, List.nil_append, replyTags_eq]

/-- What is recorded is what one read reported. -/
theorem keeps_recordedTags :
    Dialogue.Keeps (RunAllows clock source)
      (fun past (answer : Except MigrationError (List String) × MigrationHistory) =>
        match answer.1 with
        | .error e => ∃ message, e = .history message
        | .ok recorded => (∃ e ∈ past, IsRead e) ∧ ∀ tag, tag ∈ recorded ↔ tag ∈ tagsRead past)
      [] h.recordedTags := by
  refine Dialogue.keeps_bind keeps_ensureTable ?_
  rintro past ⟨created, later⟩ ⟨hp, he⟩
  cases created with
  | error e => exact he e rfl
  | ok _ =>
    refine Dialogue.keeps_bind (keeps_applied hp) ?_
    rintro after ⟨records, last⟩ hr
    apply Dialogue.keeps_pure
    cases records with
    | error e => exact hr
    | ok records =>
      refine ⟨hr.1, fun tag => ?_⟩
      rw [hr.2]
      exact List.mem_eraseDups

/-- Applying a migration is one exchange, its batch. -/
theorem keeps_apply {m : Migration} {n : Nat} (member : m ∈ source.migrations)
    (pending : m.tag ∉ tagsRead past) (read : ∃ e ∈ past, IsRead e) :
    Dialogue.Keeps (RunAllows clock source)
      (fun after (answer : RowsResult × MigrationHistory) =>
        ∃ bookmark, after = past ++ [⟨⟨.batch (m.batch (clock n)), bookmark⟩, answer.1⟩])
      past (h.apply m.tag (clock n) m.statements) := by
  rw [apply, m.statements_record]
  exact keeps_ask (.inr (.inr ⟨m, member, ⟨n, rfl⟩, pending, read⟩))

/-- The loop over the migrations that are left, `done` being those behind it. -/
theorem keeps_applyPending {recorded : List String} {report : MigrationReport}
    {done left : List Migration} (hs : source.migrations = done ++ left)
    (read : ∃ e ∈ past, IsRead e) (hr : ∀ tag, tag ∈ recorded ↔ tag ∈ tagsRead past)
    (applied : report.applied = (done.map (·.tag)).filter (· ∉ tagsRead past))
    (skipped : report.skipped = (done.map (·.tag)).filter (· ∈ tagsRead past))
    (acknowledged : ∀ m ∈ done, m.tag ∉ tagsRead past → Acknowledged clock past m) :
    Dialogue.Keeps (RunAllows clock source) (RunReturns clock source) past
      (h.applyPending clock recorded report left) := by
  induction left generalizing h report done past with
  | nil =>
    rw [List.append_nil] at hs
    subst hs
    exact ⟨read, applied, skipped, acknowledged⟩
  | cons m left ih =>
    have member : m ∈ source.migrations := by simp [hs]
    have hs' : source.migrations = (done ++ [m]) ++ left := by simp [hs]
    unfold applyPending
    by_cases known : m.tag ∈ tagsRead past
    · rw [if_pos (by simpa [hr] using known)]
      refine ih hs' read hr (by simp [applied, known]) (by simp [skipped, known]) ?_
      intro other ho hn
      rcases List.mem_append.mp ho with ho | ho
      · exact acknowledged other ho hn
      · exact absurd known (List.mem_singleton.mp ho ▸ hn)
    · rw [if_neg (by simpa [hr] using known)]
      refine Dialogue.keeps_bind (keeps_apply member known read) ?_
      rintro after ⟨reply, later⟩ ⟨bookmark, rfl⟩
      -- A batch reads nothing, so what was read stays.
      generalize report.applied.length = n
      have same : tagsRead (past ++ [⟨⟨.batch (m.batch (clock n)), bookmark⟩, reply⟩])
          = tagsRead past := by
        rw [tagsRead_append, tagsRead_other (by simp), List.append_nil]
      have read' : ∃ e ∈ past ++ [⟨⟨.batch (m.batch (clock n)), bookmark⟩, reply⟩], IsRead e := by
        obtain ⟨e, mem, he⟩ := read
        exact ⟨e, List.mem_append_left _ mem, he⟩
      dsimp only
      split
      next success =>
        refine ih hs' read' (by rwa [same]) (by simp [same, applied, known])
          (by simp [same, skipped, known]) ?_
        intro other ho hn
        rw [same] at hn
        rcases List.mem_append.mp ho with ho | ho
        · exact (acknowledged other ho hn).append _
        · cases List.mem_singleton.mp ho
          exact ⟨_, List.mem_append_right _ (List.mem_singleton_self _), ⟨n, rfl⟩, success⟩
      next => exact .inr ⟨read', m, member, by rwa [same]⟩

/-- Every run asks only for what is allowed, and reports only what it may. -/
theorem keeps_run : Dialogue.Keeps (RunAllows clock source) (RunReturns clock source) []
    (h.run clock source) := by
  refine Dialogue.keeps_bind keeps_recordedTags ?_
  rintro past ⟨recorded, later⟩ hr
  cases recorded with
  | error e => exact .inl hr
  | ok recorded =>
    dsimp only
    split
    next refused =>
      simp only [Bool.and_eq_true, List.any_eq_true] at refused
      obtain ⟨⟨_, m, member, pending⟩, _⟩ := refused
      exact .inr ⟨hr.1, m, member, by simpa [hr.2] using pending⟩
    next => exact keeps_applyPending (List.nil_append _).symm hr.1 hr.2 rfl rfl (by simp)

end MigrationHistory

end Tabularium
