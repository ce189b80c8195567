import Tabularium.Proofs.Migration.BundleOrder
import Tabularium.Proofs.Migration.RunContract
import Tabularium.Proofs.Store.SessionBookmarks

namespace Tabularium

/-- The exchange made a request, and the store reported success or failure. -/
def Exchange.Reports (e : Exchange) (request : Request) (success : Bool) : Prop :=
  e.call.request = request ∧ e.reply.success = success

namespace MigrationHistory

open Dialogue

variable {clock : Nat → Int64} {source : MigrationSource} {es past : List Exchange}
  {h : MigrationHistory} {b : Option String}

/-- What is said of a failure. -/
def errorText (r : RowsResult) : String :=
  r.error.getD "unknown error"

/-- The migrations of a source that are not among the tags that a reply reports, in order. -/
def pendingOf (source : MigrationSource) (read : RowsResult) : List Migration :=
  source.migrations.filter fun m => m.tag ∉ replyTags read

/-- The migrations of a source that are among the tags that a reply reports, in order. -/
def recordedOf (source : MigrationSource) (read : RowsResult) : List Migration :=
  source.migrations.filter fun m => m.tag ∈ replyTags read

/-- The migration that creates a schema is pending although migrations are recorded. -/
structure Refuses (source : MigrationSource) (read : RowsResult) : Prop where
  synthesized : ∃ s, source = .synthesized s
  pending : pendingOf source read ≠ []
  recorded : replyTags read ≠ []

/-- The table of the history was created and then read. -/
structure Opens (created read : Exchange) : Prop where
  created : created.Reports (.exec HistoryTable.creation) true
  read : read.Reports (.exec HistoryTable.reading) true

/-- The exchange applied a migration with a number: its statements and the record of it went out as
one batch. -/
def Applies (clock : Nat → Int64) (m : Migration × Nat) (e : Exchange) : Prop :=
  e.Reports (.batch (m.1.batch (clock m.2))) true

/-- The exchanges of a run with what it comes to. After the two exchanges that open it, it has one
for each pending migration, up to the first failure. -/
inductive Course (clock : Nat → Int64) (source : MigrationSource) :
    List Exchange → Except MigrationError MigrationReport → Prop
  | uncreated {e : Exchange} (failed : e.Reports (.exec HistoryTable.creation) false) :
    Course clock source [e] (.error (.history (errorText e.reply)))
  | unread {e e' : Exchange} (created : e.Reports (.exec HistoryTable.creation) true)
    (failed : e'.Reports (.exec HistoryTable.reading) false) :
    Course clock source [e, e'] (.error (.history (errorText e'.reply)))
  | refused {e e' : Exchange} (opening : Opens e e') (refused : Refuses source e'.reply) :
    Course clock source [e, e']
      (.error (.synthesizedWithHistory (replyTags e'.reply).eraseDups.length))
  | stopped {e e' last : Exchange} {es : List Exchange} {m : Migration} {done left : List Migration}
    (opening : Opens e e') (accepted : ¬ Refuses source e'.reply)
    (pending : pendingOf source e'.reply = done ++ m :: left)
    (applied : List.Forall₂ (Applies clock) done.zipIdx es)
    (failed : last.Reports (.batch (m.batch (clock done.length))) false) :
    Course clock source (e :: e' :: (es ++ [last])) (.error (.failed m.tag (errorText last.reply)))
  | completed {e e' : Exchange} {es : List Exchange} (opening : Opens e e')
    (accepted : ¬ Refuses source e'.reply)
    (applied : List.Forall₂ (Applies clock) (pendingOf source e'.reply).zipIdx es) :
    Course clock source (e :: e' :: es)
      (.ok ⟨(pendingOf source e'.reply).map (·.tag), (recordedOf source e'.reply).map (·.tag)⟩)

/-- What is known of a history: the tags that are recorded, or why they cannot be read. -/
inductive Reads : List Exchange → Except MigrationError (List String) → Prop
  | uncreated {e : Exchange} (failed : e.Reports (.exec HistoryTable.creation) false) :
    Reads [e] (.error (.history (errorText e.reply)))
  | unread {e e' : Exchange} (created : e.Reports (.exec HistoryTable.creation) true)
    (failed : e'.Reports (.exec HistoryTable.reading) false) :
    Reads [e, e'] (.error (.history (errorText e'.reply)))
  | opened {e e' : Exchange} (opening : Opens e e') :
    Reads [e, e'] (.ok (replyTags e'.reply).eraseDups)

theorem ask_plays {request : Request} {answer : RowsResult × MigrationHistory}
    (played : (h.ask request).Plays es answer) :
    ∃ e : Exchange, es = [e] ∧ e.call.request = request ∧ answer.1 = e.reply := by
  obtain ⟨first, reply, rest, hcall, hrest, rfl⟩ := plays_bind.mp played
  obtain ⟨rfl, rfl⟩ := plays_pure.mp hrest
  cases hcall with
  | ask finished =>
    cases finished
    exact ⟨_, rfl, rfl, rfl⟩

theorem ensureTable_plays {answer : Except MigrationError Unit × MigrationHistory}
    (played : h.ensureTable.Plays es answer) :
    ∃ e : Exchange, es = [e] ∧ e.call.request = .exec HistoryTable.creation
      ∧ answer.1 = (rowsOf e.reply).map fun _ => () := by
  obtain ⟨first, reply, rest, hask, hrest, rfl⟩ := plays_bind.mp played
  obtain ⟨e, rfl, request, hreply⟩ := ask_plays hask
  obtain ⟨rfl, rfl⟩ := plays_pure.mp hrest
  rw [HistoryTable.createStatement_eq] at request
  exact ⟨e, rfl, request, by rw [← hreply]⟩

theorem applied_plays {answer : Except MigrationError (List AppliedMigration) × MigrationHistory}
    (played : h.applied.Plays es answer) :
    ∃ e : Exchange, es = [e] ∧ e.call.request = .exec HistoryTable.reading
      ∧ answer.1 = (rowsOf e.reply).map fun rows => rows.filterMap ofRow? := by
  obtain ⟨first, reply, rest, hask, hrest, rfl⟩ := plays_bind.mp played
  obtain ⟨e, rfl, request, hreply⟩ := ask_plays hask
  obtain ⟨rfl, rfl⟩ := plays_pure.mp hrest
  rw [HistoryTable.readStatement_eq] at request
  exact ⟨e, rfl, request, by rw [← hreply]⟩

theorem recordedTags_plays {answer : Except MigrationError (List String) × MigrationHistory}
    (played : h.recordedTags.Plays es answer) : Reads es answer.1 := by
  obtain ⟨first, ⟨created, h'⟩, rest, hcreate, hrest, rfl⟩ := plays_bind.mp played
  obtain ⟨e, rfl, request, hcreated⟩ := ensureTable_plays hcreate
  dsimp only at hcreated
  subst hcreated
  cases success : e.reply.success with
  | false =>
    simp only [rowsOf, success, Bool.false_eq_true, if_false, Except.map] at hrest
    obtain ⟨rfl, rfl⟩ := plays_pure.mp hrest
    exact .uncreated ⟨request, success⟩
  | true =>
    simp only [rowsOf, success, if_true, Except.map] at hrest
    obtain ⟨second, ⟨records, h''⟩, last, hread, hlast, rfl⟩ := plays_bind.mp hrest
    obtain ⟨e', rfl, request', hrecords⟩ := applied_plays hread
    obtain ⟨rfl, rfl⟩ := plays_pure.mp hlast
    dsimp only at hrecords
    subst hrecords
    cases success' : e'.reply.success with
    | false =>
      simp only [rowsOf, success', Bool.false_eq_true, if_false, Except.map]
      exact .unread ⟨request, success⟩ ⟨request', success'⟩
    | true =>
      simp only [rowsOf, success', if_true, Except.map, replyTags_eq]
      exact .opened ⟨⟨request, success⟩, request', success'⟩

/-- The loop over the migrations that are left: it applies those that are not recorded, up to the
first failure. -/
theorem applyPending_plays {recorded : List String} {report : MigrationReport}
    {left : List Migration} {answer : Except MigrationError MigrationReport × MigrationHistory}
    (played : (h.applyPending clock recorded report left).Plays es answer) :
    (List.Forall₂ (Applies clock)
          ((left.filter fun m => m.tag ∉ recorded).zipIdx report.applied.length) es
        ∧ answer.1 = .ok ⟨report.applied ++ (left.filter fun m => m.tag ∉ recorded).map (·.tag),
          report.skipped ++ (left.filter fun m => m.tag ∈ recorded).map (·.tag)⟩)
      ∨ ∃ done m rest es' last, left.filter (fun m => m.tag ∉ recorded) = done ++ m :: rest
        ∧ es = es' ++ [last] ∧ List.Forall₂ (Applies clock) (done.zipIdx report.applied.length) es'
        ∧ last.Reports (.batch (m.batch (clock (report.applied.length + done.length)))) false
        ∧ answer.1 = .error (.failed m.tag (errorText last.reply)) := by
  induction left generalizing h es report with
  | nil =>
    obtain ⟨rfl, rfl⟩ := plays_pure.mp played
    exact .inl ⟨.nil, by simp⟩
  | cons m left ih =>
    unfold applyPending at played
    by_cases known : m.tag ∈ recorded
    · rw [if_pos (by simpa using known)] at played
      simpa [known] using ih played
    · rw [if_neg (by simpa using known)] at played
      obtain ⟨first, ⟨reply, h'⟩, rest, hask, hrest, rfl⟩ := plays_bind.mp played
      obtain ⟨e, rfl, request, hreply⟩ := ask_plays hask
      rw [m.statements_record] at request
      dsimp only at hreply
      subst hreply
      have pending : (m :: left).filter (fun m => m.tag ∉ recorded)
          = m :: left.filter fun m => m.tag ∉ recorded := by simp [known]
      rw [pending]
      cases success : e.reply.success with
      | true =>
        simp only [success, if_true] at hrest
        have applies : Applies clock (m, report.applied.length) e := ⟨request, success⟩
        have later := ih hrest
        rw [List.length_append, List.length_singleton] at later
        rcases later with ⟨all, outcome⟩ | ⟨done, m', later, es', last, split, rfl, all, rest⟩
        · exact .inl ⟨.cons applies all, by simp [outcome, known]⟩
        · rw [Nat.add_assoc, Nat.add_comm 1] at rest
          exact .inr ⟨m :: done, m', later, e :: es', last, by rw [split]; rfl, rfl,
            .cons applies all, rest⟩
      | false =>
        simp only [success, Bool.false_eq_true, if_false] at hrest
        obtain ⟨rfl, rfl⟩ := plays_pure.mp hrest
        exact .inr ⟨[], m, _, [], e, rfl, rfl, .nil, ⟨request, success⟩, rfl⟩

/-- What is asked of a run before it applies anything is what `Refuses` says. -/
theorem refuses_iff {read : RowsResult} :
    (source.isSynthesized
        && (source.migrations.any fun m => !(replyTags read).eraseDups.contains m.tag)
        && !(replyTags read).eraseDups.isEmpty) = true ↔ Refuses source read := by
  have recorded : (replyTags read).eraseDups.isEmpty = true ↔ replyTags read = [] := by
    rw [List.isEmpty_iff, List.eq_nil_iff_forall_not_mem, List.eq_nil_iff_forall_not_mem]
    simp only [List.mem_eraseDups]
  have pending : (source.migrations.any fun m => !(replyTags read).eraseDups.contains m.tag) = true
      ↔ pendingOf source read ≠ [] := by
    simp [pendingOf, List.filter_eq_nil_iff]
  have synthesized : source.isSynthesized = true ↔ ∃ s, source = .synthesized s := by
    cases source <;> simp [MigrationSource.isSynthesized]
  rw [Bool.and_eq_true, Bool.and_eq_true, synthesized, pending, Bool.not_eq_true',
    ← Bool.not_eq_true, recorded]
  exact ⟨fun ⟨⟨hs, hp⟩, hr⟩ => ⟨hs, hp, hr⟩, fun ⟨hs, hp, hr⟩ => ⟨⟨hs, hp⟩, hr⟩⟩

/-- Whatever the replies are, a run takes the course that they dictate. -/
theorem run_plays {answer : Except MigrationError MigrationReport × MigrationHistory}
    (played : (h.run clock source).Plays es answer) : Course clock source es answer.1 := by
  obtain ⟨first, ⟨recorded, h'⟩, rest, hread, hrest, rfl⟩ := plays_bind.mp played
  have reads := recordedTags_plays hread
  dsimp only at reads
  cases reads with
  | uncreated failed =>
    obtain ⟨rfl, rfl⟩ := plays_pure.mp hrest
    exact .uncreated failed
  | unread created failed =>
    obtain ⟨rfl, rfl⟩ := plays_pure.mp hrest
    exact .unread created failed
  | @opened e e' opening =>
    dsimp only at hrest
    split at hrest
    next refused =>
      obtain ⟨rfl, rfl⟩ := plays_pure.mp hrest
      exact .refused opening (refuses_iff.mp refused)
    next accepted =>
      rw [refuses_iff] at accepted
      have played := applyPending_plays hrest
      simp only [List.mem_eraseDups, List.nil_append, List.length_nil, Nat.zero_add] at played
      rcases played with
        ⟨all, outcome⟩ | ⟨done, m, left, es', last, split, rfl, all, failed, outcome⟩
      · rw [outcome]
        exact .completed opening accepted all
      · rw [outcome]
        exact .stopped opening accepted split all failed

theorem exists_applied {ms : List Migration} {e : Exchange}
    (applied : List.Forall₂ (Applies clock) ms.zipIdx es) (he : e ∈ es) :
    ∃ (i : Nat) (m : Migration), ms[i]? = some m
      ∧ e.call.request = .batch (m.batch (clock i)) := by
  obtain ⟨i, hi, rfl⟩ := List.getElem_of_mem he
  have applies := applied.get (by rwa [applied.length_eq]) hi
  rw [List.get_eq_getElem, List.getElem_zipIdx, Nat.zero_add] at applies
  exact ⟨i, _, List.getElem?_eq_getElem _, applies.1⟩

/-- A run creates the table, reads it, or submits the batch of a pending migration with the reading
of the clock for its place. -/
theorem Course.requests {outcome : Except MigrationError MigrationReport}
    (course : Course clock source es outcome) {e : Exchange} (he : e ∈ es) :
    e.call.request = .exec HistoryTable.creation ∨ e.call.request = .exec HistoryTable.reading ∨
      ∃ (read : RowsResult) (i : Nat) (m : Migration), (pendingOf source read)[i]? = some m
        ∧ e.call.request = .batch (m.batch (clock i)) := by
  cases course with
  | uncreated failed =>
    cases List.mem_singleton.mp he
    exact .inl failed.1
  | unread created failed =>
    rcases List.mem_cons.mp he with rfl | he
    · exact .inl created.1
    · cases List.mem_singleton.mp he
      exact .inr (.inl failed.1)
  | refused opening _ =>
    rcases List.mem_cons.mp he with rfl | he
    · exact .inl opening.created.1
    · cases List.mem_singleton.mp he
      exact .inr (.inl opening.read.1)
  | @stopped _ e' last es m done left opening _ pending applied failed =>
    rcases List.mem_cons.mp he with rfl | he
    · exact .inl opening.created.1
    rcases List.mem_cons.mp he with rfl | he
    · exact .inr (.inl opening.read.1)
    refine .inr (.inr ⟨e'.reply, ?_⟩)
    rw [pending]
    rcases List.mem_append.mp he with he | he
    · obtain ⟨i, m', hm, request⟩ := exists_applied applied he
      obtain ⟨hi, -⟩ := List.getElem?_eq_some_iff.mp hm
      exact ⟨i, m', by rwa [List.getElem?_append_left hi], request⟩
    · cases List.mem_singleton.mp he
      exact ⟨done.length, m, by simp, failed.1⟩
  | @completed _ e' es opening _ applied =>
    rcases List.mem_cons.mp he with rfl | he
    · exact .inl opening.created.1
    rcases List.mem_cons.mp he with rfl | he
    · exact .inr (.inl opening.read.1)
    exact .inr (.inr ⟨e'.reply, exists_applied applied he⟩)

/-- The bookmark that a history carries behind exchanges: that of the latest success that reports
one, or else the one from before them. -/
def carried (b : Option String) (past : List Exchange) : Option String :=
  (Session.latest (past.map (·.reply))).or b

/-- What the status of a source says: nothing when the history cannot be read, and else which of its
migrations are recorded. -/
def statusOf (source : MigrationSource) (created read : RowsResult) :
    Except MigrationError (List MigrationStatus) :=
  if created.success then
    if read.success then
      .ok (source.migrations.map fun m => ⟨m.idx, m.tag, decide (m.tag ∈ replyTags read)⟩)
    else .error (.history (errorText read))
  else .error (.history (errorText created))

/-- A run of a source, with the exchanges of it, when a store gives replies in turn. -/
structure Dictated (h : MigrationHistory) (clock : Nat → Int64) (source : MigrationSource)
    (replies : Nat → RowsResult) (es : List Exchange)
    (outcome : Except MigrationError MigrationReport) : Prop where
  migrations : source.Has source.migrations
  answered : es.map (·.reply) = (List.range' 0 es.length).map replies
  course : Course clock source es outcome
  /-- Each call carries the latest bookmark of the successes before it. -/
  bookmarks : ∀ earlier e, earlier ++ [e] <+: es → e.call.bookmark = carried h.bookmark earlier
  ascending : source.Built → ∀ read, (pendingOf source read).Pairwise fun m n => m.idx < n.idx
  together : ∀ report, outcome = .ok report →
    (report.applied ++ report.skipped).Perm (source.migrations.map (·.tag))
  /-- On the same first two replies, the status tells what is recorded. -/
  status : ∀ (h' : MigrationHistory) (replies' : Nat → RowsResult), replies' 0 = replies 0 →
    replies' 1 = replies 1 →
    ((h'.status source).run (answering replies') []).1.1 = statusOf source (replies 0) (replies 1)
  /-- What the status marks as applied is what the run skips if it comes to its end. -/
  marked : ∀ states, statusOf source (replies 0) (replies 1) = .ok states →
    (states.filter (·.applied)).map (·.tag) = (recordedOf source (replies 1)).map (·.tag)
  skipped : ∀ report, outcome = .ok report →
    report.skipped = (recordedOf source (replies 1)).map (·.tag)

end MigrationHistory

end Tabularium
