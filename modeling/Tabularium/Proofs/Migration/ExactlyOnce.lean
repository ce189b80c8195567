import Mathlib.Logic.Relation
import Tabularium.Proofs.Migration.HistoryStore

namespace Tabularium

open MigrationHistory HistoryStore

/-- A batch that took effect, with the number of the run that submitted it. -/
structure Commit where
  run : Nat
  statements : List Statement

/-- The tags that a batch recorded. -/
def Commit.tags (c : Commit) : List String :=
  recordedTags c.statements

/-- The batches that a request of a run stands for. -/
def Request.commits (run : Nat) : Request → List Commit
  | .exec _ => []
  | .batch statements => [⟨run, statements⟩]

/-- A run of a source: the exchanges that lie behind it, and what it does next. -/
structure MigrationRun where
  clock : Nat → Int64
  source : MigrationSource
  past : List Exchange := []
  next : Dialogue (Except MigrationError MigrationReport × MigrationHistory)

/-- A store with all runs that were started on it, in order, and the batches that took effect. -/
structure SharedStore (σ : Type) where
  store : HistoryStore σ
  log : List Commit := []
  runs : List MigrationRun := []

namespace SharedStore

variable {σ : Type} {effect : Statement → σ → Option σ} {initial s s' : SharedStore σ}

/-- No run was started and no migration was recorded. -/
def IsInitial (s : SharedStore σ) : Prop :=
  s.runs = [] ∧ s.log = [] ∧ s.store.tags = []

/-- The store with one more run, at its beginning. -/
def start (s : SharedStore σ) (h : MigrationHistory) (clock : Nat → Int64)
    (source : MigrationSource) : SharedStore σ :=
  { s with runs := s.runs ++ [{ clock, source, next := h.run clock source }] }

/-- The store behind a call of the run with a number. -/
def advance (s : SharedStore σ) (i : Nat) (run : MigrationRun) (e : Exchange) (tookEffect : Bool)
    (store : HistoryStore σ)
    (next : Dialogue (Except MigrationError MigrationReport × MigrationHistory)) : SharedStore σ :=
  ⟨store, s.log ++ if tookEffect then e.call.request.commits i else [],
    s.runs.set i { run with past := run.past ++ [e], next }⟩

/-- A run is started, or some run makes its next call. A run that makes no more calls may have been
given up. -/
inductive Step (effect : Statement → σ → Option σ) (s : SharedStore σ) : SharedStore σ → Prop
  | start (h : MigrationHistory) (clock : Nat → Int64) (source : MigrationSource) :
    Step effect s (s.start h clock source)
  | call {i : Nat} {run : MigrationRun} {call : Call} {reply : RowsResult} {tookEffect : Bool}
    {store : HistoryStore σ}
    {resume : RowsResult → Dialogue (Except MigrationError MigrationReport × MigrationHistory)}
    (running : s.runs[i]? = some run) (next : run.next = .ask call resume)
    (served : Serves effect s.store call reply tookEffect store) :
    Step effect s (s.advance i run ⟨call, reply⟩ tookEffect store (resume reply))

/-- What any number of steps leads to. -/
abbrev Leads (effect : Statement → σ → Option σ) : SharedStore σ → SharedStore σ → Prop :=
  Relation.ReflTransGen (Step effect)

/-- What holds of a store on which runs go on in any order. -/
structure Coherent (effect : Statement → σ → Option σ) (initial s : SharedStore σ) : Prop where
  nodup : s.store.tags.Nodup
  logged : s.log.flatMap Commit.tags = s.store.tags
  data : (s.log.flatMap (·.statements)).foldlM (change effect) initial.store.data
    = some s.store.data
  /-- Each batch that took effect is that of a migration of the source of its run. -/
  migrations : ∀ c ∈ s.log, ∃ run, s.runs[c.run]? = some run ∧
    ∃ m ∈ run.source.migrations, ∃ n, c.statements = m.batch (run.clock n)
  keeps : ∀ (i : Nat) run, s.runs[i]? = some run →
    run.next.Keeps (RunAllows run.clock run.source) (RunReturns run.clock run.source) run.past
  reads : ∀ (i : Nat) run, s.runs[i]? = some run → ∀ tag ∈ tagsRead run.past, tag ∈ s.store.tags
  acknowledged : ∀ (i : Nat) run, s.runs[i]? = some run → ∀ e ∈ run.past, ∀ statements,
    e.call.request = .batch statements → e.reply.success = true → ⟨i, statements⟩ ∈ s.log

theorem coherent_initial (h : initial.IsInitial) : Coherent effect initial initial where
  nodup := by simp [h.2.2]
  logged := by simp [h.2.1, h.2.2]
  data := by simp [h.2.1]
  migrations := by simp [h.2.1]
  keeps := by simp [h.1]
  reads := by simp [h.1]
  acknowledged := by simp [h.1]

/-- A run of the store with one more run is one from before or the new one at its beginning. -/
theorem start_runs {h : MigrationHistory} {clock : Nat → Int64} {source : MigrationSource}
    {i : Nat} {run : MigrationRun} (hr : (s.start h clock source).runs[i]? = some run) :
    s.runs[i]? = some run ∨
      i = s.runs.length ∧ run = { clock, source, next := h.run clock source } := by
  rw [start, List.getElem?_append] at hr
  split at hr
  next => exact .inl hr
  next hn =>
    obtain ⟨hi, hrun⟩ := List.getElem?_eq_some_iff.mp hr
    have hz : i = s.runs.length := by
      simp only [List.length_singleton] at hi
      omega
    subst hz
    exact .inr ⟨rfl, by simpa using hrun.symm⟩

theorem start_runs_of_some {h : MigrationHistory} {clock : Nat → Int64} {source : MigrationSource}
    {i : Nat} {run : MigrationRun} (hr : s.runs[i]? = some run) :
    (s.start h clock source).runs[i]? = some run := by
  obtain ⟨hi, _⟩ := List.getElem?_eq_some_iff.mp hr
  rw [start, List.getElem?_append_left hi, hr]

theorem coherent_start (inv : Coherent effect initial s) (h : MigrationHistory)
    (clock : Nat → Int64) (source : MigrationSource) :
    Coherent effect initial (s.start h clock source) where
  nodup := inv.nodup
  logged := inv.logged
  data := inv.data
  migrations c hc := by
    obtain ⟨run, hr, rest⟩ := inv.migrations c hc
    exact ⟨run, start_runs_of_some hr, rest⟩
  keeps i run hr := by
    rcases start_runs hr with old | ⟨_, rfl⟩
    · exact inv.keeps i run old
    · exact keeps_run
  reads i run hr tag ht := by
    rcases start_runs hr with old | ⟨_, rfl⟩
    · exact inv.reads i run old tag ht
    · simp [tagsRead] at ht
  acknowledged i run hr e he := by
    rcases start_runs hr with old | ⟨_, rfl⟩
    · exact inv.acknowledged i run old e he
    · simp at he

/-- A run behind the call of another one is as it was; the caller has one exchange more. -/
theorem advance_runs {i j : Nat} {run other : MigrationRun} {e : Exchange} {tookEffect : Bool}
    {store : HistoryStore σ}
    {next : Dialogue (Except MigrationError MigrationReport × MigrationHistory)}
    (hr : (s.advance i run e tookEffect store next).runs[j]? = some other) :
    i ≠ j ∧ s.runs[j]? = some other ∨
      i = j ∧ other = { run with past := run.past ++ [e], next } := by
  rw [advance, List.getElem?_set] at hr
  split at hr
  next same =>
    split at hr
    next => exact .inr ⟨same, (Option.some.inj hr).symm⟩
    next => cases hr
  next other => exact .inl ⟨other, hr⟩

theorem advance_runs_self {i : Nat} {run : MigrationRun} {e : Exchange} {tookEffect : Bool}
    {store : HistoryStore σ}
    {next : Dialogue (Except MigrationError MigrationReport × MigrationHistory)}
    (running : s.runs[i]? = some run) :
    (s.advance i run e tookEffect store next).runs[i]?
      = some { run with past := run.past ++ [e], next } := by
  obtain ⟨hi, _⟩ := List.getElem?_eq_some_iff.mp running
  rw [advance, List.getElem?_set_self hi]

/-- No step takes a run away or gives it another source. -/
theorem exists_run_advance {i j : Nat} {run other : MigrationRun} {e : Exchange} {tookEffect : Bool}
    {store : HistoryStore σ}
    {next : Dialogue (Except MigrationError MigrationReport × MigrationHistory)}
    (running : s.runs[i]? = some run) (hr : s.runs[j]? = some other) :
    ∃ after, (s.advance i run e tookEffect store next).runs[j]? = some after ∧
      after.source = other.source ∧ after.clock = other.clock := by
  by_cases same : i = j
  · subst same
    cases Option.some.inj (running.symm.trans hr)
    exact ⟨_, advance_runs_self running, rfl, rfl⟩
  · refine ⟨other, ?_, rfl, rfl⟩
    rw [advance, List.getElem?_set_ne same, hr]

/-- What a call of a run does to the history table and to everything else is what its batch does,
when it takes effect; success is only reported of what took effect. -/
theorem served_commits {clock : Nat → Int64} {source : MigrationSource} {past : List Exchange}
    {call : Call} {reply : RowsResult} {tookEffect : Bool} {store store' : HistoryStore σ} (i : Nat)
    (allowed : RunAllows clock source past call)
    (served : Serves effect store call reply tookEffect store') :
    let commits := if tookEffect then call.request.commits i else []
    store'.tags = store.tags ++ commits.flatMap Commit.tags ∧
      (store.tags.Nodup → store'.tags.Nodup) ∧
      (commits.flatMap (·.statements)).foldlM (change effect) store.data = some store'.data ∧
      (reply.success = true → tookEffect = true) := by
  have took {after : HistoryStore σ} (done : store.carryOut effect call.request = some after) :
      after.tags = store.tags ++ (call.request.commits i).flatMap Commit.tags ∧
        (store.tags.Nodup → after.tags.Nodup) ∧
        ((call.request.commits i).flatMap (·.statements)).foldlM (change effect) store.data
          = some after.data := by
    rcases allowed with create | read | ⟨m, _, ⟨n, batch⟩, _⟩
    · rw [create] at done ⊢
      obtain ⟨ht, hd⟩ := carryOut_creation done
      simp [Request.commits, ht, hd]
    · rw [read] at done ⊢
      cases carryOut_reading done
      simp [Request.commits]
    · rw [batch] at done ⊢
      simpa [Request.commits, Commit.tags] using executeAll_tags done
  cases served with
  | refused failure => simp [failure]
  | answered done success _ =>
    obtain ⟨ht, hn, hd⟩ := took done
    exact ⟨ht, hn, hd, fun _ => rfl⟩
  | lost done failure =>
    obtain ⟨ht, hn, hd⟩ := took done
    exact ⟨ht, hn, hd, fun _ => rfl⟩

/-- What a read reports is in the history table. -/
theorem served_read {call : Call} {reply : RowsResult} {tookEffect : Bool}
    {store store' : HistoryStore σ} (served : Serves effect store call reply tookEffect store')
    (read : IsRead ⟨call, reply⟩) : replyTags reply = store.tags := by
  obtain ⟨request, success⟩ := read
  dsimp only at request success
  cases served with
  | refused failure => rw [success] at failure; cases failure
  | answered _ _ rows => exact replyTags_rows (rows request)
  | lost _ failure => rw [success] at failure; cases failure

/-- A batch in the log behind a call was there before, or it is that of a migration of the
caller. -/
theorem mem_log_advance {i : Nat} {run : MigrationRun} {call : Call} {reply : RowsResult}
    {tookEffect : Bool} {store : HistoryStore σ}
    {next : Dialogue (Except MigrationError MigrationReport × MigrationHistory)} {c : Commit}
    (allowed : RunAllows run.clock run.source run.past call)
    (hc : c ∈ (s.advance i run ⟨call, reply⟩ tookEffect store next).log) :
    c ∈ s.log ∨ ∃ m ∈ run.source.migrations, ∃ n,
      call.request = .batch (m.batch (run.clock n)) ∧ c = ⟨i, m.batch (run.clock n)⟩ := by
  rcases List.mem_append.mp hc with old | new
  · exact .inl old
  · split at new
    next =>
      rcases allowed with create | read | ⟨m, hm, ⟨n, batch⟩, _⟩
      · rw [create] at new; cases new
      · rw [read] at new; cases new
      · rw [batch] at new
        exact .inr ⟨m, hm, n, batch, List.mem_singleton.mp new⟩
    next => cases new

theorem coherent_call (inv : Coherent effect initial s) {i : Nat} {run : MigrationRun} {call : Call}
    {reply : RowsResult} {tookEffect : Bool} {store : HistoryStore σ}
    {resume : RowsResult → Dialogue (Except MigrationError MigrationReport × MigrationHistory)}
    (running : s.runs[i]? = some run) (next : run.next = .ask call resume)
    (served : Serves effect s.store call reply tookEffect store) :
    Coherent effect initial (s.advance i run ⟨call, reply⟩ tookEffect store (resume reply)) := by
  have keeps := inv.keeps i run running
  rw [next] at keeps
  obtain ⟨allowed, keeps⟩ := keeps
  obtain ⟨ht, hn, hd, took⟩ := served_commits i allowed served
  refine
    { nodup := hn inv.nodup, logged := ?logged, data := ?data, migrations := ?migrations,
      keeps := ?keeps, reads := ?reads, acknowledged := ?acknowledged }
  case logged =>
    rw [advance, List.flatMap_append, inv.logged, ht]
  case data =>
    rw [advance, List.flatMap_append, List.foldlM_append, inv.data]
    exact hd
  case migrations =>
    intro c hc
    rcases mem_log_advance allowed hc with old | ⟨m, hm, n, -, rfl⟩
    · obtain ⟨other, hr, m, hm, n, hs⟩ := inv.migrations c old
      obtain ⟨after, hr', source, clock⟩ := exists_run_advance running hr
      exact ⟨after, hr', m, source ▸ hm, n, clock ▸ hs⟩
    · exact ⟨_, advance_runs_self running, m, hm, n, rfl⟩
  case keeps =>
    intro j other hr
    rcases advance_runs hr with ⟨_, old⟩ | ⟨rfl, rfl⟩
    · exact inv.keeps j other old
    · exact keeps reply
  case reads =>
    intro j other hr tag htag
    change tag ∈ store.tags
    rw [ht]
    rcases advance_runs hr with ⟨_, old⟩ | ⟨rfl, rfl⟩
    · exact List.mem_append_left _ (inv.reads j other old tag htag)
    · rw [tagsRead_append] at htag
      rcases List.mem_append.mp htag with old | new
      · exact List.mem_append_left _ (inv.reads i run running tag old)
      · -- what is read now is in the table that the call finds
        by_cases read : IsRead ⟨call, reply⟩
        · rw [tagsRead_read read, served_read served read] at new
          exact List.mem_append_left _ new
        · simp [tagsRead, read] at new
  case acknowledged =>
    intro j other hr e he statements batch success
    change _ ∈ s.log ++ _
    rcases advance_runs hr with ⟨_, old⟩ | ⟨rfl, rfl⟩
    · exact List.mem_append_left _ (inv.acknowledged j other old e he statements batch success)
    · rcases List.mem_append.mp he with old | new
      · exact List.mem_append_left _ (inv.acknowledged i run running e old statements batch success)
      · cases List.mem_singleton.mp new
        rw [if_pos (took success), batch]
        exact List.mem_append_right _ (List.mem_singleton_self _)

theorem coherent_step (inv : Coherent effect initial s) (step : Step effect s s') :
    Coherent effect initial s' := by
  cases step with
  | start h clock source => exact coherent_start inv h clock source
  | call running next served => exact coherent_call inv running next served

theorem coherent_leads (inv : Coherent effect initial s) (leads : Leads effect s s') :
    Coherent effect initial s' := by
  induction leads with
  | refl => exact inv
  | tail _ step ih => exact coherent_step ih step

theorem tags_subset_step (inv : Coherent effect initial s) (step : Step effect s s') {tag : String}
    (h : tag ∈ s.store.tags) : tag ∈ s'.store.tags := by
  cases step with
  | start => exact h
  | @call i run _ _ _ store _ running next served =>
    have keeps := inv.keeps i run running
    rw [next] at keeps
    obtain ⟨ht, _⟩ := served_commits i keeps.1 served
    change tag ∈ store.tags
    rw [ht]
    exact List.mem_append_left _ h

/-- A tag that is recorded is that of one batch in the log, which is the batch of a migration. -/
theorem Coherent.commit_of_tag (inv : Coherent effect initial s) {tag : String}
    (h : tag ∈ s.store.tags) :
    ∃ before c after, s.log = before ++ c :: after ∧ (∀ other ∈ before ++ after, tag ∉ other.tags) ∧
      ∃ run migrations m n, s.runs[c.run]? = some run ∧ run.source.Has migrations ∧
        m ∈ migrations ∧ m.tag = tag ∧
        c.statements = (splitStatements m.sql).map (⟨·, []⟩)
          ++ [HistoryTable.insertion tag (run.clock n)] := by
  rw [← inv.logged] at h
  obtain ⟨c, hc, htag⟩ := List.mem_flatMap.mp h
  obtain ⟨run, hr, m, hm, n, hs⟩ := inv.migrations c hc
  have eq : m.tag = tag := by
    rw [Commit.tags, hs, recordedTags_batch, List.mem_singleton] at htag
    exact htag.symm
  obtain ⟨before, after, hl⟩ := List.append_of_mem hc
  refine ⟨before, c, after, hl, ?_, run, _, m, n, hr, run.source.has_migrations, hm, eq,
    by rw [hs, Migration.batch, eq]⟩
  have nodup := inv.nodup
  rw [← inv.logged, hl, List.flatMap_append, List.flatMap_cons, List.nodup_append,
    List.nodup_append] at nodup
  obtain ⟨_, ⟨_, _, apart⟩, apart'⟩ := nodup
  intro other ho hother
  rcases List.mem_append.mp ho with ho | ho
  · exact apart' tag (List.mem_flatMap.mpr ⟨other, ho, hother⟩) tag
      (List.mem_append_left _ htag) rfl
  · exact apart tag htag tag (List.mem_flatMap.mpr ⟨other, ho, hother⟩) rfl

theorem Coherent.tag_of_commit (inv : Coherent effect initial s) {c : Commit} (hc : c ∈ s.log) :
    ∃ tag ∈ s.store.tags, tag ∈ c.tags := by
  obtain ⟨run, _, m, _, n, hs⟩ := inv.migrations c hc
  have mem : m.tag ∈ c.tags := by simp [Commit.tags, hs, recordedTags_batch]
  refine ⟨m.tag, ?_, mem⟩
  rw [← inv.logged]
  exact List.mem_flatMap.mpr ⟨c, hc, mem⟩

theorem Coherent.commit_of_acknowledged (inv : Coherent effect initial s) {i : Nat}
    {run : MigrationRun} {m : Migration} (hr : s.runs[i]? = some run)
    (h : Acknowledged run.clock run.past m) : ∃ c ∈ s.log, c.run = i ∧ m.tag ∈ c.tags := by
  obtain ⟨e, he, ⟨n, batch⟩, success⟩ := h
  refine ⟨_, inv.acknowledged i run hr e he _ batch success, rfl, ?_⟩
  simp [Commit.tags, recordedTags_batch]

/-- A run that succeeded submitted every migration that it reports. -/
theorem Coherent.commit_of_applied (inv : Coherent effect initial s) {i : Nat} {run : MigrationRun}
    {report : MigrationReport} {h : MigrationHistory} (hr : s.runs[i]? = some run)
    (finished : run.next = .finish (.ok report, h)) {tag : String} (ht : tag ∈ report.applied) :
    ∃ c ∈ s.log, c.run = i ∧ tag ∈ c.tags := by
  have keeps := inv.keeps i run hr
  rw [finished] at keeps
  obtain ⟨_, applied, _, acknowledged⟩ := keeps
  rw [applied, List.mem_filter, List.mem_map] at ht
  obtain ⟨⟨m, hm, rfl⟩, pending⟩ := ht
  exact inv.commit_of_acknowledged hr (acknowledged m hm (of_decide_eq_true pending))

/-- Once a run has succeeded, all migrations of its source are recorded. -/
theorem Coherent.recorded_of_finished (inv : Coherent effect initial s) {i : Nat}
    {run : MigrationRun} {report : MigrationReport} {h : MigrationHistory}
    (hr : s.runs[i]? = some run) (finished : run.next = .finish (.ok report, h)) {m : Migration}
    (hm : m ∈ run.source.migrations) : m.tag ∈ s.store.tags := by
  have keeps := inv.keeps i run hr
  rw [finished] at keeps
  obtain ⟨_, _, _, acknowledged⟩ := keeps
  by_cases known : m.tag ∈ tagsRead run.past
  · exact inv.reads i run hr _ known
  · obtain ⟨c, hc, _, ht⟩ := inv.commit_of_acknowledged hr (acknowledged m hm known)
    rw [← inv.logged]
    exact List.mem_flatMap.mpr ⟨c, hc, ht⟩

/-- A run of a source whose migrations are all recorded: it has created and read the table at
most, each read reported the whole source, and none of its batches took effect. -/
structure Settled (source : MigrationSource) (j : Nat) (s : SharedStore σ) : Prop where
  recorded : ∀ m ∈ source.migrations, m.tag ∈ s.store.tags
  rerun : ∃ run, s.runs[j]? = some run ∧ run.source = source ∧ ∀ e ∈ run.past,
    (e.call.request = .exec HistoryTable.creation
        ∨ e.call.request = .exec HistoryTable.reading) ∧
      (IsRead e → ∀ m ∈ source.migrations, m.tag ∈ replyTags e.reply)
  silent : ∀ c ∈ s.log, c.run ≠ j

/-- What the reads of a settled run reported is the whole source. -/
theorem mem_tagsRead {past : List Exchange} {source : MigrationSource}
    (reads : ∀ e ∈ past, IsRead e → ∀ m ∈ source.migrations, m.tag ∈ replyTags e.reply)
    (read : ∃ e ∈ past, IsRead e) {m : Migration} (hm : m ∈ source.migrations) :
    m.tag ∈ tagsRead past := by
  obtain ⟨e, he, hread⟩ := read
  exact List.mem_flatMap.mpr
    ⟨e, List.mem_filter.mpr ⟨he, decide_eq_true hread⟩, reads e he hread m hm⟩

theorem settled_step {source : MigrationSource} {j : Nat} (inv : Coherent effect initial s)
    (settled : Settled source j s) (step : Step effect s s') : Settled source j s' := by
  have recorded' : ∀ m ∈ source.migrations, m.tag ∈ s'.store.tags := fun m hm =>
    tags_subset_step inv step (settled.recorded m hm)
  obtain ⟨own, hown, hsource, behind⟩ := settled.rerun
  cases step with
  | start h clock other =>
    exact ⟨recorded', ⟨own, start_runs_of_some hown, hsource, behind⟩, settled.silent⟩
  | @call i run call reply tookEffect store resume running next served =>
    have keeps := inv.keeps i run running
    rw [next] at keeps
    by_cases same : i = j
    · subst same
      cases Option.some.inj (running.symm.trans hown)
      have request : call.request = .exec HistoryTable.creation
          ∨ call.request = .exec HistoryTable.reading := by
        rcases keeps.1 with create | read | ⟨m, hm, _, pending, hread⟩
        · exact .inl create
        · exact .inr read
        · exact absurd (mem_tagsRead (fun e he => (behind e he).2) hread (hsource ▸ hm)) pending
      refine ⟨recorded', ⟨_, advance_runs_self running, hsource, ?_⟩, ?_⟩
      · intro e he
        rcases List.mem_append.mp he with old | new
        · exact behind e old
        · cases List.mem_singleton.mp new
          refine ⟨request, fun read m hm => ?_⟩
          rw [served_read served read]
          exact settled.recorded m hm
      · intro c hc
        rcases mem_log_advance keeps.1 hc with old | ⟨m, _, n, batch, -⟩
        · exact settled.silent c old
        · rw [batch] at request
          rcases request with create | read
          · cases create
          · cases read
    · refine ⟨recorded', ⟨own, ?_, hsource, behind⟩, ?_⟩
      · rw [advance, List.getElem?_set_ne same, hown]
      · intro c hc
        rcases mem_log_advance keeps.1 hc with old | ⟨m, _, _, _, rfl⟩
        · exact settled.silent c old
        · exact same

theorem settled_of_leads {source : MigrationSource} {j : Nat} (inv : Coherent effect initial s)
    (settled : Settled source j s) (leads : Leads effect s s') : Settled source j s' := by
  induction leads with
  | refl => exact settled
  | tail before step ih => exact settled_step (coherent_leads inv before) ih step

theorem settled_start {source : MigrationSource} (inv : Coherent effect initial s)
    (h : MigrationHistory) (clock : Nat → Int64)
    (recorded : ∀ m ∈ source.migrations, m.tag ∈ s.store.tags) :
    Settled source s.runs.length (s.start h clock source) := by
  refine ⟨recorded,
    ⟨{ clock, source, next := h.run clock source }, by simp [start], rfl, by simp⟩, ?_⟩
  intro c hc same
  obtain ⟨run, hr, _⟩ := inv.migrations c hc
  obtain ⟨hi, _⟩ := List.getElem?_eq_some_iff.mp hr
  omega

/-- A settled run that is over has applied nothing, unless the history could not be read. -/
theorem Settled.result {source : MigrationSource} {j : Nat} (settled : Settled source j s)
    (inv : Coherent effect initial s) {run : MigrationRun}
    {result : Except MigrationError MigrationReport} {h : MigrationHistory}
    (hr : s.runs[j]? = some run) (finished : run.next = .finish (result, h)) :
    (∃ message, result = .error (.history message)) ∨
      ∃ migrations, source.Has migrations ∧ result = .ok ⟨[], migrations.map (·.tag)⟩ := by
  obtain ⟨own, hown, hsource, behind⟩ := settled.rerun
  cases Option.some.inj (hr.symm.trans hown)
  have keeps := inv.keeps j run hr
  rw [finished] at keeps
  cases result with
  | error e =>
    rcases keeps with ⟨message, rfl⟩ | ⟨hread, m, hm, pending⟩
    · exact .inl ⟨message, rfl⟩
    · exact absurd (mem_tagsRead (fun e he => (behind e he).2) hread (hsource ▸ hm)) pending
  | ok report =>
    obtain ⟨hread, applied, skipped, _⟩ := keeps
    have known : ∀ tag ∈ run.source.migrations.map (·.tag), tag ∈ tagsRead run.past := by
      intro tag ht
      obtain ⟨m, hm, rfl⟩ := List.mem_map.mp ht
      exact mem_tagsRead (fun e he => (behind e he).2) hread (hsource ▸ hm)
    obtain ⟨ha, hs⟩ : report.applied = [] ∧ report.skipped = source.migrations.map (·.tag) := by
      constructor
      · rw [applied, List.filter_eq_nil_iff]
        intro tag ht
        simpa using known tag ht
      · rw [skipped, ← hsource, List.filter_eq_self]
        intro tag ht
        simpa using known tag ht
    exact .inr ⟨_, source.has_migrations, by rw [← ha, ← hs]⟩

/-- Every migration takes effect once and as a whole, and a run that succeeded need not be
repeated. -/
structure ExactlyOnce (effect : Statement → σ → Option σ) (initial s : SharedStore σ) : Prop where
  /-- No tag occurs twice in the history table. -/
  tags_nodup : s.store.tags.Nodup
  /-- For each recorded tag exactly one batch took effect: a migration of the source of its run,
  its statements followed by the record. -/
  one_batch : ∀ tag ∈ s.store.tags, ∃ before c after, s.log = before ++ c :: after ∧
    (∀ other ∈ before ++ after, tag ∉ other.tags) ∧
    ∃ run migrations m n, s.runs[c.run]? = some run ∧ run.source.Has migrations ∧
      m ∈ migrations ∧ m.tag = tag ∧
      c.statements = (splitStatements m.sql).map (⟨·, []⟩)
        ++ [HistoryTable.insertion tag (run.clock n)]
  /-- Nothing else took effect: each batch that did is recorded, and the rest of the store is what
  these batches made of it. -/
  nothing_else : (∀ c ∈ s.log, ∃ tag ∈ s.store.tags, tag ∈ c.tags) ∧
    (s.log.flatMap (·.statements)).foldlM (change effect) initial.store.data = some s.store.data
  /-- What a run reports as applied took effect through that run. -/
  applied : ∀ (i : Nat) run report h, s.runs[i]? = some run →
    run.next = .finish (.ok report, h) → ∀ tag ∈ report.applied,
      ∃ c ∈ s.log, c.run = i ∧ tag ∈ c.tags
  /-- A run of a source that starts after one that succeeded submits no batch, whatever other runs
  do, and reports all migrations as skipped unless the history cannot be read. -/
  idle_rerun : ∀ (i : Nat) run report h, s.runs[i]? = some run →
    run.next = .finish (.ok report, h) → ∀ h' clock' later,
      Leads effect (s.start h' clock' run.source) later →
        (∀ c ∈ later.log, c.run ≠ s.runs.length) ∧
          ∃ rerun, later.runs[s.runs.length]? = some rerun ∧
            (∀ e ∈ rerun.past, e.call.request = .exec HistoryTable.creation ∨
              e.call.request = .exec HistoryTable.reading) ∧
            ∀ result h'', rerun.next = .finish (result, h'') →
              (∃ message, result = .error (.history message)) ∨
                ∃ migrations, run.source.Has migrations ∧
                  result = .ok ⟨[], migrations.map (·.tag)⟩

/-- Whatever runs go on at once, in whatever order they call the store, and whichever of their calls
fail or lose their reply. -/
theorem migrations_exactly_once (h : initial.IsInitial) (leads : Leads effect initial s) :
    ExactlyOnce effect initial s := by
  have inv := coherent_leads (coherent_initial h) leads
  refine ⟨inv.nodup, fun tag ht => inv.commit_of_tag ht,
    ⟨fun c hc => inv.tag_of_commit hc, inv.data⟩,
    fun i run report h hr finished tag ht => inv.commit_of_applied hr finished ht, ?_⟩
  intro i run report h hr finished h' clock' later leads'
  have inv' := coherent_start inv h' clock' run.source
  have settled := settled_of_leads inv'
    (settled_start inv h' clock' fun m hm => inv.recorded_of_finished hr finished hm) leads'
  obtain ⟨rerun, hrerun, _, behind⟩ := settled.rerun
  refine ⟨settled.silent, rerun, hrerun, fun e he => (behind e he).1, ?_⟩
  exact fun result h'' ended => settled.result (coherent_leads inv' leads') hrerun ended

/-- A store without migrations, which is going to keep the texts that it executes. -/
def blankStore : SharedStore (List String) :=
  { store := { data := [] } }

def keepText (s : Statement) (data : List String) : Option (List String) :=
  some (data ++ [s.sql])

/-- A run whose only batch takes effect while its reply is lost. -/
theorem migrations_exactly_once_lost_reply :
    ∃ s, Leads keepText blankStore s ∧ s.store.tags = ["0000_a"] ∧
      s.store.data = ["CREATE TABLE a (x)"] ∧ ExactlyOnce keepText blankStore s := by
  let m : Migration := ⟨0, "0000_a", "CREATE TABLE a (x);"⟩
  let before : HistoryStore (List String) := ⟨some [], []⟩
  let after : HistoryStore (List String) := ⟨some [⟨1, "0000_a", 0⟩], ["CREATE TABLE a (x)"]⟩
  have split : splitStatements m.sql = ["CREATE TABLE a (x)"] := by decide +kernel
  have created : blankStore.store.carryOut keepText (.exec HistoryTable.creation)
      = some before := by
    rw [carryOut, if_pos rfl]
    rfl
  have read : before.carryOut keepText (.exec HistoryTable.reading) = some before := by
    rw [carryOut, if_neg HistoryTable.reading_ne_creation, if_pos rfl]
    rfl
  have applied : before.carryOut keepText (.batch (m.batch 0)) = some after := by
    simp only [Migration.batch, split, carryOut, List.map_cons, List.map_nil, List.cons_append,
      List.nil_append, List.foldlM_cons, List.foldlM_nil, execute, recorded?_insertion,
      recorded?_unbound]
    rfl
  have started : Step keepText blankStore
      (blankStore.start {} (fun _ => 0) (.bundle ⟨[m]⟩)) := .start _ _ _
  have createdThen : Serves keepText blankStore.store ⟨.exec HistoryTable.creation, none⟩
      (.ok [] {}) true before := .answered created rfl fun h => absurd h (by decide)
  have readThen : Serves keepText before ⟨.exec HistoryTable.reading, none⟩ (.ok [] {}) true
      before := .answered read rfl fun _ => rfl
  have lostThen : Serves keepText before ⟨.batch (m.batch 0), none⟩ (.failure "reply lost") true
      after := .lost applied rfl
  have leads := ((Relation.ReflTransGen.single started).tail
    (Step.call (i := 0) rfl rfl createdThen)).tail (Step.call (i := 0) rfl rfl readThen)
      |>.tail (Step.call (i := 0) rfl rfl lostThen)
  exact ⟨_, leads, rfl, rfl, migrations_exactly_once ⟨rfl, rfl, rfl⟩ leads⟩

end SharedStore

end Tabularium
