import Mathlib.Data.List.DropRight
import Tabularium.Proofs.Store.Contract
import Tabularium.Store.Session

namespace Tabularium

namespace Session

/-- What a caller asks of a session. -/
inductive Command where
  | exec (statement : Statement)
  | batch (statements : List Statement)
  | raw (statement : Statement) (columnNames : Bool)
  | script (sql : String)
  | fetch (q : Query)
  | first (q : Query)
  | insert (table : String) (row : Row)
  | update (table : String) (conditions : Json) (patch : Row)
  | delete (table : String) (conditions : Json)
  | count (table : String) (conditions : Json)
  | clear

namespace Command

/-- The session after what was asked of it. -/
def carryOut : Command → Session → Dialogue Session
  | exec statement, s => Prod.snd <$> s.exec statement
  | batch statements, s => Prod.snd <$> s.perform (.batch statements)
  | raw statement columnNames, s => Prod.snd <$> s.perform (.raw statement columnNames)
  | script sql, s => Prod.snd <$> s.perform (.script sql)
  | fetch q, s => Prod.snd <$> s.fetch q
  | first q, s => Prod.snd <$> s.first q
  | insert table row, s => Prod.snd <$> s.insert table row
  | update table conditions patch, s => Prod.snd <$> s.update table conditions patch
  | delete table conditions, s => Prod.snd <$> s.delete table conditions
  | count table conditions, s => Prod.snd <$> s.count table conditions
  | clear, s => pure s.clear

def fetches : Command → Bool
  | fetch _ | first _ => true
  | _ => false

def clears : Command → Bool
  | clear => true
  | _ => false

end Command

/-- The bookmark of the last success that reports one. -/
def latest (replies : List RowsResult) : Option String :=
  ((replies.filter (·.success)).filterMap fun r => r.info.bind (·.bookmark)).getLast?

/-- The replies up to the first failed one, which is among them. -/
def upToFailure : List RowsResult → List RowsResult
  | [] => []
  | r :: rs => if r.success then r :: upToFailure rs else [r]

/-- The replies behind the first failed one. -/
def behindFailure : List RowsResult → List RowsResult
  | [] => []
  | r :: rs => if r.success then behindFailure rs else rs

variable {db : Database} {s s' : Session}

@[simp] theorem latest_nil : latest [] = none := rfl

theorem latest_append (rs rs' : List RowsResult) :
    latest (rs ++ rs') = (latest rs').or (latest rs) := by
  simp [latest, List.filter_append, List.filterMap_append, List.getLast?_append]

theorem latest_cons (r : RowsResult) (rs : List RowsResult) :
    latest (r :: rs) = (latest rs).or (latest [r]) :=
  latest_append [r] rs

theorem upToFailure_append_behindFailure (rs : List RowsResult) :
    upToFailure rs ++ behindFailure rs = rs := by
  induction rs with
  | nil => rfl
  | cons r rs ih => cases hr : r.success <;> simp [upToFailure, behindFailure, hr, ih]

theorem observe_current (t : BookmarkTracker) (r : RowsResult) :
    (t.observe r).current = (latest [r]).or t.current := by
  cases hr : r.success with
  | false => simp [BookmarkTracker.observe, latest, hr]
  | true =>
    have told : r.bookmark = r.info.bind (·.bookmark) := rfl
    cases hb : r.info.bind (·.bookmark) <;>
      simp [BookmarkTracker.observe, latest, hr, hb, told]

theorem observe_bookmark (s : Session) (r : RowsResult) :
    (s.observe r).bookmark = (latest [r]).or s.bookmark :=
  observe_current s.bookmarks r

/-- What an operation may call for: its first call carries the bookmark of the session, and any
further one is for related rows and carries the bookmark behind the first reply. -/
def Allows (s : Session) (fetches : Bool) : List Exchange → Call → Prop
  | [], call => call.bookmark = s.bookmark
  | base :: _, call => fetches = true ∧ call.bookmark = (latest [base.reply]).or s.bookmark

/-- The session behind an operation has observed the replies up to the first failed one. -/
def Observed (s : Session) (es : List Exchange) (later : Session) : Prop :=
  later.bookmark = (latest (upToFailure (es.map (·.reply)))).or s.bookmark

theorem observed_nil (s : Session) : Observed s [] s := rfl

theorem observed_one (s : Session) (e : Exchange) : Observed s [e] (s.observe e.reply) := by
  have one : upToFailure [e.reply] = [e.reply] := by
    cases hr : e.reply.success <;> simp [upToFailure, hr]
  rw [Observed, List.map_singleton, one]
  exact observe_bookmark s e.reply

theorem keeps_perform {fetches : Bool} (op : Operation) :
    Dialogue.Keeps (Allows s fetches) (fun es answer => Observed s es answer.2) []
      (s.perform op) :=
  ⟨rfl, fun reply => observed_one s ⟨⟨op.request, s.bookmark⟩, reply⟩⟩

/-- Executing a statement is one exchange, whose reply is the answer. -/
theorem keeps_exec {fetches : Bool} (statement : Statement) :
    Dialogue.Keeps (Allows s fetches)
      (fun es answer => ∃ e, es = [e] ∧ answer = (e.reply, s.observe e.reply)) []
      (s.exec statement) := by
  refine ⟨rfl, fun reply => ⟨⟨⟨.exec statement, s.bookmark⟩, reply⟩, rfl, ?_⟩⟩
  have same : reply.map (Operation.exec statement).shape = reply := by
    obtain ⟨success, data, results, error, info⟩ := reply
    cases data <;> rfl
  exact congrArg (·, s.observe reply) same

theorem keeps_execCompiled {fetches : Bool} (statement : Except CompileError Statement) :
    Dialogue.Keeps (Allows s fetches) (fun es answer => Observed s es answer.2) []
      (s.execCompiled statement) := by
  cases statement with
  | error e => exact observed_nil s
  | ok statement =>
    refine Dialogue.keeps_bind (keeps_exec statement) ?_
    rintro _ _ ⟨e, rfl, rfl⟩
    exact observed_one s e

/-- All statements for related rows carry one bookmark, and the replies to them are kept in
order. -/
theorem keeps_askRelated {base : Exchange} (more : List Exchange) {carried : Option String}
    (hc : carried = (latest [base.reply]).or s.bookmark) (rows : List Row)
    (relations : List Relation) :
    Dialogue.Keeps (Allows s true)
      (fun es (replies : List (Relation × Option RowsResult)) => ∃ related,
        es = base :: more ++ related ∧ replies.filterMap (·.2) = related.map (·.reply))
      (base :: more) (askRelated carried rows relations) := by
  induction relations generalizing more with
  | nil => exact ⟨[], by simp⟩
  | cons r relations ih =>
    unfold askRelated
    cases r.relatedStatement? rows with
    | none =>
      show Dialogue.Keeps _ _ _
        (askRelated carried rows relations >>= fun replies => pure ((r, none) :: replies))
      refine Dialogue.keeps_bind (ih more) ?_
      rintro _ replies ⟨related, rfl, hreplies⟩
      exact ⟨related, rfl, by simpa using hreplies⟩
    | some statement =>
      refine ⟨⟨rfl, hc⟩, fun reply => ?_⟩
      show Dialogue.Keeps _ _ (base :: (more ++ [_]))
        (askRelated carried rows relations >>= fun replies => pure ((r, some reply) :: replies))
      refine Dialogue.keeps_bind (ih (more ++ [_])) ?_
      rintro _ replies ⟨related, rfl, hreplies⟩
      refine ⟨⟨⟨.exec statement, carried⟩, reply⟩ :: related, by simp, ?_⟩
      simpa using hreplies

/-- Replies are observed up to the first failed one: the ones behind it are dropped. -/
theorem attachReplies_bookmark (s : Session) (rows : List Row)
    (replies : List (Relation × Option RowsResult)) :
    (s.attachReplies rows replies).2.bookmark
      = (latest (upToFailure (replies.filterMap (·.2)))).or s.bookmark := by
  induction replies generalizing s rows with
  | nil => rfl
  | cons reply replies ih =>
    obtain ⟨r, reply⟩ := reply
    cases reply with
    | none => exact ih s _
    | some reply =>
      cases hr : reply.success with
      | false =>
        -- the replies behind this one are not looked at
        simp [attachReplies, upToFailure, hr, observe_bookmark]
      | true =>
        simp only [attachReplies, upToFailure, hr, if_true, List.filterMap_cons]
        rw [ih, observe_bookmark, latest_cons reply (upToFailure _), Option.or_assoc]

theorem keeps_fetchWith (q : Query) (statement : Statement) :
    Dialogue.Keeps (Allows s true) (fun es answer => Observed s es answer.2) []
      (s.fetchWith q statement) := by
  unfold fetchWith
  cases q.relations s.database.relations with
  | error e => exact observed_nil s
  | ok relations =>
    refine Dialogue.keeps_bind (keeps_exec statement) ?_
    rintro _ _ ⟨base, rfl, rfl⟩
    dsimp only
    split
    next => exact observed_one s base
    next rest =>
      have success : base.reply.success = true := by
        by_contra failed
        simp [failed] at rest
      refine Dialogue.keeps_bind
        (keeps_askRelated [] (observe_bookmark s base.reply) (base.reply.data.getD []) relations) ?_
      rintro _ replies ⟨related, rfl, hreplies⟩
      have behind :=
        attachReplies_bookmark (s.observe base.reply) (base.reply.data.getD []) replies
      rw [hreplies, observe_bookmark, ← Option.or_assoc, ← latest_cons base.reply] at behind
      have observed : Observed s ([base] ++ related)
          ((s.observe base.reply).attachReplies (base.reply.data.getD []) replies).2 := by
        simpa [Observed, upToFailure, success] using behind
      generalize (s.observe base.reply).attachReplies (base.reply.data.getD []) replies = answer
        at observed ⊢
      obtain ⟨failure | rows, later⟩ := answer
      · exact observed
      · exact observed

theorem keeps_first (q : Query) :
    Dialogue.Keeps (Allows s true) (fun es answer => Observed s es answer.2) [] (s.first q) := by
  unfold first
  cases q.compileFirst with
  | error e => exact observed_nil s
  | ok statement => exact Dialogue.keeps_bind (keeps_fetchWith q statement) fun _ _ h => h

theorem keeps_carryOut (c : Command) (hc : c.clears = false) :
    Dialogue.Keeps (Allows s c.fetches) (Observed s) [] (c.carryOut s) := by
  cases c with
  | exec statement => exact Dialogue.keeps_map (keeps_perform (.exec statement))
  | batch statements => exact Dialogue.keeps_map (keeps_perform (.batch statements))
  | raw statement names => exact Dialogue.keeps_map (keeps_perform (.raw statement names))
  | script sql => exact Dialogue.keeps_map (keeps_perform (.script sql))
  | fetch q =>
    refine Dialogue.keeps_map ?_
    unfold fetch
    cases q.compile with
    | error e => exact observed_nil s
    | ok statement => exact keeps_fetchWith q statement
  | first q => exact Dialogue.keeps_map (keeps_first q)
  | insert table row => exact Dialogue.keeps_map (keeps_execCompiled _)
  | update table conditions patch => exact Dialogue.keeps_map (keeps_execCompiled _)
  | delete table conditions => exact Dialogue.keeps_map (keeps_execCompiled _)
  | count table conditions =>
    exact Dialogue.keeps_map (Dialogue.keeps_bind (keeps_execCompiled _) fun _ _ h => h)
  | clear => cases hc

/-- One operation of a session: what was asked of it, its calls with the replies to them, and the
bookmark of the session behind it. -/
structure Turn where
  command : Command
  exchanges : List Exchange
  bookmark : Option String

namespace Turn

def received (t : Turn) : List RowsResult :=
  t.exchanges.map (·.reply)

def observed (t : Turn) : List RowsResult :=
  upToFailure t.received

end Turn

/-- What a session can go through from the moment it is opened. -/
inductive Runs (db : Database) : List Turn → Session → Prop
  | opened : Runs db [] { database := db }
  | turn {turns : List Turn} {s s' : Session} {c : Command} {es : List Exchange}
    (before : Runs db turns s) (played : (c.carryOut s).Plays es s') :
    Runs db (turns ++ [⟨c, es, s'.bookmark⟩]) s'

/-- The replies since the session was opened or last cleared; of each operation those picked. -/
def repliesSince (pick : Turn → List RowsResult) (turns : List Turn) : List RowsResult :=
  (turns.rtakeWhile fun t => !t.command.clears).flatMap pick

/-- An operation behind others carries the latest of the replies picked, and leaves the session
with it. Only the calls for related rows, which carry the latest one behind the first reply, come
behind another call. -/
structure Turn.Carries (pick : Turn → List RowsResult) (past : List Turn) (t : Turn) : Prop where
  silent : t.command.clears = true → t.exchanges = []
  first : ∀ e ∈ t.exchanges.head?, e.call.bookmark = latest (repliesSince pick past)
  related : ∀ base es, t.exchanges = base :: es → ∀ e ∈ es,
    t.command.fetches = true ∧ e.call.bookmark = latest (repliesSince pick past ++ [base.reply])
  after : t.bookmark = latest (repliesSince pick (past ++ [t]))

/-- A success behind the first failed reply of an operation reports a bookmark, which the session
does not have otherwise. -/
def Turn.Misses (past : List Turn) (t : Turn) : Prop :=
  ∃ b, latest (behindFailure t.received) = some b ∧
    latest (repliesSince Turn.received past ++ t.observed) ≠ some b

variable {turns past : List Turn} {t : Turn} {c : Command} {es : List Exchange}

theorem repliesSince_clear (pick : Turn → List RowsResult) (past : List Turn)
    (ht : t.command.clears = true) : repliesSince pick (past ++ [t]) = [] := by
  rw [repliesSince, List.rtakeWhile_concat_neg _ _ _ (by simp [ht])]
  rfl

theorem repliesSince_concat (pick : Turn → List RowsResult) (past : List Turn)
    (ht : t.command.clears = false) :
    repliesSince pick (past ++ [t]) = repliesSince pick past ++ pick t := by
  rw [repliesSince, List.rtakeWhile_concat_pos _ _ _ (by simp [ht])]
  simp [repliesSince]

theorem plays_clears (hc : c.clears = true) (played : (c.carryOut s).Plays es s') :
    es = [] ∧ s' = s.clear := by
  cases c with
  | clear => cases played; exact ⟨rfl, rfl⟩
  | _ => cases hc

/-- The session has the latest of the bookmarks that it observed. -/
theorem Runs.bookmark_eq (run : Runs db turns s) :
    s.bookmark = latest (repliesSince Turn.observed turns) := by
  induction run with
  | opened => rfl
  | @turn turns s s' c es before played ih =>
    cases hc : c.clears with
    | true =>
      obtain ⟨rfl, rfl⟩ := plays_clears hc played
      rw [repliesSince_clear _ _ hc]
      rfl
    | false =>
      obtain ⟨observed, -⟩ := played.kept (keeps_carryOut c hc)
      rw [repliesSince_concat _ _ hc, latest_append, ← ih]
      exact observed

theorem Runs.turn_carries (before : Runs db past s) (played : (c.carryOut s).Plays es s') :
    Turn.Carries Turn.observed past ⟨c, es, s'.bookmark⟩ := by
  have after := (before.turn played).bookmark_eq
  have known := before.bookmark_eq
  cases hc : c.clears with
  | true =>
    obtain ⟨rfl, rfl⟩ := plays_clears hc played
    exact ⟨fun _ => rfl, by simp, by simp, after⟩
  | false =>
    obtain ⟨-, allowed⟩ := played.kept (keeps_carryOut c hc)
    refine ⟨by simp [hc], ?_, ?_, after⟩
    · intro e he
      have start : [] ++ [e] <+: es := by
        obtain ⟨rest, rfl⟩ := List.head?_eq_some_iff.mp he
        exact ⟨rest, rfl⟩
      exact (allowed [] e start).trans known
    · intro base related hes e he
      obtain ⟨earlier, later, rfl⟩ := List.append_of_mem he
      have start : (base :: earlier) ++ [e] <+: es := ⟨later, by simpa using hes.symm⟩
      obtain ⟨fetches, carried⟩ := allowed (base :: earlier) e start
      refine ⟨fetches, ?_⟩
      rw [carried, known, latest_append]

/-- Every operation of a run carries the latest of the bookmarks that the session observed. -/
theorem Runs.carries_observed (run : Runs db turns s) (ht : past ++ [t] <+: turns) :
    t.Carries Turn.observed past := by
  induction run with
  | opened => simp at ht
  | @turn turns s s' c es before played ih =>
    rcases List.prefix_concat_iff.mp ht with last | earlier
    · obtain ⟨rfl, rfl⟩ := List.append_singleton_inj.mp last
      exact before.turn_carries played
    · exact ih earlier

/-- The replies picked matter to an operation by the latest bookmark among them only. -/
theorem Turn.Carries.congr {pick pick' : Turn → List RowsResult} (carries : t.Carries pick past)
    (before : latest (repliesSince pick past) = latest (repliesSince pick' past))
    (behind : latest (repliesSince pick (past ++ [t]))
      = latest (repliesSince pick' (past ++ [t]))) : t.Carries pick' past where
  silent := carries.silent
  first e he := (carries.first e he).trans before
  related base es hes e he := by
    obtain ⟨fetches, carried⟩ := carries.related base es hes e he
    rw [latest_append, before, ← latest_append] at carried
    exact ⟨fetches, carried⟩
  after := carries.after.trans behind

/-- An operation that misses nothing leaves the latest of all replies to be the latest of those up
to the first failed one. -/
theorem Turn.not_misses_iff (ht : t.command.clears = false) :
    ¬ t.Misses past ↔ latest (repliesSince received (past ++ [t]))
      = latest (repliesSince received past ++ t.observed) := by
  have split : repliesSince received (past ++ [t])
      = repliesSince received past ++ t.observed ++ behindFailure t.received := by
    rw [repliesSince_concat _ _ ht, List.append_assoc, observed, upToFailure_append_behindFailure]
  rw [split, latest_append, Misses]
  cases latest (behindFailure t.received) with
  | none => simp
  | some b => simp [eq_comm]

theorem latest_observed_concat (ht : t.command.clears = false)
    (before : latest (repliesSince Turn.received past) = latest (repliesSince Turn.observed past)) :
    latest (repliesSince Turn.observed (past ++ [t]))
      = latest (repliesSince Turn.received past ++ t.observed) := by
  rw [repliesSince_concat _ _ ht, latest_append, latest_append, before]

/-- Where every operation carried the latest bookmark of all replies, so did those up to the first
failures. -/
theorem Runs.latest_of_carries (run : Runs db turns s)
    (carries : ∀ past t, past ++ [t] <+: turns → t.Carries Turn.received past)
    (hp : past <+: turns) :
    latest (repliesSince Turn.received past) = latest (repliesSince Turn.observed past) := by
  obtain rfl | ⟨past, t, rfl⟩ := List.eq_nil_or_concat' past
  · rfl
  · have all := (carries past t hp).after
    have observed := (run.carries_observed hp).after
    exact all.symm.trans observed

theorem latest_of_complete (complete : ∀ past t, past ++ [t] <+: turns → ¬ t.Misses past)
    (hp : past <+: turns) :
    latest (repliesSince Turn.received past) = latest (repliesSince Turn.observed past) := by
  induction past using List.reverseRecOn with
  | nil => rfl
  | append_singleton past t ih =>
    cases hc : t.command.clears with
    | true => rw [repliesSince_clear _ _ hc, repliesSince_clear _ _ hc]
    | false =>
      have before := ih ((List.prefix_append past [t]).trans hp)
      rw [(Turn.not_misses_iff hc).mp (complete past t hp), latest_observed_concat hc before]

/-- A session carries the latest bookmark of all its replies throughout a run exactly when no
operation of the run misses one: behind the first failed statement for related rows, no success
reports a bookmark other than the one that the session keeps. -/
theorem carries_latest_iff (run : Runs db turns s) :
    (∀ past t, past ++ [t] <+: turns → t.Carries Turn.received past) ↔
      ∀ past t, past ++ [t] <+: turns → ¬ t.Misses past := by
  constructor
  · intro carries past t ht
    cases hc : t.command.clears with
    | true =>
      have silent := (run.carries_observed ht).silent hc
      simp [Turn.Misses, Turn.received, silent, behindFailure]
    | false =>
      have before := run.latest_of_carries carries ((List.prefix_append past [t]).trans ht)
      have behind := run.latest_of_carries carries ht
      rw [Turn.not_misses_iff hc, behind, latest_observed_concat hc before]
  · intro complete past t ht
    have before := latest_of_complete complete ((List.prefix_append past [t]).trans ht)
    have behind := latest_of_complete complete ht
    exact (run.carries_observed ht).congr before.symm behind.symm

def board : Schema :=
  ⟨"board", 1,
    [⟨"users", [{ name := "id", type := .integer, primaryKey := true }], [], []⟩,
      ⟨"teams", [{ name := "id", type := .integer, primaryKey := true }], [], []⟩,
      ⟨"posts", [{ name := "userId", type := .integer }, { name := "teamId", type := .integer }],
        [], []⟩]⟩

def lookup : Query :=
  { table := "posts", includes := ["users", "teams"] }

/-- One post is read, its user is not, and the reply for its team is left open. -/
def brokenLookup (last : RowsResult) : Turn :=
  ⟨.fetch lookup,
    [⟨⟨.exec ⟨"SELECT * FROM posts", []⟩, none⟩,
        .ok [.ofList [("userId", .int 1), ("teamId", .int 2)]] { bookmark := some "b1" }⟩,
      ⟨⟨.exec ⟨"SELECT * FROM users WHERE id IN (?)", [.int 1]⟩, some "b1"⟩, .failure "down"⟩,
      ⟨⟨.exec ⟨"SELECT * FROM teams WHERE id IN (?)", [.int 2]⟩, some "b1"⟩, last⟩],
    some "b1"⟩

theorem runs_brokenLookup (last : RowsResult) :
    Runs ⟨board, .resolve board⟩ [brokenLookup last] ⟨⟨board, .resolve board⟩, ⟨some "b1"⟩⟩ := by
  have compiled : lookup.compile = .ok ⟨"SELECT * FROM posts", []⟩ := by rfl
  have relations : lookup.relations (.resolve board) =
      .ok [⟨"users", .belongsTo, "posts", "users", "userId", "id"⟩,
        ⟨"teams", .belongsTo, "posts", "teams", "teamId", "id"⟩] := by rfl
  have played : ((Command.fetch lookup).carryOut { database := ⟨board, .resolve board⟩ }).Plays
      (brokenLookup last).exchanges ⟨⟨board, .resolve board⟩, ⟨some "b1"⟩⟩ := by
    rw [Command.carryOut, fetch, compiled]
    dsimp only
    rw [fetchWith, relations]
    exact .ask (.ask (.ask (.finish _)))
  exact Runs.opened.turn played

/-- The reply behind the failure repeats the bookmark that the session has. -/
theorem carries_latest_iff_repeated :
    Runs ⟨board, .resolve board⟩ [brokenLookup (.ok [] { bookmark := some "b1" })]
        ⟨⟨board, .resolve board⟩, ⟨some "b1"⟩⟩ ∧
      ∀ past t, past ++ [t] <+: [brokenLookup (.ok [] { bookmark := some "b1" })] →
        t.Carries Turn.received past := by
  have run := runs_brokenLookup (.ok [] { bookmark := some "b1" })
  refine ⟨run, (carries_latest_iff run).mpr ?_⟩
  intro past t ht
  have one : past ++ [t] = [] ++ [brokenLookup (.ok [] { bookmark := some "b1" })] :=
    (List.prefix_concat_iff.mp ht).resolve_right (by simp)
  obtain ⟨rfl, rfl⟩ := List.append_singleton_inj.mp one
  rintro ⟨b, hb, other⟩
  exact other hb

/-- The bookmark of a success behind the failure is lost, although its reply was received. -/
theorem bookmark_lost_behind_failure :
    Runs ⟨board, .resolve board⟩ [brokenLookup (.ok [] { bookmark := some "b2" })]
        ⟨⟨board, .resolve board⟩, ⟨some "b1"⟩⟩ ∧
      ¬ (brokenLookup (.ok [] { bookmark := some "b2" })).Carries Turn.received [] := by
  refine ⟨runs_brokenLookup _, fun carries => ?_⟩
  have kept : some "b1" = some "b2" := carries.after
  exact absurd kept (by decide)

end Session

end Tabularium
