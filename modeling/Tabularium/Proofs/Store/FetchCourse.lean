import Mathlib.Data.List.ReduceOption
import Tabularium.Proofs.Outcome
import Tabularium.Proofs.Store.Contract
import Tabularium.Store.Session

namespace Tabularium

namespace Relation

variable {r : Relation} {rows : List Row}

/-- Some row has a key for the relation; null is none. -/
def hasKey (r : Relation) (rows : List Row) : Bool :=
  rows.any fun row => (row.get? r.keyColumn).any fun key => !key.isNull

/-- The keys that rows have for the relation, each text once where it occurs first. -/
def keysOf (r : Relation) (rows : List Row) : List Json :=
  ((rows.filterMap fun row => row.get? r.keyColumn).filter fun key => !key.isNull).eraseDupsBy
    fun key earlier => key.compact == earlier.compact

/-- The statement for the rows that some keys are looked up for. -/
def statementFor (r : Relation) (keys : List Json) : Statement :=
  ⟨"SELECT * FROM " ++ r.related ++ " WHERE " ++ r.filterColumn ++ " IN ("
    ++ SqlValue.placeholders keys.length ++ ")", keys.map SqlValue.ofJson⟩

/-- The rows found that have a key, by its text. -/
def rowsSharing (r : Relation) (key : Json) (found : List Row) : List Row :=
  found.filter fun row => (row.get? r.filterColumn).any fun value => value.compact == key.compact

/-- What a row is given of the rows found: the last one that has its key or null, or all that have
its key. A row without a key is given nothing; null is no key of a row that refers to one row. -/
def given (r : Relation) (found : List Row) (row : Row) : Json :=
  match r.kind, row.get? r.keyColumn with
  | .belongsTo, some key =>
    if key.isNull then .null else ((r.rowsSharing key found).getLast?.map Json.ofRow).getD .null
  | .belongsTo, none => .null
  | .hasMany, some key => .list ((r.rowsSharing key found).map Json.ofRow)
  | .hasMany, none => .list []

/-- The row with what it is given for each relation put under the name of it. -/
def extend (found : List (Relation × List Row)) (row : Row) : Row :=
  found.foldl (fun row f => row.insert f.1.name (f.1.given f.2 row)) row

theorem attachment_eq (r : Relation) (found : List Row) (row : Row) :
    r.attachment found row = r.given found row := by
  unfold attachment given rowsSharing keyColumn filterColumn
  cases r.kind with
  | belongsTo =>
    cases row.get? r.foreignKey with
    | none => rfl
    | some key => cases hnull : key.isNull <;> simp [Option.filter_some, hnull, rowsWithKey]
  | hasMany => cases row.get? r.targetKey <;> rfl

theorem attach_eq (r : Relation) (rows found : List Row) :
    r.attach rows found = rows.map fun row => row.insert r.name (r.given found row) := by
  simp only [attach, attachment_eq]

theorem distinctKeys_eq (seen : List String) (keys : List Json) :
    distinctKeys seen keys = (keys.filter fun key => !seen.contains key.compact).eraseDupsBy
      fun key earlier => key.compact == earlier.compact := by
  induction keys generalizing seen with
  | nil => rfl
  | cons key keys ih =>
    rw [distinctKeys]
    split
    next known => rw [ih, List.filter_cons_of_neg (by simpa using known)]
    next fresh =>
      rw [ih, List.filter_cons_of_pos (by simpa using fresh), List.eraseDupsBy_cons,
        List.filter_filter]
      have same : (fun k : Json => !(key.compact :: seen).contains k.compact)
          = fun k => decide ((k.compact == key.compact) = false) && !seen.contains k.compact := by
        funext k
        by_cases hk : k.compact = key.compact <;> simp [hk]
      rw [same]

theorem lookupKeys_eq (r : Relation) (rows : List Row) :
    lookupKeys r.keyColumn rows = r.keysOf rows := by
  rw [lookupKeys, distinctKeys_eq]
  simp [keysOf]

/-- A row has a key exactly when there is a key to look up. -/
theorem keysOf_eq_nil_iff : r.keysOf rows = [] ↔ r.hasKey rows = false := by
  have nonempty : ∀ keys : List Json, (keys.eraseDupsBy fun key earlier =>
      key.compact == earlier.compact) = [] ↔ keys = [] := by
    intro keys
    cases keys with
    | nil => exact iff_of_true rfl rfl
    | cons key keys => simp [List.eraseDupsBy_cons]
  rw [keysOf, nonempty, List.filter_eq_nil_iff, ← Bool.not_eq_true, hasKey, List.any_eq_true]
  simp only [List.mem_filterMap, Option.any_eq_true]
  constructor
  · rintro none ⟨row, hr, key, hk, there⟩
    exact none key ⟨row, hr, hk⟩ there
  · rintro none key ⟨row, hr, hk⟩ there
    exact none ⟨row, hr, key, hk, there⟩

/-- There is a statement for related rows exactly when a row has a key, and it looks up the keys. -/
theorem relatedStatement?_eq (r : Relation) (rows : List Row) :
    r.relatedStatement? rows
      = if r.hasKey rows then some (r.statementFor (r.keysOf rows)) else none := by
  rw [relatedStatement?, lookupKeys_eq]
  cases hk : r.hasKey rows with
  | false =>
    rw [keysOf_eq_nil_iff.mpr hk]
    rfl
  | true =>
    have keyed : r.keysOf rows ≠ [] := fun none => by
      rw [keysOf_eq_nil_iff.mp none] at hk
      cases hk
    obtain ⟨key, keys, split⟩ := List.exists_cons_of_ne_nil keyed
    rw [split]
    rfl

end Relation

namespace Session

open Dialogue

variable {s : Session} {q : Query} {statement : Statement} {relations : List Relation}
  {compiled : Except CompileError Statement} {es : List Exchange}

/-- What is exchanged about a relation: one look-up of the keys that the rows have, if any. -/
def Looks (bookmark : Option String) (rows : List Row) (r : Relation) : Option Exchange → Prop
  | none => r.hasKey rows = false
  | some e => r.hasKey rows = true
    ∧ e.call = ⟨.exec (r.statementFor (r.keysOf rows)), bookmark⟩

/-- The related rows that an exchange brought. -/
def rowsFrom (e : Option Exchange) : List Row :=
  (e.bind (·.reply.data)).getD []

/-- The query is not sent: it does not compile, or else one of its includes, the first such one, has
no relation. -/
inductive Refuses (m : RelationMap) (q : Query) (compiled : Except CompileError Statement) :
    CompileError → Prop
  | uncompiled {e : CompileError} (failed : compiled = .error e) : Refuses m q compiled e
  | unrelated {statement : Statement} {before after : List String} {table : String}
    (succeeded : compiled = .ok statement) (split : q.includes = before ++ table :: after)
    (related : ∀ t ∈ before, (m.get? q.table t).isSome)
    (unrelated : m.get? q.table table = none) :
    Refuses m q compiled (.unknownRelation q.table table)

/-- The query compiles to a statement, and its includes have the relations. -/
structure Accepts (m : RelationMap) (q : Query) (compiled : Except CompileError Statement)
    (statement : Statement) (relations : List Relation) : Prop where
  compiled : compiled = .ok statement
  related : List.Forall₂ (fun table r => m.get? q.table table = some r) q.includes relations

/-- The exchanges of a fetch with what it comes to. After the statement of the query there is one
look-up for each relation that a row has a key for; the first failed reply is the answer, and
without one the rows with all that was found. -/
inductive FetchCourse (s : Session) (q : Query) (compiled : Except CompileError Statement) :
    List Exchange → Except CompileError RowsResult → Prop
  | refused {e : CompileError} (refused : Refuses s.database.relations q compiled e) :
    FetchCourse s q compiled [] (.error e)
  | failed {base : Exchange} {statement : Statement} {relations : List Relation}
    (accepted : Accepts s.database.relations q compiled statement relations)
    (asked : base.call = ⟨.exec statement, s.bookmark⟩) (failed : base.reply.success = false) :
    FetchCourse s q compiled [base] (.ok base.reply)
  | alone {base : Exchange} {statement : Statement}
    (accepted : Accepts s.database.relations q compiled statement [])
    (asked : base.call = ⟨.exec statement, s.bookmark⟩) (succeeded : base.reply.success = true) :
    FetchCourse s q compiled [base] (.ok base.reply)
  | stopped {base e : Exchange} {statement : Statement} {relations : List Relation}
    {found : List (Option Exchange)}
    (accepted : Accepts s.database.relations q compiled statement relations)
    (asked : base.call = ⟨.exec statement, s.bookmark⟩) (succeeded : base.reply.success = true)
    (looked : List.Forall₂ (Looks (s.observe base.reply).bookmark (base.reply.data.getD []))
      relations found)
    (first : found.reduceOption.find? (fun e => !e.reply.success) = some e) :
    FetchCourse s q compiled (base :: found.reduceOption) (.ok e.reply)
  | extended {base : Exchange} {statement : Statement} {relations : List Relation}
    {found : List (Option Exchange)}
    (accepted : Accepts s.database.relations q compiled statement relations)
    (asked : base.call = ⟨.exec statement, s.bookmark⟩) (succeeded : base.reply.success = true)
    (included : relations ≠ [])
    (looked : List.Forall₂ (Looks (s.observe base.reply).bookmark (base.reply.data.getD []))
      relations found)
    (all : ∀ e ∈ found.reduceOption, e.reply.success = true) :
    FetchCourse s q compiled (base :: found.reduceOption)
      (.ok { base.reply with data := some ((base.reply.data.getD []).map
        (Relation.extend (relations.zip (found.map rowsFrom)))) })

/-- Executing a statement is one exchange, whose reply is the answer. -/
theorem exec_plays {answer : RowsResult × Session} (played : (s.exec statement).Plays es answer) :
    ∃ e : Exchange, es = [e] ∧ e.call = ⟨.exec statement, s.bookmark⟩
      ∧ answer = (e.reply, s.observe e.reply) := by
  cases played with
  | @ask _ _ reply _ _ finished =>
    cases finished
    refine ⟨_, rfl, rfl, ?_⟩
    have same : reply.map (Operation.exec statement).shape = reply := by
      obtain ⟨success, data, results, error, info⟩ := reply
      cases data <;> rfl
    exact congrArg (·, s.observe reply) same

/-- The relations of a query are those of its includes, or the first include without one is the
error. -/
theorem relations_course (q : Query) (m : RelationMap) :
    (∃ relations, q.relations m = .ok relations
        ∧ List.Forall₂ (fun table r => m.get? q.table table = some r) q.includes relations)
      ∨ ∃ before table after, q.relations m = .error (.unknownRelation q.table table)
        ∧ q.includes = before ++ table :: after
        ∧ (∀ t ∈ before, (m.get? q.table t).isSome) ∧ m.get? q.table table = none := by
  unfold Query.relations
  generalize q.includes = includes
  induction includes with
  | nil => exact .inl ⟨[], rfl, .nil⟩
  | cons table includes ih =>
    rw [List.mapM_cons]
    cases known : m.get? q.table table with
    | none => exact .inr ⟨[], table, includes, rfl, rfl, by simp, known⟩
    | some r =>
      rcases ih with ⟨relations, ok, all⟩ | ⟨before, t, after, failed, rfl, related, unrelated⟩
      · exact .inl ⟨r :: relations, by rw [ok]; rfl, .cons known all⟩
      · refine .inr ⟨table :: before, t, after, by rw [failed]; rfl, rfl, ?_, unrelated⟩
        intro t' ht
        rcases List.mem_cons.mp ht with rfl | ht
        · rw [known]; rfl
        · exact related t' ht

/-- Each relation that a row has a key for is asked about once, in order. -/
theorem askRelated_plays {bookmark : Option String} {rows : List Row}
    {replies : List (Relation × Option RowsResult)}
    (played : (askRelated bookmark rows relations).Plays es replies) :
    ∃ found, List.Forall₂ (Looks bookmark rows) relations found ∧ es = found.reduceOption
      ∧ replies = relations.zip (found.map (Option.map (·.reply))) := by
  induction relations generalizing es replies with
  | nil =>
    obtain ⟨rfl, rfl⟩ := plays_pure.mp played
    exact ⟨[], .nil, rfl, rfl⟩
  | cons r relations ih =>
    unfold askRelated at played
    rw [Relation.relatedStatement?_eq] at played
    cases keyed : r.hasKey rows with
    | false =>
      rw [keyed, if_neg Bool.false_ne_true] at played
      change (askRelated bookmark rows relations >>= fun replies =>
        pure ((r, none) :: replies)).Plays es replies at played
      obtain ⟨later, replies', last, hlater, hlast, rfl⟩ := plays_bind.mp played
      obtain ⟨rfl, rfl⟩ := plays_pure.mp hlast
      obtain ⟨found, looked, rfl, rfl⟩ := ih hlater
      exact ⟨none :: found, .cons keyed looked, by simp, rfl⟩
    | true =>
      rw [keyed, if_pos rfl] at played
      cases played with
      | @ask _ _ reply _ _ rest =>
        change (askRelated bookmark rows relations >>= fun replies =>
          pure ((r, some reply) :: replies)).Plays _ replies at rest
        obtain ⟨later, replies', last, hlater, hlast, rfl⟩ := plays_bind.mp rest
        obtain ⟨rfl, rfl⟩ := plays_pure.mp hlast
        obtain ⟨found, looked, rfl, rfl⟩ := ih hlater
        exact ⟨some ⟨_, reply⟩ :: found, .cons ⟨keyed, rfl⟩ looked, by simp, rfl⟩

/-- The rows that related rows are put to one relation after the other, up to the first failure, are
the rows with all that was found. -/
theorem attachReplies_outcome {bookmark : Option String} {base : List Row}
    {found : List (Option Exchange)} (looked : List.Forall₂ (Looks bookmark base) relations found)
    (s : Session) (rows : List Row) :
    (s.attachReplies rows (relations.zip (found.map (Option.map (·.reply))))).1
      = match found.reduceOption.find? (fun e => !e.reply.success) with
        | some e => .error e.reply
        | none => .ok (rows.map (Relation.extend (relations.zip (found.map rowsFrom)))) := by
  induction looked generalizing s rows with
  | nil => exact congrArg Except.ok (List.map_id rows).symm
  | @cons r e relations found _ _ ih =>
    have step : ∀ related, (r.attach rows related).map
          (Relation.extend (relations.zip (found.map rowsFrom)))
        = rows.map (Relation.extend ((r, related) :: relations.zip (found.map rowsFrom))) := by
      intro related
      rw [Relation.attach_eq, List.map_map]
      rfl
    cases e with
    | none =>
      simp only [List.map_cons, Option.map_none, List.zip_cons_cons, attachReplies,
        List.reduceOption_cons_of_none]
      rw [ih, step]
      rfl
    | some e =>
      simp only [List.map_cons, Option.map_some, List.zip_cons_cons, attachReplies,
        List.reduceOption_cons_of_some]
      cases success : e.reply.success with
      | false => simp [success]
      | true =>
        rw [if_pos rfl, ih, step, List.find?_cons_of_neg (by simp [success])]
        rfl

/-- Whatever the replies are, the statement of a query takes the course that they dictate. A session
that sends nothing is unchanged. -/
theorem fetchWith_plays (compiles : compiled = .ok statement) {answer : Outcome (List Row)}
    (played : (s.fetchWith q statement).Plays es answer) :
    FetchCourse s q compiled es answer.1 ∧ (es = [] → answer.2 = s) := by
  unfold fetchWith at played
  rcases relations_course q s.database.relations with
    ⟨relations, known, related⟩ | ⟨before, table, after, unknown, split, related, unrelated⟩
  · rw [known] at played
    have accepted : Accepts s.database.relations q compiled statement relations :=
      ⟨compiles, related⟩
    obtain ⟨first, ⟨reply, s'⟩, rest, hexec, hrest, rfl⟩ := plays_bind.mp played
    obtain ⟨base, rfl, asked, same⟩ := exec_plays hexec
    obtain ⟨rfl, rfl⟩ := Prod.mk.inj same
    refine ⟨?_, by simp⟩
    dsimp only at hrest
    split at hrest
    next ends =>
      obtain ⟨rfl, rfl⟩ := plays_pure.mp hrest
      cases success : base.reply.success with
      | false => exact .failed accepted asked success
      | true =>
        have none : relations = [] := by simpa [success] using ends
        subst none
        exact .alone accepted asked success
    next goes =>
      have goes : base.reply.success = true ∧ relations ≠ [] := by simpa using goes
      obtain ⟨success, included⟩ := goes
      obtain ⟨looks, replies, last, hlooks, hlast, rfl⟩ := plays_bind.mp hrest
      obtain ⟨found, looked, rfl, rfl⟩ := askRelated_plays hlooks
      have outcome := attachReplies_outcome looked (s.observe base.reply) (base.reply.data.getD [])
      generalize (s.observe base.reply).attachReplies (base.reply.data.getD [])
        (relations.zip (found.map (Option.map (·.reply)))) = attached at hlast outcome
      obtain ⟨result, s'⟩ := attached
      cases failure : found.reduceOption.find? (fun e => !e.reply.success) with
      | some e =>
        rw [failure] at outcome
        cases outcome
        obtain ⟨rfl, rfl⟩ := plays_pure.mp hlast
        simpa using FetchCourse.stopped accepted asked success looked failure
      | none =>
        rw [failure] at outcome
        cases outcome
        obtain ⟨rfl, rfl⟩ := plays_pure.mp hlast
        have all : ∀ e ∈ found.reduceOption, e.reply.success = true := by
          simpa using List.find?_eq_none.mp failure
        simpa using FetchCourse.extended accepted asked success included looked all
  · rw [unknown] at played
    obtain ⟨rfl, rfl⟩ := plays_pure.mp played
    exact ⟨.refused (.unrelated compiles split related unrelated), fun _ => rfl⟩

theorem fetch_plays {answer : Outcome (List Row)} (played : (s.fetch q).Plays es answer) :
    FetchCourse s q q.compile es answer.1 ∧ (es = [] → answer.2 = s) := by
  unfold fetch at played
  cases compiles : q.compile with
  | error e =>
    rw [compiles] at played
    obtain ⟨rfl, rfl⟩ := plays_pure.mp played
    exact ⟨.refused (.uncompiled rfl), fun _ => rfl⟩
  | ok statement =>
    rw [compiles] at played
    exact fetchWith_plays rfl played

/-- The first row of a query comes of a fetch with a limit of one row. -/
theorem first_plays {answer : Outcome Json} (played : (s.first q).Plays es answer) :
    ∃ fetched : Except CompileError RowsResult, FetchCourse s q q.compileFirst es fetched
      ∧ answer.1 = fetched.map (·.map fun rows => firstValue rows none)
      ∧ (es = [] → answer.2 = s) := by
  unfold first at played
  cases compiles : q.compileFirst with
  | error e =>
    rw [compiles] at played
    obtain ⟨rfl, rfl⟩ := plays_pure.mp played
    exact ⟨.error e, .refused (.uncompiled rfl), rfl, fun _ => rfl⟩
  | ok statement =>
    rw [compiles] at played
    obtain ⟨first, ⟨fetched, s'⟩, rest, hfetch, hrest, rfl⟩ := plays_bind.mp played
    obtain ⟨rfl, rfl⟩ := plays_pure.mp hrest
    obtain ⟨course, unchanged⟩ := fetchWith_plays rfl hfetch
    exact ⟨fetched, by simpa using course, rfl, by simpa using unchanged⟩

/-- A fetch makes one call for its statement and at most one for each include. -/
theorem FetchCourse.length_le {outcome : Except CompileError RowsResult}
    (course : FetchCourse s q compiled es outcome) : es.length ≤ q.includes.length + 1 := by
  have looks : ∀ {statement relations} {found : List (Option Exchange)} {rows bookmark},
      Accepts s.database.relations q compiled statement relations →
      List.Forall₂ (Looks bookmark rows) relations found →
      found.reduceOption.length ≤ q.includes.length := by
    intro statement relations found rows bookmark accepted looked
    rw [accepted.related.length_eq, looked.length_eq]
    exact List.reduceOption_length_le found
  cases course with
  | refused => simp
  | failed => simp
  | alone => simp
  | stopped accepted _ _ looked _ => simpa using looks accepted looked
  | extended accepted _ _ _ looked _ => simpa using looks accepted looked

/-- A statement that compiles is executed once, and one that does not is not sent. -/
inductive ExecCourse (s : Session) (compiled : Except CompileError Statement) :
    List Exchange → Outcome (List Row) → Prop
  | refused {e : CompileError} (failed : compiled = .error e) :
    ExecCourse s compiled [] (.error e, s)
  | sent {e : Exchange} {statement : Statement} (succeeded : compiled = .ok statement)
    (asked : e.call = ⟨.exec statement, s.bookmark⟩) :
    ExecCourse s compiled [e] (.ok e.reply, s.observe e.reply)

theorem execCompiled_plays {answer : Outcome (List Row)}
    (played : (s.execCompiled compiled).Plays es answer) : ExecCourse s compiled es answer := by
  cases compiled with
  | error e =>
    obtain ⟨rfl, rfl⟩ := plays_pure.mp played
    exact .refused rfl
  | ok statement =>
    obtain ⟨first, ⟨reply, s'⟩, rest, hexec, hrest, rfl⟩ := plays_bind.mp played
    obtain ⟨e, rfl, asked, same⟩ := exec_plays hexec
    obtain ⟨rfl, rfl⟩ := Prod.mk.inj same
    obtain ⟨rfl, rfl⟩ := plays_pure.mp hrest
    exact .sent rfl asked

/-- When a store gives replies in turn, the dialogue is a run of them on the given course. -/
def Dictated {α : Type} (replies : Nat → RowsResult) (d : Dialogue α)
    (course : List Exchange → α → Prop) : Prop :=
  ∃ es x, d.run (answering replies) [] = (x, es)
    ∧ es.map (·.reply) = (List.range' 0 es.length).map replies ∧ course es x

theorem dictated_of_plays {α : Type} {d : Dialogue α} {course : List Exchange → α → Prop}
    (replies : Nat → RowsResult) (follows : ∀ es x, d.Plays es x → course es x) :
    Dictated replies d course := by
  obtain ⟨es, kept, played, answered⟩ := d.plays_answering replies []
  rw [List.nil_append] at kept
  exact ⟨es, _, Prod.ext rfl kept, answered, follows es _ played⟩

/-- Whatever a store replies, a session makes the calls that the replies dictate. A fetch sends its
statement and then one look-up for each include that a row has a key for, never more calls than
includes behind the first; and what does not compile is not sent and leaves the session as it is. -/
theorem calls_dictated (s : Session) (q : Query) (replies : Nat → RowsResult) :
    (Dictated replies (s.fetch q) fun es answer => FetchCourse s q q.compile es answer.1
        ∧ es.length ≤ q.includes.length + 1 ∧ (es = [] → answer.2 = s))
      ∧ (Dictated replies (s.first q) fun es answer => ∃ fetched : Except CompileError RowsResult,
        FetchCourse s q q.compileFirst es fetched
          ∧ answer.1 = fetched.map (·.map fun rows => firstValue rows none)
          ∧ es.length ≤ q.includes.length + 1 ∧ (es = [] → answer.2 = s))
      ∧ (∀ table row, Dictated replies (s.insert table row)
        (ExecCourse s (Mutation.insert table row)))
      ∧ (∀ table conditions patch, Dictated replies (s.update table conditions patch)
        (ExecCourse s (Mutation.update table conditions patch)))
      ∧ (∀ table conditions, Dictated replies (s.delete table conditions)
        (ExecCourse s (Mutation.delete table conditions)))
      ∧ ∀ table conditions, Dictated replies (s.count table conditions) fun es answer =>
        ∃ counted, ExecCourse s (Mutation.count table conditions) es counted
          ∧ answer = (counted.1.map (·.map countOf), counted.2) := by
  refine ⟨?_, ?_, ?_, ?_, ?_, ?_⟩
  · refine dictated_of_plays replies fun es answer played => ?_
    obtain ⟨course, unchanged⟩ := fetch_plays played
    exact ⟨course, course.length_le, unchanged⟩
  · refine dictated_of_plays replies fun es answer played => ?_
    obtain ⟨fetched, course, same, unchanged⟩ := first_plays played
    exact ⟨fetched, course, same, course.length_le, unchanged⟩
  · exact fun _ _ => dictated_of_plays replies fun _ _ => execCompiled_plays
  · exact fun _ _ _ => dictated_of_plays replies fun _ _ => execCompiled_plays
  · exact fun _ _ => dictated_of_plays replies fun _ _ => execCompiled_plays
  · intro table conditions
    refine dictated_of_plays replies fun es answer played => ?_
    obtain ⟨first, counted, rest, hexec, hrest, rfl⟩ := plays_bind.mp played
    obtain ⟨rfl, rfl⟩ := plays_pure.mp hrest
    exact ⟨counted, by simpa using execCompiled_plays hexec, rfl⟩

end Session

end Tabularium
