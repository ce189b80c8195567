import Tabularium.Proofs.OrderedMap
import Tabularium.Proofs.Store.FetchCourse

namespace Tabularium

namespace Dialogue

/-- A store whose replies depend on the calls alone. -/
def serving (store : Call → RowsResult) (_ : Unit) (call : Call) : RowsResult × Unit :=
  (store call, ())

theorem plays_serving {α : Type} (store : Call → RowsResult) (d : Dialogue α) :
    ∃ es, d.Plays es (d.run (serving store) ()).1 ∧ ∀ e ∈ es, e.reply = store e.call := by
  induction d with
  | finish x => exact ⟨[], .finish x, by simp⟩
  | ask call resume ih =>
    obtain ⟨es, played, replied⟩ := ih (store call)
    refine ⟨⟨call, store call⟩ :: es, .ask played, ?_⟩
    intro e he
    rcases List.mem_cons.mp he with rfl | he
    · rfl
    · exact replied e he

end Dialogue

namespace Relation

variable {r : Relation} {row : Row} {relations : List Relation} {found : Relation → List Row}
  {related : List Row} {name : String}

/-- What is put under the name of a relation when no row is found. -/
def nothing (r : Relation) : Json :=
  match r.kind with
  | .belongsTo => .null
  | .hasMany => .list []

theorem given_congr {row' : Row} (h : row.get? r.keyColumn = row'.get? r.keyColumn) :
    r.given related row = r.given related row' := by
  rw [given, given, h]

theorem given_nil (r : Relation) (row : Row) : r.given [] row = r.nothing := by
  unfold given nothing
  cases r.kind <;> cases row.get? r.keyColumn <;> simp [rowsSharing]

/-- The row with what is found for each relation put under the name of it. -/
def extendWith (found : Relation → List Row) (relations : List Relation) (row : Row) : Row :=
  relations.foldl (fun row r => row.insert r.name (r.given (found r) row)) row

theorem extend_map (found : Relation → List Row) (relations : List Relation) :
    extend (relations.map fun r => (r, found r)) = extendWith found relations := by
  funext row
  exact List.foldl_map

theorem extendWith_concat (found : Relation → List Row) (relations : List Relation) (r : Relation)
    (row : Row) : extendWith found (relations ++ [r]) row
      = (extendWith found relations row).insert r.name
        (r.given (found r) (extendWith found relations row)) := by
  rw [extendWith, List.foldl_append]
  rfl

theorem get?_extendWith_other (h : name ∉ relations.map (·.name)) :
    (extendWith found relations row).get? name = row.get? name := by
  induction relations using List.reverseRecOn with
  | nil => rfl
  | append_singleton relations r ih =>
    rw [List.map_append, List.mem_append, not_or, List.map_singleton, List.mem_singleton] at h
    rw [extendWith_concat, OrderedMap.get?_insert, if_neg (Ne.symm h.2), ih h.1]

/-- The last of some relations keeps what the others put under their names. -/
theorem get?_extendWith_concat {last : Relation}
    (distinct : ((relations ++ [last]).map (·.name)).Nodup) (hr : r ∈ relations) :
    (extendWith found (relations ++ [last]) row).get? r.name
      = (extendWith found relations row).get? r.name := by
  rw [List.map_append, List.nodup_append] at distinct
  have other : r.name ≠ last.name :=
    distinct.2.2 r.name (List.mem_map_of_mem hr) last.name (by simp)
  rw [extendWith_concat, OrderedMap.get?_insert, if_neg other.symm]

theorem get?_extendWith_last {last : Relation} :
    (extendWith found (relations ++ [last]) row).get? last.name
      = some (last.given (found last) (extendWith found relations row)) := by
  rw [extendWith_concat, OrderedMap.get?_insert, if_pos rfl]

end Relation

namespace Session

open Dialogue

variable {store : Call → RowsResult} {s : Session} {q : Query} {statement : Statement}
  {relations : List Relation} {rows : List Row} {r : Relation}

/-- The rows that a fetch from a store gives if it succeeds. -/
def fetchedRows (store : Call → RowsResult) (s : Session) (q : Query) : Option (List Row) :=
  match ((s.fetch q).run (serving store) ()).1.1 with
  | .ok result => if result.success then some (result.data.getD []) else none
  | .error _ => none

def baseRows (store : Call → RowsResult) (s : Session) (statement : Statement) : List Row :=
  (store ⟨.exec statement, s.bookmark⟩).data.getD []

/-- The call that looks up the rows related to the rows of a statement. -/
def lookUp (store : Call → RowsResult) (s : Session) (statement : Statement) (r : Relation) :
    Call :=
  ⟨.exec (r.statementFor (r.keysOf (baseRows store s statement))),
    (s.observe (store ⟨.exec statement, s.bookmark⟩)).bookmark⟩

/-- The rows that are found for a relation; without a key none is looked up. -/
def foundRows (store : Call → RowsResult) (s : Session) (statement : Statement) (r : Relation) :
    List Row :=
  if r.hasKey (baseRows store s statement) then (store (lookUp store s statement r)).data.getD []
  else []

/-- The query is accepted, and the store answers all of its statements. -/
structure Succeeds (store : Call → RowsResult) (s : Session) (q : Query) (statement : Statement)
    (relations : List Relation) : Prop where
  accepted : Accepts s.database.relations q q.compile statement relations
  answered : (store ⟨.exec statement, s.bookmark⟩).success = true
  found : ∀ r ∈ relations, r.hasKey (baseRows store s statement) = true →
    (store (lookUp store s statement r)).success = true

theorem Accepts.unique {m : RelationMap} {compiled : Except CompileError Statement}
    {statement' : Statement} {relations' : List Relation}
    (h : Accepts m q compiled statement relations)
    (h' : Accepts m q compiled statement' relations') :
    statement' = statement ∧ relations' = relations := by
  refine ⟨Except.ok.inj (h'.compiled.symm.trans h.compiled), ?_⟩
  have hrelated := h.related
  have hrelated' := h'.related
  clear h h'
  generalize q.includes = includes at hrelated hrelated'
  induction hrelated generalizing relations' with
  | nil => exact List.forall₂_nil_left_iff.mp hrelated'
  | cons known _ ih =>
    obtain ⟨r', rest', known', hrest', rfl⟩ := List.forall₂_cons_left_iff.mp hrelated'
    rw [ih hrest', Option.some.inj (known'.symm.trans known)]

theorem Accepts.not_refuses {m : RelationMap} {compiled : Except CompileError Statement}
    {e : CompileError} (h : Accepts m q compiled statement relations) :
    ¬ Refuses m q compiled e := by
  intro refused
  cases refused with
  | uncompiled failed => rw [h.compiled] at failed; cases failed
  | @unrelated _ before after table _ split _ unrelated =>
    have included : table ∈ q.includes := by simp [split]
    obtain ⟨r, -, known⟩ := forall₂_mem h.related included
    rw [unrelated] at known
    cases known

/-- What the look-ups of a fetch brought is what the store has for their relations. -/
theorem zip_rowsFrom {found : List (Option Exchange)}
    (looked : List.Forall₂ (Looks (s.observe (store ⟨.exec statement, s.bookmark⟩)).bookmark
      (baseRows store s statement)) relations found)
    (replied : ∀ e ∈ found.reduceOption, e.reply = store e.call) :
    relations.zip (found.map rowsFrom)
      = relations.map fun r => (r, foundRows store s statement r) := by
  induction looked with
  | nil => rfl
  | @cons r e relations found looks _ ih =>
    cases e with
    | none =>
      have none : r.hasKey (baseRows store s statement) = false := looks
      rw [List.map_cons, List.map_cons, List.zip_cons_cons, ih (by simpa using replied), foundRows,
        none]
      rfl
    | some e =>
      obtain ⟨keyed, asked⟩ := looks
      have reply : e.reply = store (lookUp store s statement r) := by
        rw [replied e (by simp), asked]
        rfl
      have rest : ∀ e ∈ found.reduceOption, e.reply = store e.call :=
        fun e' he => replied e' (by simp [he])
      rw [List.map_cons, List.map_cons, List.zip_cons_cons, ih rest, foundRows, keyed, if_pos rfl,
        ← reply]
      rfl

/-- The rows of a statement, each with all that is found for it. -/
def extendedRows (store : Call → RowsResult) (s : Session) (statement : Statement)
    (relations : List Relation) : List Row :=
  (baseRows store s statement).map (Relation.extendWith (foundRows store s statement) relations)

theorem Succeeds.exists_iff {outs : List Row} (h : Succeeds store s q statement relations) :
    (∃ statement relations, Succeeds store s q statement relations
        ∧ outs = extendedRows store s statement relations)
      ↔ extendedRows store s statement relations = outs := by
  constructor
  · rintro ⟨statement', relations', h', rfl⟩
    obtain ⟨rfl, rfl⟩ := h.accepted.unique h'.accepted
    rfl
  · rintro rfl
    exact ⟨statement, relations, h, rfl⟩

section LookUps

variable {found : List (Option Exchange)}

/-- A store that answers all statements of a fetch answers each look-up that was made. -/
theorem Succeeds.answers (h : Succeeds store s q statement relations)
    (looked : List.Forall₂ (Looks (s.observe (store ⟨.exec statement, s.bookmark⟩)).bookmark
      (baseRows store s statement)) relations found)
    {e : Exchange} (there : e ∈ found.reduceOption) (replied : e.reply = store e.call) :
    e.reply.success = true := by
  obtain ⟨r, hr, keyed, call⟩ := forall₂_mem looked.flip (List.reduceOption_mem_iff.mp there)
  rw [replied, call]
  exact h.found r hr keyed

/-- A store that answers each look-up that was made answers all that have a key. -/
theorem found_of_looked
    (looked : List.Forall₂ (Looks (s.observe (store ⟨.exec statement, s.bookmark⟩)).bookmark
      (baseRows store s statement)) relations found)
    (replied : ∀ e ∈ found.reduceOption, e.reply = store e.call)
    (all : ∀ e ∈ found.reduceOption, e.reply.success = true) :
    ∀ r ∈ relations, r.hasKey (baseRows store s statement) = true →
      (store (lookUp store s statement r)).success = true := by
  intro r hr keyed
  obtain ⟨e, he, looks⟩ := forall₂_mem looked hr
  cases e with
  | none =>
    have none : r.hasKey (baseRows store s statement) = false := looks
    rw [keyed] at none
    cases none
  | some e =>
    have there : e ∈ found.reduceOption := List.reduceOption_mem_iff.mpr he
    have success := all e there
    rw [replied e there, looks.2] at success
    exact success

end LookUps

/-- A fetch succeeds exactly when the query is accepted and the store answers all of its statements;
its rows are those of the statement, each with all that is found for it. -/
theorem fetchedRows_eq_some {outs : List Row} :
    fetchedRows store s q = some outs ↔ ∃ statement relations,
      Succeeds store s q statement relations
        ∧ outs = extendedRows store s statement relations := by
  obtain ⟨es, played, replied⟩ := plays_serving store (s.fetch q)
  obtain ⟨course, -⟩ := fetch_plays played
  unfold fetchedRows
  generalize ((s.fetch q).run (serving store) ()).1.1 = outcome at course
  -- Every reply is the store's, so only one course of the dialogue is open to a store that answers.
  cases course with
  | refused refused =>
    refine iff_of_false (by simp) ?_
    rintro ⟨statement, relations, succeeds, -⟩
    exact succeeds.accepted.not_refuses refused
  | @failed base statement relations accepted asked failed =>
    refine iff_of_false (by simp [failed]) ?_
    rintro ⟨statement', relations', succeeds, -⟩
    obtain ⟨rfl, -⟩ := accepted.unique succeeds.accepted
    have answered := succeeds.answered
    rw [← asked, ← replied base (by simp), failed] at answered
    cases answered
  | @alone base statement accepted asked succeeded =>
    have reply : base.reply = store ⟨.exec statement, s.bookmark⟩ := asked ▸ replied base (by simp)
    have succeeds : Succeeds store s q statement [] := ⟨accepted, reply ▸ succeeded, by simp⟩
    have rows : base.reply.data.getD [] = extendedRows store s statement [] := by
      rw [reply]
      exact (List.map_id _).symm
    rw [succeeds.exists_iff, ← rows]
    simp [succeeded]
  | @stopped base e statement relations found accepted asked succeeded looked first =>
    have reply : base.reply = store ⟨.exec statement, s.bookmark⟩ := asked ▸ replied base (by simp)
    rw [reply] at looked
    have failed : e.reply.success = false := by simpa using List.find?_some first
    have there : e ∈ found.reduceOption := List.mem_of_find?_eq_some first
    refine iff_of_false (by simp [failed]) ?_
    rintro ⟨statement', relations', succeeds, -⟩
    obtain ⟨rfl, rfl⟩ := accepted.unique succeeds.accepted
    have answered := succeeds.answers looked there (replied e (by simp [there]))
    rw [failed] at answered
    cases answered
  | @extended base statement relations found accepted asked succeeded _ looked all =>
    have reply : base.reply = store ⟨.exec statement, s.bookmark⟩ := asked ▸ replied base (by simp)
    rw [reply] at looked
    have replied : ∀ e ∈ found.reduceOption, e.reply = store e.call :=
      fun e he => replied e (List.mem_cons_of_mem base he)
    have succeeds : Succeeds store s q statement relations :=
      ⟨accepted, reply ▸ succeeded, found_of_looked looked replied all⟩
    have rows : (base.reply.data.getD []).map (Relation.extend (relations.zip (found.map rowsFrom)))
        = extendedRows store s statement relations := by
      rw [zip_rowsFrom looked replied, reply, Relation.extend_map]
      rfl
    rw [succeeds.exists_iff, ← rows]
    simp [succeeded]

end Session

end Tabularium
