import Tabularium.Proofs.Query.Inclusion
import Tabularium.Proofs.Query.WhereMeaning
import Tabularium.Proofs.Schema.Compiled
import Tabularium.Proofs.Schema.Lookup
import Tabularium.Proofs.Store.IncludedRows

namespace Tabularium

namespace OrderedMap

variable {α : Type} {keys : List String} {m : OrderedMap α} {key : String}

/-- The entries under some keys, in the order of the keys. -/
def restrict (keys : List String) (m : OrderedMap α) : OrderedMap α :=
  .ofList (keys.filterMap fun key => (m.get? key).map fun value => (key, value))

theorem get?_restrict : (m.restrict keys).get? key = if key ∈ keys then m.get? key else none := by
  induction keys using List.reverseRecOn with
  | nil => rfl
  | append_singleton keys last ih =>
    rw [restrict, List.filterMap_append]
    cases there : m.get? last with
    | none =>
      have same :
          [last].filterMap (fun key => (m.get? key).map fun value => (key, value)) = [] := by
        simp [there]
      rw [same, List.append_nil]
      refine ih.trans ?_
      by_cases hkey : key = last
      · rw [hkey, there]
        simp
      · simp [hkey]
    | some value =>
      have same : [last].filterMap (fun key => (m.get? key).map fun value => (key, value))
          = [(last, value)] := by simp [there]
      rw [same, ofList_snoc, get?_insert]
      by_cases hkey : last = key
      · subst hkey
        simp [there]
      · rw [if_neg hkey]
        refine ih.trans ?_
        simp [Ne.symm hkey]

end OrderedMap

namespace Query

variable {q : Query} {column : String} {row : Row} {statement : Statement} {columns : List String}

def Shows (q : Query) (column : String) : Prop :=
  q.columns = [] ∨ column ∈ q.columns

/-- What the query shows of a row. -/
def shown (q : Query) (row : Row) : Row :=
  if q.columns.isEmpty then row else row.restrict q.columns

theorem get?_shown (h : q.Shows column) : (q.shown row).get? column = row.get? column := by
  unfold shown
  split
  next => rfl
  next columns =>
    have there : column ∈ q.columns := h.resolve_left (by simpa using columns)
    rw [OrderedMap.get?_restrict, if_pos there]

theorem get?_shown_none (h : ¬ q.Shows column) : (q.shown row).get? column = none := by
  obtain ⟨columns, out⟩ := not_or.mp h
  rw [shown, if_neg (by simpa using columns), OrderedMap.get?_restrict, if_neg out]

theorem select_compiles (compiles : q.compile = .ok statement)
    (named : ∀ column ∈ columns, isIdentifier column = true) :
    ∃ statement, (q.select columns).compile = .ok statement := by
  obtain ⟨filter, _, order, table, filtered, -, ordered, -⟩ := render_ok compiles
  have known : columns.forM requireIdentifier = .ok () :=
    forM_eq_ok.mpr fun column hc => if_pos (named column hc)
  refine ⟨_, bind_eq_ok.mpr ⟨(), table, bind_eq_ok.mpr ⟨_, bind_eq_ok.mpr ⟨(), known, rfl⟩,
    bind_eq_ok.mpr ⟨filter, filtered, bind_eq_ok.mpr ⟨order, ordered, rfl⟩⟩⟩⟩⟩

end Query

namespace Relation

variable {r : Relation} {relations : List Relation} {found found' : Relation → List Row}
  {rows rows' : List Row} {row row' : Row}

theorem relatedStatement?_congr
    (h : (rows.filterMap fun row => row.get? r.keyColumn)
      = rows'.filterMap fun row => row.get? r.keyColumn) :
    r.relatedStatement? rows = r.relatedStatement? rows' := by
  rw [relatedStatement?, relatedStatement?, lookupKeys, lookupKeys, h]

theorem relatedStatement?_none (h : r.hasKey rows = false) : r.relatedStatement? rows = none := by
  rw [relatedStatement?_eq, h, if_neg Bool.false_ne_true]

theorem get?_extendWith_nothing (distinct : (relations.map (·.name)).Nodup) (hr : r ∈ relations)
    (none : found r = []) : (extendWith found relations row).get? r.name = some r.nothing := by
  induction relations using List.reverseRecOn with
  | nil => cases hr
  | append_singleton relations last ih =>
    rcases List.mem_append.mp hr with hr | hr
    · rw [get?_extendWith_concat distinct hr]
      rw [List.map_append, List.nodup_append] at distinct
      exact ih distinct.1 hr
    · obtain rfl := List.mem_singleton.mp hr
      rw [get?_extendWith_last, none, given_nil]

/-- Two rows get the same under every name if for each relation either their keys and what is found
are the same, or nothing is found for the one and nothing is put to the other. -/
theorem get?_extendWith_congr (distinct : (relations.map (·.name)).Nodup)
    (alike : ∀ r ∈ relations,
      (row.get? r.keyColumn = row'.get? r.keyColumn ∧ found r = found' r)
        ∨ (found' r = []
          ∧ (extendWith found relations row).get? r.name = some r.nothing)) :
    ∀ r ∈ relations, (extendWith found relations row).get? r.name
      = (extendWith found' relations row').get? r.name := by
  induction relations using List.reverseRecOn with
  | nil => simp
  | append_singleton relations last ih =>
    have front : (relations.map (·.name)).Nodup := by
      rw [List.map_append, List.nodup_append] at distinct
      exact distinct.1
    have before := ih front fun r hr => by
      have this := alike r (by simp [hr])
      rwa [get?_extendWith_concat distinct hr] at this
    intro r hr
    rcases List.mem_append.mp hr with hr | hr
    · rw [get?_extendWith_concat distinct hr, get?_extendWith_concat distinct hr, before r hr]
    · obtain rfl := List.mem_singleton.mp hr
      rcases alike r (by simp) with ⟨key, same⟩ | ⟨none, nothing⟩
      · -- The key may stand under the name of an earlier relation, where both rows have the same.
        have current : (extendWith found relations row).get? r.keyColumn
            = (extendWith found' relations row').get? r.keyColumn := by
          by_cases hkey : r.keyColumn ∈ relations.map (·.name)
          · obtain ⟨r', hr', name⟩ := List.mem_map.mp hkey
            rw [← name, before r' hr']
          · rw [get?_extendWith_other hkey, get?_extendWith_other hkey, key]
        rw [get?_extendWith_last, get?_extendWith_last, same, given_congr current]
      · rw [nothing, get?_extendWith_last, none, given_nil]

end Relation

namespace Session

open Dialogue

variable {store : Call → RowsResult} {s : Session} {q : Query} {statement : Statement}
  {relations : List Relation} {matching outs : List Row} {tables : String → List Row}
  {r : Relation} {schema : Schema} {table : String}

structure Answers (reply : RowsResult) (rows : List Row) : Prop where
  success : reply.success = true
  data : reply.data = some rows

/-- The store answers a query with what it shows of the rows that match, and each look-up for an
include with the rows of a table that have one of the keys. -/
structure Serves (store : Call → RowsResult) (s : Session) (q : Query) (matching : List Row)
    (tables : String → List Row) : Prop where
  base : ∀ statement bookmark, q.compile = .ok statement →
    Answers (store ⟨.exec statement, bookmark⟩) (matching.map q.shown)
  related : ∀ name ∈ q.includes, ∀ r, s.database.relations.get? q.table name = some r →
    ∀ rows statement bookmark, r.relatedStatement? rows = some statement →
      Answers (store ⟨.exec statement, bookmark⟩) (r.answer (tables r.related) (some statement))

theorem Serves.baseRows_eq (serves : Serves store s q matching tables)
    (compiles : q.compile = .ok statement) : baseRows store s statement = matching.map q.shown := by
  rw [baseRows, (serves.base statement s.bookmark compiles).data, Option.getD_some]

theorem Serves.lookUp_answers (serves : Serves store s q matching tables)
    (accepted : Accepts s.database.relations q q.compile statement relations)
    (hr : r ∈ relations) (keyed : r.hasKey (baseRows store s statement) = true) :
    Answers (store (lookUp store s statement r))
      (r.answer (tables r.related) (r.relatedStatement? (baseRows store s statement))) := by
  obtain ⟨name, hname, known⟩ := forall₂_mem accepted.related.flip hr
  have asked := r.relatedStatement?_eq (baseRows store s statement)
  rw [keyed, if_pos rfl] at asked
  rw [asked]
  exact serves.related name hname r known _ _ _ asked

theorem Serves.succeeds (serves : Serves store s q matching tables)
    (accepted : Accepts s.database.relations q q.compile statement relations) :
    Succeeds store s q statement relations where
  accepted := accepted
  answered := (serves.base statement s.bookmark accepted.compiled).success
  found _ hr keyed := (serves.lookUp_answers accepted hr keyed).success

theorem Serves.foundRows_eq (serves : Serves store s q matching tables)
    (accepted : Accepts s.database.relations q q.compile statement relations) (hr : r ∈ relations) :
    foundRows store s statement r
      = r.answer (tables r.related) (r.relatedStatement? (matching.map q.shown)) := by
  rw [← serves.baseRows_eq accepted.compiled, foundRows]
  cases keyed : r.hasKey (baseRows store s statement) with
  | true => rw [if_pos rfl, (serves.lookUp_answers accepted hr keyed).data, Option.getD_some]
  | false =>
    rw [Relation.relatedStatement?_none keyed, if_neg Bool.false_ne_true]
    rfl

/-- What is found for a relation whose key column is shown does not depend on the other columns. -/
theorem Serves.foundRows_shown (serves : Serves store s q matching tables)
    (accepted : Accepts s.database.relations q q.compile statement relations) (hr : r ∈ relations)
    (shows : q.Shows r.keyColumn) :
    foundRows store s statement r
      = r.answer (tables r.related) (r.relatedStatement? matching) := by
  rw [serves.foundRows_eq accepted hr]
  refine congrArg _ (Relation.relatedStatement?_congr ?_)
  rw [List.filterMap_map]
  exact List.filterMap_congr fun row _ => Query.get?_shown shows

theorem Serves.foundRows_hidden (serves : Serves store s q matching tables)
    (accepted : Accepts s.database.relations q q.compile statement relations) (hr : r ∈ relations)
    (hidden : ¬ q.Shows r.keyColumn) : foundRows store s statement r = [] := by
  have keyless : r.hasKey (matching.map q.shown) = false := by
    refine hasKey_eq_false fun row hrow => ?_
    obtain ⟨whole, -, rfl⟩ := List.mem_map.mp hrow
    exact OrderedMap.get?_eq_none.mp (Query.get?_shown_none hidden)
  rw [serves.foundRows_eq accepted hr, Relation.relatedStatement?_none keyless]
  rfl

theorem Serves.extendedRows_eq (serves : Serves store s q matching tables)
    (accepted : Accepts s.database.relations q q.compile statement relations) :
    extendedRows store s statement relations = matching.map fun row =>
      Relation.extendWith (foundRows store s statement) relations (q.shown row) := by
  rw [extendedRows, serves.baseRows_eq accepted.compiled, List.map_map]
  rfl

/-- A relation gets the same for every row whether or not all columns are shown, exactly if its key
column is shown or nothing is put to any row for it. -/
theorem relations_keep_iff {columns : List String} {statement' : Statement}
    (whole : Serves store s (q.select []) matching tables)
    (narrow : Serves store s (q.select columns) matching tables)
    (accepted : Accepts s.database.relations (q.select []) (q.select []).compile statement
      relations)
    (accepted' : Accepts s.database.relations (q.select columns) (q.select columns).compile
      statement'
      relations)
    (distinct : (relations.map (·.name)).Nodup) :
    List.Forall₂ (fun out narrow => ∀ r ∈ relations, out.get? r.name = narrow.get? r.name)
        (extendedRows store s statement relations) (extendedRows store s statement' relations)
      ↔ ∀ r ∈ relations, (q.select columns).Shows r.keyColumn
        ∨ ∀ out ∈ extendedRows store s statement relations, out.get? r.name = some r.nothing := by
  rw [whole.extendedRows_eq accepted, narrow.extendedRows_eq accepted', List.forall₂_map_left_iff,
    List.forall₂_map_right_iff, List.forall₂_same]
  constructor
  · intro same r hr
    refine or_iff_not_imp_left.mpr fun hidden out hout => ?_
    obtain ⟨row, hrow, rfl⟩ := List.mem_map.mp hout
    rw [same row hrow r hr]
    exact Relation.get?_extendWith_nothing distinct hr (narrow.foundRows_hidden accepted' hr hidden)
  · intro kept row hrow
    refine Relation.get?_extendWith_congr distinct fun r hr => ?_
    by_cases shows : (q.select columns).Shows r.keyColumn
    · left
      have all : (q.select []).Shows r.keyColumn := .inl rfl
      rw [Query.get?_shown all, Query.get?_shown shows, whole.foundRows_shown accepted hr all,
        narrow.foundRows_shown accepted' hr shows]
      exact ⟨rfl, rfl⟩
    · exact .inr ⟨narrow.foundRows_hidden accepted' hr shows,
        (kept r hr).resolve_left shows _ (List.mem_map_of_mem hrow)⟩

/-- The relation is that of an include of the query. -/
def Includes (s : Session) (q : Query) (r : Relation) : Prop :=
  r.name ∈ q.includes ∧ s.database.relations.get? q.table r.name = some r

theorem Accepts.mem_iff {compiled : Except CompileError Statement}
    (accepted : Accepts s.database.relations q compiled statement relations)
    (opened : s.database = ⟨schema, .resolve schema⟩) : r ∈ relations ↔ Includes s q r := by
  have name : ∀ name r, s.database.relations.get? q.table name = some r → r.name = name := by
    rw [opened]
    exact fun name r => RelationMap.get?_name
  constructor
  · intro hr
    obtain ⟨included, hname, known⟩ := forall₂_mem accepted.related.flip hr
    obtain rfl := name included r known
    exact ⟨hname, known⟩
  · rintro ⟨hname, known⟩
    obtain ⟨r', hr', known'⟩ := forall₂_mem accepted.related hname
    exact Option.some.inj (known'.symm.trans known) ▸ hr'

/-- With a projection each row of a fetch gets the same under the names of the includes exactly if
each include has its key column among the columns, or else nothing to put to any row. An include
whose key column is left out puts nothing to any row. -/
theorem projection_keeps_iff {d : Definition} {t : Table} {calls : List BuilderCall}
    {columns : List String} (compiled : d.compile = .ok schema)
    (opened : Database.ofSchema schema = .ok s.database) (known : schema.table? table = some t)
    (there : columns ⊆ t.columns.map (·.name))
    (whole : Serves store s ((Query.build table calls).select []) matching tables)
    (narrow : Serves store s ((Query.build table calls).select columns) matching tables)
    (fetched : fetchedRows store s ((Query.build table calls).select []) = some outs) :
    ∃ narrowed, fetchedRows store s ((Query.build table calls).select columns) = some narrowed
      ∧ (List.Forall₂ (fun out narrow => ∀ name ∈ (Query.build table calls).includes,
            out.get? name = narrow.get? name) outs narrowed
          ↔ ∀ r, Includes s (Query.build table calls) r →
            ((Query.build table calls).select columns).Shows r.keyColumn
              ∨ ∀ out ∈ outs, out.get? r.name = some r.nothing)
      ∧ ∀ r, Includes s (Query.build table calls) r →
        ¬ ((Query.build table calls).select columns).Shows r.keyColumn →
          ∀ narrow ∈ narrowed, narrow.get? r.name = some r.nothing := by
  have opened := database_eq opened
  have distinct := Query.build_includes_nodup table calls
  have named : ∀ column ∈ columns, isIdentifier column = true := by
    have wellFormed := Definition.compile_wellFormed compiled
    intro column hc
    obtain ⟨c, hmem, rfl⟩ := List.mem_map.mp (there hc)
    exact (wellFormed.tables t (Schema.table?_mem known).1).columnsNamed c hmem
  generalize Query.build table calls = q at *
  obtain ⟨statement, relations, succeeds, rfl⟩ := fetchedRows_eq_some.mp fetched
  have accepted := succeeds.accepted
  obtain ⟨statement', compiles⟩ := Query.select_compiles accepted.compiled named
  have accepted' : Accepts s.database.relations (q.select columns) (q.select columns).compile
      statement' relations := ⟨compiles, accepted.related⟩
  have names : relations.map (·.name) = q.includes := (opened ▸ accepted).names
  have distinct : (relations.map (·.name)).Nodup := names ▸ distinct
  have keep := relations_keep_iff whole narrow accepted accepted' distinct
  have mem : ∀ r, r ∈ relations ↔ Includes s q r := fun r => accepted.mem_iff opened
  refine ⟨_, fetchedRows_eq_some.mpr ⟨statement', relations, narrow.succeeds accepted', rfl⟩,
    ?_, ?_⟩
  · rw [← names]
    simp only [List.forall_mem_map, ← mem]
    exact keep
  · intro r hr hidden out hout
    have hr : r ∈ relations := (mem r).mpr hr
    rw [narrow.extendedRows_eq accepted'] at hout
    obtain ⟨row, -, rfl⟩ := List.mem_map.mp hout
    exact Relation.get?_extendWith_nothing distinct hr (narrow.foundRows_hidden accepted' hr hidden)

/-- Posts with the columns that are asked for, and the users behind look-ups. -/
def forumShelf (call : Call) : RowsResult :=
  match call.request with
  | .exec ⟨sql, []⟩ =>
    if sql = "SELECT * FROM posts" then .ok [forumPost "teamId"] {}
    else if sql = "SELECT userId FROM posts" then .ok [.ofList [("userId", .int 1)]] {}
    else if sql = "SELECT teamId FROM posts" then .ok [.ofList [("teamId", .int 7)]] {}
    else .failure "no such rows"
  | .exec ⟨_, params⟩ =>
    .ok ([.ofList [("id", .int 1)]].filter fun row : Row =>
      (row.get? "id").any fun v => params.contains (.ofJson v)) {}
  | .batch _ => .failure "no such rows"

def authoredPosts : Query :=
  .build "posts" [.including "users"]

def authoredPost : Row :=
  .ofList [("userId", .int 1), ("teamId", .int 7), ("users", .record [("id", .int 1)])]

theorem forumShelf_serves {columns : List String} (h : columns ∈ [[], ["userId"], ["teamId"]]) :
    Serves forumShelf (forumSession "teamId") (authoredPosts.select columns) [forumPost "teamId"]
      fun _ => [.ofList [("id", .int 1)]] := by
  constructor
  · intro statement bookmark compiles
    simp only [List.mem_cons, List.not_mem_nil, or_false] at h
    rcases h with rfl | rfl | rfl
    all_goals
      cases compiles
      exact ⟨rfl, rfl⟩
  · intro name hname r known rows statement bookmark asked
    obtain rfl : name = "users" := List.mem_singleton.mp hname
    obtain rfl : (⟨"users", .belongsTo, "posts", "users", "userId", "id"⟩ : Relation) = r :=
      Option.some.inj known
    unfold Relation.relatedStatement? at asked
    split at asked
    next => cases asked
    next some =>
      obtain ⟨key, keys, split⟩ := List.exists_cons_of_ne_nil fun none => some none
      cases asked
      rw [split]
      exact ⟨rfl, rfl⟩

theorem projection_keeps_iff_forum :
    (forum "teamId").compile = .ok (forumSchema "teamId")
      ∧ fetchedRows forumShelf (forumSession "teamId") (authoredPosts.select [])
        = some [authoredPost]
      ∧ fetchedRows forumShelf (forumSession "teamId") (authoredPosts.select ["userId"])
        = some [.ofList [("userId", .int 1), ("users", .record [("id", .int 1)])]]
      ∧ ∃ narrowed,
        fetchedRows forumShelf (forumSession "teamId") (authoredPosts.select ["userId"])
          = some narrowed
          ∧ List.Forall₂ (fun out narrow : Row => ∀ name ∈ authoredPosts.includes,
            out.get? name = narrow.get? name) [authoredPost] narrowed := by
  have compiled : (forum "teamId").compile = .ok (forumSchema "teamId") := by decide +kernel
  have opened : Database.ofSchema (forumSchema "teamId")
      = .ok (forumSession "teamId").database := rfl
  have known : (forumSchema "teamId").table? "posts"
      = some ((forumSchema "teamId").tables[2]) := rfl
  have fetched : fetchedRows forumShelf (forumSession "teamId") (authoredPosts.select [])
      = some [authoredPost] := by rfl
  obtain ⟨narrowed, succeeded, keeps, -⟩ := projection_keeps_iff compiled opened known
    (by decide : ["userId"] ⊆ _) (forumShelf_serves (by decide)) (forumShelf_serves (by decide))
    fetched
  refine ⟨compiled, fetched, rfl, narrowed, succeeded, keeps.mpr fun r hr => .inl ?_⟩
  obtain ⟨hname, known⟩ := hr
  have name : r.name = "users" := List.mem_singleton.mp hname
  rw [name] at known
  cases known
  exact .inr (by decide)

/-- Without the column that refers to the author, a post that has one comes with none. -/
theorem projection_loses_author :
    (forum "teamId").compile = .ok (forumSchema "teamId")
      ∧ Database.ofSchema (forumSchema "teamId") = .ok (forumSession "teamId").database
      ∧ (∀ columns ∈ [[], ["teamId"]], Serves forumShelf (forumSession "teamId")
        (authoredPosts.select columns) [forumPost "teamId"] fun _ => [.ofList [("id", .int 1)]])
      ∧ fetchedRows forumShelf (forumSession "teamId") (authoredPosts.select [])
        = some [authoredPost]
      ∧ fetchedRows forumShelf (forumSession "teamId") (authoredPosts.select ["teamId"])
        = some [.ofList [("teamId", .int 7), ("users", .null)]]
      ∧ "teamId" ∈ ((forumSchema "teamId").tables[2]).columns.map (·.name)
      ∧ ¬ List.Forall₂ (fun out narrow : Row => ∀ name ∈ authoredPosts.includes,
        out.get? name = narrow.get? name) [authoredPost]
          [.ofList [("teamId", .int 7), ("users", .null)]] := by
  have compiled : (forum "teamId").compile = .ok (forumSchema "teamId") := by decide +kernel
  have serves : ∀ columns ∈ [[], ["teamId"]], Serves forumShelf (forumSession "teamId")
      (authoredPosts.select columns) [forumPost "teamId"] fun _ => [.ofList [("id", .int 1)]] := by
    have some : [[], ["teamId"]] ⊆ [[], ["userId"], ["teamId"]] := by decide
    exact fun columns h => forumShelf_serves (some h)
  refine ⟨compiled, rfl, serves, rfl, rfl, by decide, fun same => ?_⟩
  have users : some (Json.record [("id", .int 1)]) = some .null :=
    (List.forall₂_cons.mp same).1 "users" List.mem_cons_self
  cases users

end Session

end Tabularium
