import Tabularium.Proofs.Query.Building
import Tabularium.Proofs.Schema.ResolvedRelations
import Tabularium.Proofs.Store.FetchedRows

namespace Tabularium

variable {schema : Schema} {r : Relation} {table related name : String} {row : Row}

namespace RelationMap

open Tabularium.Relation

theorem resolve_name (h : r ∈ (resolve schema).relations) : r.name = r.related := by
  rcases mem_resolve h with hconv | ⟨href, -⟩
  · obtain ⟨base, -, other, -, hr⟩ := mem_conventional hconv
    obtain ⟨-, ⟨-, rfl⟩ | ⟨-, -, rfl⟩⟩ := byConvention?_eq_some.mp hr <;> rfl
  · obtain ⟨base, -, column, -, hr⟩ := mem_referenced href
    obtain ⟨target, -, -, rfl | rfl⟩ := mem_byReference.mp hr <;> rfl

theorem get?_name (h : (resolve schema).get? table related = some r) : r.name = related := by
  unfold get? at h
  have joins : r.joins table related = true := by simpa using List.find?_some h
  rw [resolve_name (List.mem_of_find?_eq_some h), (joins_iff.mp joins).2]

end RelationMap

namespace Query

theorem apply_includes_nodup {q : Query} (call : BuilderCall) (h : q.includes.Nodup) :
    (call.apply q).includes.Nodup := by
  cases call with
  | including related =>
    rw [BuilderCall.apply, including]
    split
    next => exact h
    next fresh =>
      have fresh : related ∉ q.includes := by simpa using fresh
      exact List.nodup_append.mpr ⟨h, List.nodup_singleton related, fun a ha b hb hab =>
        fresh (List.mem_singleton.mp hb ▸ hab ▸ ha)⟩
  | _ => exact h

/-- A query includes no table twice. -/
theorem build_includes_nodup (table : String) (calls : List BuilderCall) :
    (build table calls).includes.Nodup := by
  have keeps : ∀ (calls : List BuilderCall) (q : Query), q.includes.Nodup →
      (calls.foldl BuilderCall.apply q).includes.Nodup := by
    intro calls
    induction calls with
    | nil => exact fun q h => h
    | cons call calls ih => exact fun q h => ih _ (apply_includes_nodup call h)
  exact keeps calls { table } List.nodup_nil

end Query

namespace Relation

/-- Where the names are new to a row, and no look-up that finds a row reads one of them, the row
keeps its entries, and what is found stands behind them. -/
theorem extendWith_entries {found : Relation → List Row} {relations : List Relation}
    (distinct : (relations.map (·.name)).Nodup)
    (fresh : ∀ r ∈ relations, r.name ∉ row.keys)
    (apart : ∀ r ∈ relations, r.keyColumn ∈ relations.map (·.name) → found r = []) :
    (extendWith found relations row).entries
      = row.entries ++ relations.map fun r => (r.name, r.given (found r) row) := by
  induction relations using List.reverseRecOn with
  | nil => simp [extendWith]
  | append_singleton relations r ih =>
    rw [List.map_append, List.nodup_append] at distinct
    have before := ih distinct.1 (fun r' hr => fresh r' (by simp [hr])) fun r' hr hkey =>
      apart r' (by simp [hr]) (by simp [hkey])
    have new : r.name ∉ (extendWith found relations row).keys := by
      rw [OrderedMap.keys, before, List.map_append, List.mem_append, not_or, List.map_map]
      refine ⟨fresh r (by simp), fun there => ?_⟩
      exact distinct.2.2 _ there _ (by simp) rfl
    have same : r.given (found r) (extendWith found relations row)
        = r.given (found r) row := by
      by_cases hkey : r.keyColumn ∈ relations.map (·.name)
      · rw [apart r (by simp) (by simp [hkey]), given_nil, given_nil]
      · exact given_congr (get?_extendWith_other hkey)
    rw [extendWith_concat, same, OrderedMap.insert_entries_new new, before, List.append_assoc,
      List.map_append, List.map_singleton]

end Relation

namespace Session

open Dialogue

variable {store : Call → RowsResult} {s : Session} {q : Query} {statement : Statement}
  {relations : List Relation} {rows outs : List Row}

/-- Each row of a fetch is a row of the statement followed by one value for each include, in the
order of the includes, and in another order the includes give the same values. -/
def Undisturbed (store : Call → RowsResult) (s : Session) (q : Query) (rows : List Row) : Prop :=
  ∃ value : Row → String → Json, ∀ order : List String, order.Perm q.includes →
    ∃ outs, fetchedRows store s { q with includes := order } = some outs
      ∧ outs.map (·.entries)
        = rows.map fun row => row.entries ++ order.map fun name => (name, value row name)

theorem database_eq (opened : Database.ofSchema schema = .ok s.database) :
    s.database = ⟨schema, .resolve schema⟩ := by
  unfold Database.ofSchema at opened
  split at opened
  next => cases opened
  next => exact (Except.ok.inj opened).symm

theorem Accepts.names {compiled : Except CompileError Statement}
    (accepted : Accepts (.resolve schema) q compiled statement relations) :
    relations.map (·.name) = q.includes := by
  have named := map_eq_of_forall₂ (f := id) (g := (·.name))
    (fun table r known => (RelationMap.get?_name known).symm) accepted.related
  rw [← named, List.map_id]

/-- What is put under a name for a row. -/
def valueUnder (store : Call → RowsResult) (s : Session) (q : Query) (statement : Statement)
    (row : Row) (name : String) : Json :=
  ((s.database.relations.get? q.table name).map fun r =>
    r.given (foundRows store s statement r) row).getD .null

theorem Accepts.values (accepted : Accepts s.database.relations q q.compile statement relations)
    (opened : s.database = ⟨schema, .resolve schema⟩) (row : Row) :
    relations.map (fun r => (r.name, r.given (foundRows store s statement r) row))
      = q.includes.map fun name => (name, valueUnder store s q statement row name) := by
  have related := accepted.related
  rw [opened] at related
  refine (map_eq_of_forall₂ (fun name r known => ?_) related).symm
  rw [valueUnder, opened, known, RelationMap.get?_name known]
  rfl

/-- Includes can stand in another order: the query is accepted with the same relations. -/
theorem Succeeds.reorder {order : List String} (h : Succeeds store s q statement relations)
    (perm : order.Perm q.includes) :
    ∃ relations', Succeeds store s { q with includes := order } statement relations' := by
  have there : ∀ name ∈ order, ∃ r ∈ relations, s.database.relations.get? q.table name = some r :=
    fun name hname => forall₂_mem h.accepted.related (perm.subset hname)
  obtain ⟨relations', related⟩ := exists_forall₂ fun name hname => (there name hname).imp
    fun r hr => hr.2
  refine ⟨relations', ⟨h.accepted.compiled, related⟩, h.answered, fun r hr => ?_⟩
  obtain ⟨name, hname, known⟩ := forall₂_mem related.flip hr
  obtain ⟨r', hr', known'⟩ := there name hname
  have same : r' = r := Option.some.inj (known'.symm.trans known)
  exact h.found r (same ▸ hr')

theorem hasKey_eq_false (h : ∀ row ∈ rows, r.keyColumn ∉ row.keys) : r.hasKey rows = false := by
  rw [Relation.hasKey, List.any_eq_false]
  intro row hr keyed
  have none : row.get? r.keyColumn = none := OrderedMap.get?_eq_none.mpr (h row hr)
  simp [none] at keyed

theorem extendedRows_entries (opened : s.database = ⟨schema, .resolve schema⟩)
    (h : Succeeds store s q statement relations) (distinct : q.includes.Nodup)
    (apart : ∀ row ∈ baseRows store s statement, ∀ name ∈ q.includes, name ∉ row.keys) :
    (extendedRows store s statement relations).map (·.entries)
      = (baseRows store s statement).map fun row =>
        row.entries
          ++ q.includes.map fun name => (name, valueUnder store s q statement row name) := by
  have accepted := h.accepted
  rw [opened] at accepted
  have names := accepted.names
  rw [extendedRows, List.map_map]
  refine List.map_congr_left fun row hr => ?_
  rw [Function.comp_apply, ← h.accepted.values opened row]
  refine Relation.extendWith_entries (names ▸ distinct) (fun r hmem => ?_) fun r hmem hkey => ?_
  · exact apart row hr r.name (names ▸ List.mem_map_of_mem hmem)
  · have none := hasKey_eq_false fun row hr => apart row hr r.keyColumn (names ▸ hkey)
    rw [foundRows, none, if_neg Bool.false_ne_true]

theorem Undisturbed.apart (h : Undisturbed store s q rows) :
    ∀ row ∈ rows, ∀ name ∈ q.includes, name ∉ row.keys := by
  obtain ⟨value, undisturbed⟩ := h
  intro row hr name hname column
  obtain ⟨outs, -, entries⟩ := undisturbed q.includes (.refl _)
  have there := List.mem_map_of_mem (f := fun row : Row => row.entries
    ++ q.includes.map fun name => (name, value row name)) hr
  rw [← entries] at there
  obtain ⟨out, -, same⟩ := List.mem_map.mp there
  have nodup := out.nodup
  rw [same, List.map_append, List.nodup_append] at nodup
  exact nodup.2.2 name column name (by simpa using hname) rfl

/-- The rows of a fetch are undisturbed exactly when the statement of the query is answered with no
column that has the name of an included table. -/
theorem undisturbed_iff {calls : List BuilderCall}
    (opened : Database.ofSchema schema = .ok s.database)
    (compiles : (Query.build table calls).compile = .ok statement)
    (success : fetchedRows store s (Query.build table calls) = some outs) :
    Undisturbed store s (Query.build table calls) (baseRows store s statement)
      ↔ ∀ row ∈ baseRows store s statement, ∀ name ∈ (Query.build table calls).includes,
        name ∉ row.keys := by
  have opened := database_eq opened
  have distinct := Query.build_includes_nodup table calls
  generalize Query.build table calls = q at *
  obtain ⟨statement', relations, succeeds, rfl⟩ := fetchedRows_eq_some.mp success
  obtain rfl : statement' = statement :=
    Except.ok.inj (succeeds.accepted.compiled.symm.trans compiles)
  refine ⟨Undisturbed.apart, fun apart => ?_⟩
  -- A key column with the name of an include is in no row and finds nothing, so what an include
  -- puts to a row does not depend on the other includes.
  refine ⟨valueUnder store s q statement', fun order perm => ?_⟩
  obtain ⟨relations', succeeds'⟩ := succeeds.reorder perm
  have apart' : ∀ row ∈ baseRows store s statement', ∀ name ∈ order, name ∉ row.keys :=
    fun row hr name hname => apart row hr name (perm.subset hname)
  exact ⟨_, fetchedRows_eq_some.mpr ⟨_, _, succeeds', rfl⟩,
    extendedRows_entries opened succeeds' (perm.nodup_iff.mpr distinct) apart'⟩

/-- Posts with an author and a team; the column for the team has a given name. -/
def forum (teamColumn : String) : Definition :=
  ({ name := "forum" } : Definition).column "users" "id" "integer primary key"
    |>.column "teams" "id" "integer primary key" |>.column "posts" "userId" "integer"
    |>.column "posts" teamColumn "integer -> teams.id"

def forumSchema (teamColumn : String) : Schema :=
  ⟨"forum", 1, [
    { name := "users", columns := [{ name := "id", type := .integer, primaryKey := true }] },
    { name := "teams", columns := [{ name := "id", type := .integer, primaryKey := true }] },
    { name := "posts"
      columns := [{ name := "userId", type := .integer },
        { name := teamColumn, type := .integer, references := some ⟨"teams", "id", none⟩ }] }]⟩

def forumSession (teamColumn : String) : Session :=
  { database := ⟨forumSchema teamColumn, .resolve (forumSchema teamColumn)⟩ }

def forumPost (teamColumn : String) : Row :=
  .ofList [("userId", .int 1), (teamColumn, .int 7)]

/-- One post, its author and its team. -/
def forumStore (teamColumn : String) (call : Call) : RowsResult :=
  if call.request = .exec ⟨"SELECT * FROM posts", []⟩ then .ok [forumPost teamColumn] {}
  else if call.request = .exec ⟨"SELECT * FROM users WHERE id IN (?)", [.int 1]⟩ then
    .ok [.ofList [("id", .int 1)]] {}
  else if call.request = .exec ⟨"SELECT * FROM teams WHERE id IN (?)", [.int 7]⟩ then
    .ok [.ofList [("id", .int 7)]] {}
  else .failure "no such rows"

def postsWith (first second : String) : Query :=
  .build "posts" [.including first, .including second]

theorem undisturbed_iff_forum :
    (forum "teamId").compile = .ok (forumSchema "teamId")
      ∧ Database.ofSchema (forumSchema "teamId") = .ok (forumSession "teamId").database
      ∧ (postsWith "users" "teams").compile = .ok ⟨"SELECT * FROM posts", []⟩
      ∧ fetchedRows (forumStore "teamId") (forumSession "teamId") (postsWith "users" "teams")
        = some [.ofList [("userId", .int 1), ("teamId", .int 7),
          ("users", .record [("id", .int 1)]),
          ("teams", .record [("id", .int 7)])]]
      ∧ Undisturbed (forumStore "teamId") (forumSession "teamId") (postsWith "users" "teams")
        [forumPost "teamId"] := by
  have compiled : (forum "teamId").compile = .ok (forumSchema "teamId") := by decide +kernel
  have fetched : fetchedRows (forumStore "teamId") (forumSession "teamId")
        (postsWith "users" "teams")
      = some [.ofList [("userId", .int 1), ("teamId", .int 7), ("users", .record [("id", .int 1)]),
        ("teams", .record [("id", .int 7)])]] := by rfl
  have apart : ∀ row ∈ [forumPost "teamId"], ∀ name ∈ (postsWith "users" "teams").includes,
      name ∉ row.keys := by decide
  have opened : Database.ofSchema (forumSchema "teamId")
      = .ok (forumSession "teamId").database := rfl
  have compiles : (postsWith "users" "teams").compile = .ok ⟨"SELECT * FROM posts", []⟩ := rfl
  exact ⟨compiled, opened, compiles, fetched, (undisturbed_iff opened compiles fetched).mpr apart⟩

/-- The author of a post takes the place of its column `users`; the team that this column refers to
is found and then not put to the post, unless the teams are included first. -/
theorem include_overwrites_column :
    (forum "users").compile = .ok (forumSchema "users")
      ∧ Database.ofSchema (forumSchema "users") = .ok (forumSession "users").database
      ∧ baseRows (forumStore "users") (forumSession "users") ⟨"SELECT * FROM posts", []⟩
        = [forumPost "users"]
      ∧ fetchedRows (forumStore "users") (forumSession "users") (postsWith "users" "teams")
        = some [.ofList [("userId", .int 1), ("users", .record [("id", .int 1)]), ("teams", .null)]]
      ∧ fetchedRows (forumStore "users") (forumSession "users") (postsWith "teams" "users")
        = some [.ofList [("userId", .int 1), ("users", .record [("id", .int 1)]),
          ("teams", .record [("id", .int 7)])]]
      ∧ ¬ Undisturbed (forumStore "users") (forumSession "users") (postsWith "users" "teams")
        [forumPost "users"] := by
  have compiled : (forum "users").compile = .ok (forumSchema "users") := by decide +kernel
  refine ⟨compiled, rfl, rfl, rfl, rfl, fun undisturbed => ?_⟩
  exact undisturbed.apart _ List.mem_cons_self "users" List.mem_cons_self (by decide)

end Session

end Tabularium
