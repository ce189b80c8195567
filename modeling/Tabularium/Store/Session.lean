import Tabularium.Query.Mutation
import Tabularium.Query.Related
import Tabularium.Store.Bookmark
import Tabularium.Store.Error
import Tabularium.Store.Operation

namespace Tabularium

/-- A compiled schema with its relations. -/
structure Database where
  schema : Schema
  relations : RelationMap

def Database.ofSchema (s : Schema) : Except ConfigError Database :=
  if s.tables.isEmpty then .error .missingSchema else .ok ⟨s, .resolve s⟩

/-- What one caller knows: the database and the latest point of consistency seen. -/
structure Session where
  database : Database
  bookmarks : BookmarkTracker := {}

namespace Session

/-- The point of consistency that the next call carries. -/
def bookmark (s : Session) : Option String :=
  s.bookmarks.current

def clear (s : Session) : Session :=
  { s with bookmarks := s.bookmarks.clear }

/-- The session after a reply. -/
def observe {α : Type} (s : Session) (r : QueryResult α) : Session :=
  { s with bookmarks := s.bookmarks.observe r }

def perform (s : Session) (op : Operation) : Dialogue (QueryResult op.Payload × Session) := do
  let r ← op.perform s.bookmark
  return (r, s.observe r)

def exec (s : Session) (statement : Statement) : Dialogue (RowsResult × Session) :=
  s.perform (.exec statement)

/-- The result of something that may not have compiled, with the session after it. -/
abbrev Outcome (α : Type) := Except CompileError (QueryResult α) × Session

/-- Executes a statement if it compiles, and sends nothing if it does not. -/
def execCompiled (s : Session) (statement : Except CompileError Statement) :
    Dialogue (Outcome (List Row)) :=
  match statement with
  | .error e => pure (.error e, s)
  | .ok statement => do
    let (r, s) ← s.exec statement
    return (.ok r, s)

/-- The replies for the related rows, all asked for with one point of consistency; a relation
without keys to look up has none. -/
def askRelated (bookmark : Option String) (rows : List Row) :
    List Relation → Dialogue (List (Relation × Option RowsResult))
  | [] => pure []
  | r :: rs => do
    let reply ← match r.relatedStatement? rows with
      | none => pure none
      | some statement => some <$> Dialogue.call (.exec statement) bookmark
    return (r, reply) :: (← askRelated bookmark rows rs)

/-- Puts the related rows to the rows, up to the first failure, which is given instead. -/
def attachReplies (s : Session) (rows : List Row) :
    List (Relation × Option RowsResult) → Except RowsResult (List Row) × Session
  | [] => (.ok rows, s)
  | (r, none) :: replies => attachReplies s (r.attach rows []) replies
  | (r, some reply) :: replies =>
    if reply.success then
      attachReplies (s.observe reply) (r.attach rows (reply.data.getD [])) replies
    else (.error reply, s.observe reply)

/-- Executes the statement of a query, then one statement for each relation that it includes. -/
def fetchWith (s : Session) (q : Query) (statement : Statement) : Dialogue (Outcome (List Row)) :=
  match q.relations s.database.relations with
  | .error e => pure (.error e, s)
  | .ok relations => do
    let (r, s) ← s.exec statement
    if !r.success || relations.isEmpty then return (.ok r, s)
    let rows := r.data.getD []
    let replies ← askRelated s.bookmark rows relations
    match attachReplies s rows replies with
    | (.error failure, s) => return (.ok failure, s)
    | (.ok rows, s) => return (.ok { r with data := some rows }, s)

/-- The rows of a query with the related rows that it includes. -/
def fetch (s : Session) (q : Query) : Dialogue (Outcome (List Row)) :=
  match q.compile with
  | .error e => pure (.error e, s)
  | .ok statement => s.fetchWith q statement

/-- The first row of a query with the related rows that it includes, or null. -/
def first (s : Session) (q : Query) : Dialogue (Outcome Json) :=
  match q.compileFirst with
  | .error e => pure (.error e, s)
  | .ok statement => do
    let (r, s) ← s.fetchWith q statement
    return (r.map fun r => r.map fun rows => firstValue rows none, s)

def insert (s : Session) (table : String) (row : Row) : Dialogue (Outcome (List Row)) :=
  s.execCompiled (Mutation.insert table row)

def update (s : Session) (table : String) (conditions : Json) (patch : Row) :
    Dialogue (Outcome (List Row)) :=
  s.execCompiled (Mutation.update table conditions patch)

def delete (s : Session) (table : String) (conditions : Json) : Dialogue (Outcome (List Row)) :=
  s.execCompiled (Mutation.delete table conditions)

/-- The number that the first row reports, zero when there is none. -/
def countOf (rows : List Row) : UInt64 :=
  match rows with
  | [] => 0
  | row :: _ =>
    match row.get? "count" with
    | some (.int n) => (uint64? n).getD 0
    | _ => 0

def count (s : Session) (table : String) (conditions : Json) : Dialogue (Outcome UInt64) := do
  let (r, s) ← s.execCompiled (Mutation.count table conditions)
  return (r.map fun r => r.map countOf, s)

end Session

end Tabularium
