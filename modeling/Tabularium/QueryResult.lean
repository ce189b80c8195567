import Tabularium.Json.Draft

namespace Tabularium

/-- What a store reports about the execution of a statement. -/
structure QueryMeta where
  /-- The rows inserted, updated or deleted. -/
  changes : UInt64 := 0
  lastRowId : Option Int64 := none
  durationMs : Binary64 := .zero
  /-- The point of consistency behind the statement. -/
  bookmark : Option String := none
deriving DecidableEq, Inhabited

namespace QueryMeta

def toJson (m : QueryMeta) : Json :=
  .record (("changes", .int m.changes.toNat)
    :: Json.optional "lastRowId" (m.lastRowId.map fun n => .int n.toInt)
    ++ ("durationMs", Json.ofNumber m.durationMs)
    :: Json.optional "bookmark" (m.bookmark.map .text))

/-- The fields of a report, none of which has to be there. -/
def fields : List (Field QueryMeta) :=
  [.defaulted "changes" (Draft.asWord uint64?) fun m changes => { m with changes },
    .optional "lastRowId" (Draft.asWord int64?) fun m lastRowId => { m with lastRowId },
    .defaulted "durationMs" Draft.asNumber fun m durationMs => { m with durationMs },
    .optional "bookmark" Draft.asText fun m bookmark => { m with bookmark }]

def read : Draft → Except Fault QueryMeta :=
  Draft.asRecord fields {}

end QueryMeta

structure StatementResult where
  success : Bool
  data : Option (List Row)
  results : Option (List StatementResult)
  error : Option String
  info : Option QueryMeta

/-- The result of a call to a store. A failure of the store is a result as well. -/
structure QueryResult (α : Type) where
  success : Bool
  data : Option α
  /-- The results of the statements of a batch. -/
  results : Option (List StatementResult) := none
  error : Option String := none
  info : Option QueryMeta := none

/-- The result of a call that answers with rows. -/
abbrev RowsResult := QueryResult (List Row)

namespace QueryResult

variable {α β : Type}

/-- A success with what it carries. -/
def ok (data : α) (info : QueryMeta) : QueryResult α :=
  { success := true, data := some data, info := some info }

def failure (message : String) : QueryResult α :=
  { success := false, data := none, error := some message }

/-- The point of consistency that the store reports. -/
def bookmark (r : QueryResult α) : Option String :=
  r.info.bind (·.bookmark)

/-- The result with what it carries changed. -/
def map (f : α → β) (r : QueryResult α) : QueryResult β :=
  ⟨r.success, r.data.map f, r.results, r.error, r.info⟩

/-- The result as a failure that carries nothing. -/
def intoFailure (r : QueryResult α) : QueryResult β :=
  ⟨false, none, r.results, r.error, r.info⟩

/-- The entries of a result in order; what is absent is left out. -/
def entriesOf (success : Bool) (data results : Option Json) (error : Option String)
    (info : Option QueryMeta) : List (String × Json) :=
  ("success", .bool success) :: Json.optional "data" data ++ Json.optional "results" results
    ++ Json.optional "error" (error.map .text) ++ Json.optional "meta" (info.map QueryMeta.toJson)

end QueryResult

def Json.ofRows (rows : List Row) : Json :=
  .list (rows.map Json.ofRow)

namespace StatementResult

mutual

def toJson : StatementResult → Json
  | ⟨success, data, none, error, info⟩ =>
    .record (QueryResult.entriesOf success (data.map Json.ofRows) none error info)
  | ⟨success, data, some results, error, info⟩ =>
    .record (QueryResult.entriesOf success (data.map Json.ofRows) (some (.list (toJsons results)))
      error info)
termination_by structural r => r

def toJsons : List StatementResult → List Json
  | [] => []
  | r :: rs => toJson r :: toJsons rs
termination_by structural rs => rs

end

end StatementResult

namespace QueryResult

variable {α : Type}

/-- The document for a result, given the document for what it carries. -/
def toJson (encode : α → Json) (r : QueryResult α) : Json :=
  .record (entriesOf r.success (r.data.map encode)
    (r.results.map fun rs => .list (StatementResult.toJsons rs)) r.error r.info)

/-- The fields of a result, given how what it carries and the results of statements are read. -/
def fields (decode : Draft → Except Fault α) (statements : Draft → Except Fault StatementResult) :
    List (Field (QueryResult α)) :=
  [.required "success" Draft.asBool fun r success => { r with success },
    .nullable "data" decode fun r data => { r with data },
    .optional "results" (Draft.asList statements) fun r results => { r with results },
    .optional "error" Draft.asText fun r error => { r with error },
    .optional "meta" QueryMeta.read fun r info => { r with info }]

end QueryResult

def Row.read : Draft → Except Fault Row :=
  Draft.asMap Draft.settle

def Row.readAll : Draft → Except Fault (List Row) :=
  Draft.asList Row.read

namespace Draft

mutual

/-- How deep containers are nested in the value. -/
def height : Draft → Nat
  | .list _ items _ => itemsHeight items + 1
  | .record _ entries _ => entriesHeight entries + 1
  | _ => 0
termination_by structural d => d

/-- The greatest height of the values. -/
def itemsHeight : List Draft → Nat
  | [] => 0
  | d :: ds => max (height d) (itemsHeight ds)
termination_by structural ds => ds

/-- The greatest height of the values of entries. -/
def entriesHeight : List (Option String × Draft) → Nat
  | [] => 0
  | (_, d) :: entries => max (height d) (entriesHeight entries)
termination_by structural entries => entries

end

end Draft

namespace StatementResult

def toResult (r : StatementResult) : RowsResult :=
  ⟨r.success, r.data, r.results, r.error, r.info⟩

def ofResult (r : RowsResult) : StatementResult :=
  ⟨r.success, r.data, r.results, r.error, r.info⟩

/-- Reads results nested up to a depth. -/
def readNested : Nat → Draft → Except Fault StatementResult
  | 0, d => .error d.mismatch
  | depth + 1, d =>
    (Draft.asRecord (QueryResult.fields Row.readAll (readNested depth))
      ⟨false, none, none, none, none⟩ d).map ofResult

def read (d : Draft) : Except Fault StatementResult :=
  readNested (d.height + 1) d

end StatementResult

namespace QueryResult

/-- Reads a result, given how what it carries is read. -/
def read {α : Type} (decode : Draft → Except Fault α) : Draft → Except Fault (QueryResult α) :=
  Draft.asRecord (fields decode StatementResult.read) ⟨false, none, none, none, none⟩

end QueryResult

end Tabularium
