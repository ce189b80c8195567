import Mathlib.Data.List.Nodup
import Tabularium.Proofs.Migration.RunContract

namespace Tabularium

/-- A row of the history table. -/
structure HistoryRow where
  id : Int
  tag : String
  createdAt : Int64
deriving DecidableEq

def HistoryRow.toRow (r : HistoryRow) : Row :=
  .ofList [("id", .int r.id), ("tag", .text r.tag), ("created_at", .int r.createdAt.toInt)]

/-- A store: the rows of its history table once that exists, and everything else. -/
structure HistoryStore (σ : Type) where
  rows : Option (List HistoryRow) := none
  data : σ

namespace HistoryStore

open MigrationHistory

variable {σ : Type} {effect : Statement → σ → Option σ} {store store' : HistoryStore σ}

def tags (store : HistoryStore σ) : List String :=
  (store.rows.getD []).map (·.tag)

/-- The tag and the time that a statement records. -/
def recorded? (s : Statement) : Option (String × Int64) :=
  match s.params with
  | [.text tag, .int createdAt] =>
    if s = HistoryTable.insertion tag createdAt then some (tag, createdAt) else none
  | _ => none

def recordedTags (statements : List Statement) : List String :=
  statements.filterMap fun s => (recorded? s).map Prod.fst

/-- What a statement does to everything but the history table, where `effect` says what statements
that record nothing do; it may fail. -/
def change (effect : Statement → σ → Option σ) (data : σ) (s : Statement) : Option σ :=
  if (recorded? s).isSome then some data else effect s data

/-- The history table with a record, unless the table is missing or has the tag. -/
def insert (store : HistoryStore σ) (tag : String) (createdAt : Int64) : Option (HistoryStore σ) :=
  match store.rows with
  | none => none
  | some rows =>
    if tag ∈ rows.map (·.tag) then none
    else some { store with rows := some (rows ++ [⟨rows.length + 1, tag, createdAt⟩]) }

/-- Executes a statement. Only a record touches the history table. -/
def execute (effect : Statement → σ → Option σ) (store : HistoryStore σ) (s : Statement) :
    Option (HistoryStore σ) :=
  match recorded? s with
  | some (tag, createdAt) => store.insert tag createdAt
  | none => (effect s store.data).map fun data => { store with data }

/-- What a request does when it takes effect: a batch takes effect as a whole, the table is created
unless it is there, and it can only be read when it is there. -/
def carryOut (effect : Statement → σ → Option σ) (store : HistoryStore σ) :
    Request → Option (HistoryStore σ)
  | .exec s =>
    if s = HistoryTable.creation then some { store with rows := some (store.rows.getD []) }
    else if s = HistoryTable.reading then store.rows.map fun _ => store
    else store.execute effect s
  | .batch statements => statements.foldlM (execute effect) store

/-- How a store serves a call, and whether the call takes effect. A call may be refused for any
reason, and its reply may be lost; a reply to a read holds the rows. -/
inductive Serves (effect : Statement → σ → Option σ) (store : HistoryStore σ) (call : Call) :
    RowsResult → Bool → HistoryStore σ → Prop
  | refused {reply : RowsResult} (failure : reply.success = false) :
    Serves effect store call reply false store
  | answered {reply : RowsResult} {after : HistoryStore σ}
    (done : store.carryOut effect call.request = some after) (success : reply.success = true)
    (rows : call.request = .exec HistoryTable.reading →
      reply.data = some ((store.rows.getD []).map HistoryRow.toRow)) :
    Serves effect store call reply true after
  | lost {reply : RowsResult} {after : HistoryStore σ}
    (done : store.carryOut effect call.request = some after) (failure : reply.success = false) :
    Serves effect store call reply true after

theorem recorded?_insertion (tag : String) (createdAt : Int64) :
    recorded? (HistoryTable.insertion tag createdAt) = some (tag, createdAt) := by
  simp [recorded?, HistoryTable.insertion]

theorem recorded?_unbound (sql : String) : recorded? ⟨sql, []⟩ = none := rfl

theorem recordedTags_batch (createdAt : Int64) (m : Migration) :
    recordedTags (m.batch createdAt) = [m.tag] := by
  simp [recordedTags, Migration.batch, recorded?_insertion, List.filterMap_append,
    Function.comp_def, recorded?_unbound]

theorem insert_eq_some {tag : String} {createdAt : Int64}
    (h : store.insert tag createdAt = some store') :
    tag ∉ store.tags ∧ store'.tags = store.tags ++ [tag] ∧ store'.data = store.data := by
  unfold insert at h
  split at h
  next => cases h
  next rows hr =>
    split at h
    next => cases h
    next fresh =>
      cases Option.some.inj h
      exact ⟨by simpa [tags, hr] using fresh, by simp [tags, hr], rfl⟩

/-- A statement appends what it records to the tags, which stay distinct. -/
theorem execute_tags {s : Statement} (h : store.execute effect s = some store') :
    store'.tags = store.tags ++ recordedTags [s] ∧ (store.tags.Nodup → store'.tags.Nodup) ∧
      change effect store.data s = some store'.data := by
  unfold execute at h
  split at h
  next tag createdAt hs =>
    obtain ⟨fresh, ht, hd⟩ := insert_eq_some h
    refine ⟨by simp [ht, recordedTags, hs], fun nodup => ?_, by simp [change, hs, hd]⟩
    rw [ht, List.nodup_append]
    refine ⟨nodup, List.nodup_singleton _, fun a ha b hb eq => ?_⟩
    cases List.mem_singleton.mp hb
    exact fresh (eq ▸ ha)
  next hs =>
    obtain ⟨data, hd, rfl⟩ := Option.map_eq_some_iff.mp h
    exact ⟨by simp [tags, recordedTags, hs], fun nodup => nodup, by simp [change, hs, hd]⟩

/-- A batch appends all that it records to the tags, which stay distinct. -/
theorem executeAll_tags {statements : List Statement}
    (h : statements.foldlM (execute effect) store = some store') :
    store'.tags = store.tags ++ recordedTags statements ∧
      (store.tags.Nodup → store'.tags.Nodup) ∧
      statements.foldlM (change effect) store.data = some store'.data := by
  induction statements generalizing store with
  | nil =>
    cases Option.some.inj h
    exact ⟨by simp [recordedTags], fun nodup => nodup, rfl⟩
  | cons s rest ih =>
    rw [List.foldlM_cons] at h
    obtain ⟨middle, first, more⟩ := Option.bind_eq_some_iff.mp h
    obtain ⟨ht, hn, hd⟩ := execute_tags first
    obtain ⟨ht', hn', hd'⟩ := ih more
    refine ⟨?_, fun nodup => hn' (hn nodup), ?_⟩
    · rw [ht', ht, List.append_assoc, recordedTags, recordedTags, recordedTags,
        ← List.filterMap_append, List.singleton_append]
    · rw [List.foldlM_cons]
      exact Option.bind_eq_some_iff.mpr ⟨_, hd, hd'⟩

theorem carryOut_creation
    (h : store.carryOut effect (.exec HistoryTable.creation) = some store') :
    store'.tags = store.tags ∧ store'.data = store.data := by
  rw [carryOut, if_pos rfl] at h
  cases Option.some.inj h
  exact ⟨rfl, rfl⟩

theorem carryOut_reading (h : store.carryOut effect (.exec HistoryTable.reading) = some store') :
    store' = store := by
  rw [carryOut, if_neg HistoryTable.reading_ne_creation, if_pos rfl] at h
  obtain ⟨_, _, rfl⟩ := Option.map_eq_some_iff.mp h
  rfl

theorem tagOf?_toRow (r : HistoryRow) : HistoryTable.tagOf? r.toRow = some r.tag := rfl

theorem replyTags_rows {reply : RowsResult}
    (h : reply.data = some ((store.rows.getD []).map HistoryRow.toRow)) :
    replyTags reply = store.tags := by
  simp [replyTags, h, tags, List.filterMap_map, Function.comp_def, tagOf?_toRow]

end HistoryStore

end Tabularium
