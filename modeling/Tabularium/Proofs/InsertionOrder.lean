import Tabularium.Proofs.Json.CompactRoundTrip
import Tabularium.Proofs.Json.RecordReading
import Tabularium.Proofs.OrderedMap
import Tabularium.Schema.Document

namespace Tabularium

namespace Json

variable {level level' : Nat} {j : Json}

/-- What may stand at a level of nesting may stand further out as well. -/
theorem Readable.outward (h : Readable level j) (hlevel : level' ≤ level) : Readable level' j := by
  induction h generalizing level' with
  | null _ => exact .null _
  | bool _ b => exact .bool _ b
  | int _ n low high => exact .int _ n low high
  | float _ x finite => exact .float _ x finite
  | text _ s => exact .text _ s
  | list level items shallow _ ih =>
    exact .list _ items (by omega) fun j hj => ih j hj (by omega)
  | record level entries shallow _ ih =>
    exact .record _ entries (by omega) fun e he => ih e he (by omega)

end Json

namespace OrderedMap

variable {α : Type}

/-- A call that stores into a map. -/
inductive Call (α : Type) where
  | insert (key : String) (value : α)
  /-- Stores a value under a key that has none, and leaves one that has. -/
  | ensure (key : String) (value : α)
  /-- Changes the value under a key, which starts from a given one when it has none. -/
  | update (key : String) (start : α) (change : α → α)

namespace Call

def key : Call α → String
  | insert key _ => key
  | ensure key _ => key
  | update key _ _ => key

def apply (m : OrderedMap α) : Call α → OrderedMap α
  | insert key value => m.insert key value
  | ensure key value => m.ensure key value
  | update key start change => m.update key start change

/-- The value that stands under the key of a call behind it, given the one in front of it. -/
def stored (last : Option α) : Call α → α
  | insert _ value => value
  | ensure _ value => last.getD value
  | update _ start change => change (last.getD start)

end Call

/-- The map that calls build one after the other. -/
def run (calls : List (Call α)) : OrderedMap α :=
  calls.foldl Call.apply empty

/-- The value that calls have stored last under a key; only those for the key matter. -/
def lastStored (key : String) (calls : List (Call α)) : Option α :=
  calls.foldl (fun last call => if call.key = key then some (call.stored last) else last) none

/-- The calls that insert entries one after the other. -/
def insertions (entries : List (String × α)) : List (Call α) :=
  entries.map fun e => .insert e.1 e.2

/-- What is to be seen of a map behind calls: its keys are distinct and stand in the order in which
the calls first name them, and under each of them is the value last stored there. -/
structure Reflects (calls : List (Call α)) (m : OrderedMap α) : Prop where
  distinct : m.keys.Nodup
  ordered : m.keys = (calls.map Call.key).eraseDups
  stored : ∀ key, m.get? key = lastStored key calls
  others : ∀ key, key ∉ calls.map Call.key → m.get? key = none

variable {m n : OrderedMap α} {entries : List (String × α)} {key : String} {value : α}
  {calls : List (Call α)} {call : Call α}

namespace Call

/-- Every call is the insertion of the value that it stores. -/
theorem apply_eq_insert (m : OrderedMap α) (call : Call α) :
    call.apply m = m.insert call.key (call.stored (m.get? call.key)) := by
  cases call with
  | insert key value => rfl
  | update key start change => rfl
  | ensure key value =>
    rw [apply, OrderedMap.ensure, Call.key, stored]
    cases h : m.get? key with
    | some v => exact (insert_self h).symm
    | none => rfl

/-- A call for a key that is there changes its value in its place and nothing else. -/
theorem apply_entries_known (call : Call α) (h : call.key ∈ m.keys) : (call.apply m).entries
    = m.entries.map fun e => if e.1 = call.key then (e.1, call.stored (some e.2)) else e := by
  rw [apply_eq_insert, insert_entries_known h]
  refine List.map_congr_left fun e he => ?_
  split
  next hk => rw [← hk, get?_of_mem he]
  next => rfl

theorem apply_entries_new (call : Call α) (h : call.key ∉ m.keys) :
    (call.apply m).entries = m.entries ++ [(call.key, call.stored none)] := by
  rw [apply_eq_insert, insert_entries_new h, get?_eq_none.mpr h]

end Call

theorem run_snoc : run (calls ++ [call]) = call.apply (run calls) := by
  rw [run, List.foldl_append]
  rfl

theorem lastStored_snoc : lastStored key (calls ++ [call])
    = if call.key = key then some (call.stored (lastStored key calls))
      else lastStored key calls := by
  rw [lastStored, List.foldl_append]
  rfl

theorem eraseDups_snoc (texts : List String) (text : String) : (texts ++ [text]).eraseDups
    = if text ∈ texts then texts.eraseDups else texts.eraseDups ++ [text] := by
  rw [List.eraseDups_append, List.removeAll]
  split
  next h => simp [h]
  next h => simp [h, List.eraseDups_cons]

theorem keys_run (calls : List (Call α)) : (run calls).keys = (calls.map Call.key).eraseDups := by
  induction calls using List.reverseRecOn with
  | nil => rfl
  | append_singleton calls call ih =>
    rw [run_snoc, Call.apply_eq_insert, keys_insert, ih, List.map_append, List.map_singleton,
      eraseDups_snoc]
    simp only [List.mem_eraseDups]

theorem get?_run (calls : List (Call α)) (key : String) :
    (run calls).get? key = lastStored key calls := by
  induction calls using List.reverseRecOn with
  | nil => rfl
  | append_singleton calls call ih =>
    rw [run_snoc, Call.apply_eq_insert, get?_insert, lastStored_snoc, ih]
    split
    next hk => rw [hk, ih]
    next => rfl

theorem run_reflects (calls : List (Call α)) : Reflects calls (run calls) := by
  refine ⟨(run calls).nodup, keys_run calls, get?_run calls, fun key hkey => ?_⟩
  rw [get?_eq_none, keys_run, List.mem_eraseDups]
  exact hkey

/-- Calls leave nothing open about the map. -/
theorem reflects_iff : Reflects calls m ↔ run calls = m := by
  constructor
  · intro h
    have hrun := run_reflects calls
    exact eq_of_get? (hrun.ordered.trans h.ordered.symm)
      fun key => (hrun.stored key).trans (h.stored key).symm
  · rintro rfl
    exact run_reflects calls

theorem run_insertions (entries : List (String × α)) :
    run (insertions entries) = ofList entries := by
  rw [run, insertions, List.foldl_map]
  rfl

/-- A map whose values survive being written is read back from its text. -/
theorem decode_toJson {read : Draft → Except Fault α} {write : α → Json}
    (h : ∀ e ∈ m.entries, Json.Readable 2 (write e.2)
      ∧ Draft.decode read (write e.2).compact = .ok e.2) :
    Draft.decode (Draft.asMap read) (m.toJson write).compact = .ok m
      ∧ Draft.decode (Draft.asMap read) (m.toJson write).pretty = .ok m := by
  have hlimit : 1 < Draft.depthLimit := by decide
  have hreadable : Json.Readable 1 (m.toJson write) := by
    refine .record 1 _ hlimit fun e he => ?_
    obtain ⟨entry, hentry, rfl⟩ := List.mem_map.mp he
    exact (h entry hentry).1
  have hmap : Draft.asMap read (m.toJson write).reread = .ok m := by
    rw [toJson, Draft.asMap_written, ofList_self]
    intro e he
    obtain ⟨hvalue, hdecode⟩ := h e he
    rwa [Draft.decode_compact read (hvalue.outward (by omega))] at hdecode
  rw [Draft.decode_compact _ hreadable, Draft.decode_pretty _ hreadable]
  exact ⟨hmap, hmap⟩

/-- A map keeps the order of insertion. However it was built by calls or read from the text of a
record, keys repeated there included, its keys are distinct and stand in the order in which they
first occur, and under each is the value that was stored last. It is read back from its own text,
and a call for a key that is there moves no entry and changes no other. -/
theorem keeps_insertion_order :
    (∀ calls : List (Call α), Reflects calls (run calls))
      ∧ (∀ (read : Draft → Except Fault α) (text : String) (m : OrderedMap α),
        Draft.decode (Draft.asMap read) text = .ok m
          ↔ ∃ written entries, Draft.ofText text = (.record false written true, true)
            ∧ List.Forall₂ (fun w e => w.1 = some e.1 ∧ read w.2 = .ok e.2) written entries
            ∧ Reflects (insertions entries) m)
      ∧ (∀ (read : Draft → Except Fault α) (write : α → Json) (m : OrderedMap α),
        (∀ e ∈ m.entries, Json.Readable 2 (write e.2)
          ∧ Draft.decode read (write e.2).compact = .ok e.2) →
        Draft.decode (Draft.asMap read) (m.toJson write).compact = .ok m
          ∧ Draft.decode (Draft.asMap read) (m.toJson write).pretty = .ok m)
      ∧ ∀ (m : OrderedMap α) (call : Call α),
        (call.key ∈ m.keys → (call.apply m).entries
          = m.entries.map fun e => if e.1 = call.key then (e.1, call.stored (some e.2)) else e)
        ∧ (call.key ∉ m.keys →
          (call.apply m).entries = m.entries ++ [(call.key, call.stored none)]) := by
  refine ⟨run_reflects, fun read text m => ?_, fun read write m => decode_toJson,
    fun m call => ⟨call.apply_entries_known, call.apply_entries_new⟩⟩
  simp only [reflects_iff, run_insertions, Draft.decode_eq_ok, Draft.asMap_eq_ok]
  constructor
  · rintro ⟨d, htext, written, entries, rfl, hread, hm⟩
    exact ⟨written, entries, htext, hread, hm⟩
  · rintro ⟨written, entries, htext, hread, hm⟩
    exact ⟨_, htext, written, entries, rfl, hread, hm⟩

/-- Calls for the columns of a table, some of which are named more than once. -/
def columnCalls : List (Call String) :=
  [.insert "id" "integer", .insert "name" "text", .ensure "id" "blob",
    .update "name" "" (· ++ " unique"), .insert "id" "text",
    .update "age" "real" (· ++ " not null")]

/-- Entries with a name that stands twice. -/
def repeatedNames : List (String × String) :=
  [("b", "1"), ("a", "2"), ("b", "3")]

def repeatedRecord : Json :=
  .record (repeatedNames.map fun (name, x) => (name, .text x))

/-- The columns that the calls leave, a record with a key that stands twice, the record of the
columns, and a change to a column in the middle. -/
theorem keeps_insertion_order_columns :
    ((run columnCalls).keys = ["id", "name", "age"]
        ∧ (run columnCalls).get? "id" = some "text"
        ∧ (run columnCalls).get? "name" = some "text unique"
        ∧ (run columnCalls).get? "at" = none)
      ∧ (Draft.decode (Draft.asMap Draft.asText) "\x7b\"b\":\"1\",\"a\":\"2\",\"b\":\"3\"\x7d"
          = .ok (run (insertions repeatedNames))
        ∧ (run (insertions repeatedNames)).keys = ["b", "a"]
        ∧ (run (insertions repeatedNames)).get? "b" = some "3")
      ∧ ((∀ e ∈ (run columnCalls).entries, Json.Readable 2 (.text e.2)
          ∧ Draft.decode Draft.asText (Json.text e.2).compact = .ok e.2)
        ∧ Draft.decode (Draft.asMap Draft.asText) (Definition.mixinJson (run columnCalls)).compact
          = .ok (run columnCalls))
      ∧ "name" ∈ (run columnCalls).keys
      ∧ ((run columnCalls).insert "name" "blob").entries
        = (run columnCalls).entries.map fun e => if e.1 = "name" then (e.1, "blob") else e := by
  obtain ⟨hcalls, hread, hback, hstep⟩ := @keeps_insertion_order String
  have hcolumns := hcalls columnCalls
  have hrepeated := hcalls (insertions repeatedNames)
  have hkeys : (run columnCalls).keys = ["id", "name", "age"] := hcolumns.ordered.trans (by decide)
  have hname : "name" ∈ (run columnCalls).keys := by
    rw [hkeys]
    decide
  have hreadable : Json.Readable 1 repeatedRecord := by
    refine .record 1 _ (by decide) fun e he => ?_
    obtain ⟨entry, -, rfl⟩ := List.mem_map.mp he
    exact .text 2 entry.2
  have hcompact : repeatedRecord.compact = "\x7b\"b\":\"1\",\"a\":\"2\",\"b\":\"3\"\x7d" := by
    decide
  have htext := Draft.ofText_of_reads (Draft.reads_compact hreadable)
  rw [← Json.compact, hcompact] at htext
  have hvalues : ∀ e ∈ (run columnCalls).entries, Json.Readable 2 (.text e.2)
      ∧ Draft.decode Draft.asText (Json.text e.2).compact = .ok e.2 := by
    intro e _
    exact ⟨.text 2 e.2, Draft.decode_compact Draft.asText (.text 1 e.2)⟩
  refine ⟨⟨hkeys, hcolumns.stored "id", hcolumns.stored "name", hcolumns.others "at" (by decide)⟩,
    ⟨(hread _ _ _).mpr ⟨_, _, htext, ?_, hrepeated⟩, hrepeated.ordered.trans (by decide),
      hrepeated.stored "b"⟩,
    ⟨hvalues, (hback _ .text _ hvalues).1⟩, hname, (hstep _ (.insert "name" "blob")).1 hname⟩
  exact .cons ⟨rfl, rfl⟩ (.cons ⟨rfl, rfl⟩ (.cons ⟨rfl, rfl⟩ .nil))

end OrderedMap

end Tabularium
