import Tabularium.Proofs.Json.Faithful
import Tabularium.Store.Operation

namespace Tabularium

open Draft (Fills storing_ok asOption_ok)

variable {level : Nat}

theorem uint64?_toNat (n : UInt64) : uint64? n.toNat = some n := by
  have := n.toNat_lt
  rw [uint64?, if_pos ⟨by omega, by simpa using this⟩, Int.toNat_natCast, UInt64.ofNat_toNat]

namespace QueryMeta

variable {m : QueryMeta}

/-- The time that is reported is a number that can be written. -/
def Timed (m : QueryMeta) : Prop :=
  m.durationMs.isFinite = true

theorem asNumber_duration (ht : m.Timed) (h : Json.Faithful level m.toJson) :
    Draft.asNumber (Json.ofNumber m.durationMs).reread = .ok m.durationMs := by
  have hfloat : Json.ofNumber m.durationMs = .float m.durationMs := if_pos ht
  have hduration : Json.Faithful (level + 1) (Json.ofNumber m.durationMs) :=
    h.entry (List.mem_append_right _ List.mem_cons_self)
  rw [hfloat] at hduration
  cases hduration with
  | float _ _ _ back => rw [hfloat, Json.reread, Draft.asNumber, back]

/-- A report is read back from its document. -/
theorem read_toJson (ht : m.Timed) (h : Json.Faithful level m.toJson) :
    read m.toJson.reread = .ok m := by
  have hduration := asNumber_duration ht h
  unfold read toJson
  rw [Json.reread, Draft.rereadEntries_append, ← List.append_nil (Json.optional "bookmark" _)]
  simp only [Json.rereadEntries, Draft.rereadEntries_append]
  refine Fills.asRecord (.given (storing_ok (Draft.asWord_ok (uint64?_toNat _)) _)
    (.optional (fun n => n) (fun n _ => ?_) Option.map_id' rfl
    (.given (storing_ok hduration _)
    (.optional (fun b => b) (fun b _ => ?_) Option.map_id' rfl (.done _))))) (by decide)
  · exact asOption_ok (Draft.asWord_ok (int64?_toInt n)) (by simp [Json.reread])
  · exact asOption_ok (Draft.asText_reread b) (by simp [Json.reread])

end QueryMeta

namespace Row

theorem read_ofRow {row : Row} (h : Json.Faithful level (.ofRow row)) :
    read (Json.ofRow row).reread = .ok row := by
  refine Draft.asMap_eq_ok.mpr
    ⟨_, row.entries, by rw [Json.ofRow, Json.reread, Draft.rereadEntries_eq], ?_, row.ofList_self⟩
  rw [List.forall₂_map_left_iff, List.forall₂_same]
  exact fun e he => ⟨rfl, Draft.settle_reread (h.entry he)⟩

theorem readAll_ofRows {rows : List Row} (h : Json.Faithful level (.ofRows rows)) :
    readAll (Json.ofRows rows).reread = .ok rows := by
  have hrows := Draft.asList_map read Json.ofRow id fun row hrow =>
    read_ofRow (h.item (List.mem_map_of_mem hrow))
  rwa [List.map_id] at hrows

end Row

namespace Draft

theorem height_le_itemsHeight {d : Draft} {items : List Draft} (h : d ∈ items) :
    d.height ≤ itemsHeight items := by
  induction items with
  | nil => cases h
  | cons first items ih =>
    rw [itemsHeight]
    rcases List.mem_cons.mp h with rfl | h
    · exact Nat.le_max_left _ _
    · exact (ih h).trans (Nat.le_max_right _ _)

theorem height_le_entriesHeight {key : Option String} {d : Draft}
    {entries : List (Option String × Draft)} (h : (key, d) ∈ entries) :
    d.height ≤ entriesHeight entries := by
  induction entries with
  | nil => cases h
  | cons first entries ih =>
    obtain ⟨key', d'⟩ := first
    rw [entriesHeight]
    rcases List.mem_cons.mp h with heq | h
    · cases heq
      exact Nat.le_max_left _ _
    · exact (ih h).trans (Nat.le_max_right _ _)

theorem height_item {j : Json} {items : List Json} (h : j ∈ items) :
    j.reread.height < (Json.list items).reread.height := by
  rw [Json.reread, rereadItems_eq, height]
  have := height_le_itemsHeight (List.mem_map_of_mem (f := Json.reread) h)
  omega

theorem height_entry {key : String} {j : Json} {entries : List (String × Json)}
    (h : (key, j) ∈ entries) : j.reread.height < (Json.record entries).reread.height := by
  rw [Json.reread, rereadEntries_eq, height]
  have hle : j.reread.height ≤ _ :=
    height_le_entriesHeight (List.mem_map_of_mem (f := fun e => (some e.1, e.2.reread)) h)
  omega

end Draft

namespace QueryResult

variable {α : Type} {encode : α → Json} {decode : Draft → Except Fault α}
  {statements : Draft → Except Fault StatementResult} {r : QueryResult α}

theorem mem_data (encode : α → Json) {x : α} (h : x ∈ r.data) :
    ("data", encode x) ∈ entriesOf r.success (r.data.map encode)
      (r.results.map fun rs => .list (StatementResult.toJsons rs)) r.error r.info := by
  simp [entriesOf, Option.mem_def.mp h, Json.optional]

theorem mem_results (encode : α → Json) {rs : List StatementResult} (h : rs ∈ r.results) :
    ("results", Json.list (StatementResult.toJsons rs)) ∈
      entriesOf r.success (r.data.map encode)
        (r.results.map fun rs => .list (StatementResult.toJsons rs)) r.error r.info := by
  simp [entriesOf, Option.mem_def.mp h, Json.optional]

theorem mem_info (encode : α → Json) {m : QueryMeta} (h : m ∈ r.info) :
    ("meta", m.toJson) ∈ entriesOf r.success (r.data.map encode)
      (r.results.map fun rs => .list (StatementResult.toJsons rs)) r.error r.info := by
  simp [entriesOf, Option.mem_def.mp h, Json.optional]

/-- A result is read back from its document with the data that its own document is read as. -/
theorem asRecord_toJson {data : Option α}
    (hdata : ∀ x ∈ r.data, Draft.asOption decode (encode x).reread = .ok data)
    (habsent : r.data = none → data = none)
    (hresults : ∀ rs ∈ r.results,
      Draft.asList statements (Json.list (StatementResult.toJsons rs)).reread = .ok rs)
    (hinfo : ∀ m ∈ r.info, QueryMeta.read m.toJson.reread = .ok m) :
    Draft.asRecord (fields decode statements) ⟨false, none, none, none, none⟩
      (r.toJson encode).reread = .ok { r with data } := by
  have hnames : (fields decode statements).map (·.name)
      = ["success", "data", "results", "error", "meta"] := rfl
  unfold toJson entriesOf
  rw [Json.reread, ← List.append_nil (Json.optional "meta" _)]
  simp only [List.cons_append, Json.rereadEntries, Draft.rereadEntries_append, List.append_assoc]
  refine Fills.asRecord (.given (storing_ok (Draft.asBool_reread _) _)
    (.omittable (by decide) hdata habsent rfl
    (.optional (fun rs => rs) (fun rs hrs => ?_) Option.map_id' rfl
    (.optional (fun e => e) (fun e _ => ?_) Option.map_id' rfl
    (.optional (fun m => m) (fun m hm => ?_) Option.map_id' rfl (.done _))))))
    (hnames ▸ by decide)
  · exact asOption_ok (hresults rs hrs) (by simp [Json.reread])
  · exact asOption_ok (Draft.asText_reread e) (by simp [Json.reread])
  · exact asOption_ok (hinfo m hm) (by simp [QueryMeta.toJson, Json.reread])

end QueryResult

namespace StatementResult

/-- The times that are reported for a statement, and for the statements of a batch inside it, are
numbers that can be written. -/
inductive Timed : StatementResult → Prop where
  | mk (r : StatementResult) (own : ∀ m ∈ r.info, m.Timed)
    (nested : ∀ rs ∈ r.results, ∀ s ∈ rs, Timed s) : Timed r

theorem toJsons_eq (rs : List StatementResult) : toJsons rs = rs.map toJson := by
  induction rs with
  | nil => rfl
  | cons r rs ih => rw [toJsons, ih, List.map_cons]

theorem toJson_toResult (r : StatementResult) : r.toJson = r.toResult.toJson Json.ofRows := by
  obtain ⟨success, data, results, error, info⟩ := r
  cases results <;> rw [toJson] <;> rfl

theorem ofResult_toResult (r : StatementResult) : ofResult r.toResult = r := by
  cases r
  rfl

/-- The result of a statement is read back from its document. -/
theorem readNested_toJson {r : StatementResult} (ht : r.Timed) (h : Json.Faithful level r.toJson)
    {depth : Nat} (hd : r.toJson.reread.height < depth) :
    readNested depth r.toJson.reread = .ok r := by
  -- On the results inside: each stands in a list in the record, so its document is lower.
  induction ht generalizing level depth with
  | mk r own _ ih =>
    obtain ⟨depth, rfl⟩ : ∃ n, depth = n + 1 := ⟨depth - 1, by omega⟩
    rw [toJson_toResult] at h hd ⊢
    have hresults : ∀ rs ∈ r.results,
        Draft.asList (readNested depth) (Json.list (toJsons rs)).reread = .ok rs := by
      intro rs hrs
      have hmem := QueryResult.mem_results (r := r.toResult) Json.ofRows hrs
      have hlist := h.entry hmem
      have hheight := Draft.height_entry hmem
      rw [toJsons_eq] at hlist hheight ⊢
      have hread := Draft.asList_map (readNested depth) toJson id fun s hs => by
        have hs' := List.mem_map_of_mem (f := toJson) hs
        have := Draft.height_item hs'
        exact ih rs hrs s hs (hlist.item hs') (by unfold QueryResult.toJson at hd; omega)
      rwa [List.map_id] at hread
    have hdata : ∀ rows ∈ r.toResult.data,
        Draft.asOption Row.readAll (Json.ofRows rows).reread = .ok r.toResult.data := by
      intro rows hrows
      rw [asOption_ok (Row.readAll_ofRows (h.entry (QueryResult.mem_data Json.ofRows hrows)))
        (by simp [Json.ofRows, Json.reread]), Option.mem_def.mp hrows]
    have hinfo : ∀ m ∈ r.toResult.info, QueryMeta.read m.toJson.reread = .ok m := fun m hm =>
      QueryMeta.read_toJson (own m hm) (h.entry (QueryResult.mem_info Json.ofRows hm))
    rw [readNested, QueryResult.asRecord_toJson hdata id hresults hinfo]
    exact congrArg Except.ok r.ofResult_toResult

theorem asList_toJsons {rs : List StatementResult} (ht : ∀ r ∈ rs, r.Timed)
    (h : Json.Faithful level (.list (toJsons rs))) :
    Draft.asList read (Json.list (toJsons rs)).reread = .ok rs := by
  rw [toJsons_eq] at h ⊢
  have hread := Draft.asList_map read toJson id fun r hr =>
    readNested_toJson (ht r hr) (h.item (List.mem_map_of_mem hr)) (Nat.lt_succ_self _)
  rwa [List.map_id] at hread

end StatementResult

/-- The times that are reported in a result are numbers that can be written. -/
structure QueryResult.Timed {α : Type} (r : QueryResult α) : Prop where
  info : ∀ m ∈ r.info, m.Timed
  results : ∀ rs ∈ r.results, ∀ s ∈ rs, s.Timed

namespace Operation

variable {op : Operation}

theorem readArrays {arrays : List (List Json)}
    (h : Json.Faithful level (.list (arrays.map .list))) :
    Draft.asList (Draft.asList Draft.settle) (Json.list (arrays.map .list)).reread
      = .ok arrays := by
  have hread := Draft.asList_map (Draft.asList Draft.settle) Json.list id
    fun values hvalues => by
      have hlist := h.item (List.mem_map_of_mem hvalues)
      have hitems := Draft.asList_map Draft.settle id id fun j (hj : j ∈ values) =>
        Draft.settle_reread (hlist.item hj)
      rwa [List.map_id] at hitems
  rwa [List.map_id] at hread

theorem readPayload_payloadJson {x : op.Payload} (h : Json.Faithful level (op.payloadJson x)) :
    op.readPayload (op.payloadJson x).reread = .ok x := by
  cases op with
  | exec s => exact Row.readAll_ofRows h
  | batch ss => exact Row.readAll_ofRows h
  | raw s names => exact readArrays h
  | first s column => exact Draft.settle_reread h
  | script sql => exact Row.readAll_ofRows h

/-- What an operation answers with, unless its document is `null`. -/
def carriedData (op : Operation) (data : Option op.Payload) : Option op.Payload :=
  data.filter fun x => !(op.payloadJson x).isNull

theorem carriedData_self (h : ∀ x, (op.payloadJson x).isNull = false) (data : Option op.Payload) :
    op.carriedData data = data := by
  cases data with
  | none => rfl
  | some x => rw [carriedData, Option.filter_some, h x]; rfl

theorem asOption_payloadJson {x : op.Payload} (h : Json.Faithful level (op.payloadJson x)) :
    Draft.asOption op.readPayload (op.payloadJson x).reread = .ok (op.carriedData (some x)) := by
  have hread := readPayload_payloadJson h
  cases hj : op.payloadJson x with
  | null => rw [carriedData, Option.filter_some, hj]; rfl
  | _ =>
    rw [hj] at hread
    rw [asOption_ok hread (by simp [Json.reread]), carriedData, Option.filter_some, hj]
    rfl

/-- A result is read back from its document, but for data whose document is `null`. -/
theorem readResult_resultJson {r : QueryResult op.Payload} (ht : r.Timed)
    (h : Json.Faithful level (op.resultJson r)) :
    op.readResult (op.resultJson r).reread = .ok { r with data := op.carriedData r.data } := by
  refine QueryResult.asRecord_toJson (fun x hx => ?_) (fun hnone => by rw [hnone]; rfl)
    (fun rs hrs => ?_) fun m hm => ?_
  · rw [Option.mem_def.mp hx]
    exact asOption_payloadJson (h.entry (QueryResult.mem_data op.payloadJson hx))
  · exact StatementResult.asList_toJsons (ht.results rs hrs)
      (h.entry (QueryResult.mem_results op.payloadJson hrs))
  · exact QueryMeta.read_toJson (ht.info m hm)
      (h.entry (QueryResult.mem_info op.payloadJson hm))

end Operation

end Tabularium
