import Tabularium.Proofs.Gateway.RequestReading
import Tabularium.Proofs.Query.Inclusion
import Tabularium.Proofs.Query.StatementMarks

namespace Tabularium

namespace OrderedMap

variable {α β : Type} {m : OrderedMap α} {key : String}

/-- The map with each value changed in its place. -/
def mapValues (f : α → β) (m : OrderedMap α) : OrderedMap β :=
  ⟨m.entries.map fun entry => (entry.1, f entry.2), by simpa [Function.comp_def] using m.nodup⟩

theorem get?_mapValues (f : α → β) : (m.mapValues f).get? key = (m.get? key).map f := by
  rw [get?, get?, mapValues, List.find?_map, Option.map_map, Option.map_map]
  rfl

end OrderedMap

/-- A row with its values as they are stored. -/
abbrev StoredRow := OrderedMap SqlValue

namespace SqlValue

variable {v w : SqlValue}

/-- A number with a point is finite. -/
def Finite (v : SqlValue) : Prop :=
  ∀ x, v = .float x → x.isFinite = true

/-- What is bound when the value is given back as it was reported: for bytes the text of their
list, for anything else the value itself. -/
def returned : SqlValue → SqlValue
  | .blob bytes => .text (toJson (.blob bytes)).compact
  | v => v

theorem Carried.finite (h : v.Carried) : v.Finite :=
  fun x hx => (h x hx).1

theorem ofJson_toJson (h : v.Finite) : ofJson v.toJson = v.returned := by
  cases v with
  | int n =>
    rw [toJson, ofJson, int64?_toInt]
    rfl
  | float x =>
    rw [toJson, Json.ofNumber, if_pos (h x rfl)]
    rfl
  | _ => rfl

theorem returned_eq_iff : v.returned = v ↔ ∀ bytes, v ≠ .blob bytes := by
  cases v <;> simp [returned]

theorem decode_toJson (h : v.Carried) : Draft.decode read v.toJson.compact = .ok v := by
  have readable : Json.Readable 1 v.toJson := (toJson_faithful h (by decide)).readable
  rw [Draft.decode_compact read readable, read_toJson h]

theorem eq_of_compact (hv : v.Carried) (hw : w.Carried)
    (h : v.toJson.compact = w.toJson.compact) : v = w := by
  have same := decode_toJson hv
  rw [h, decode_toJson hw] at same
  exact (Except.ok.inj same).symm

theorem toJson_isNull (h : v.Finite) : v.toJson.isNull = false ↔ v ≠ .null := by
  cases v with
  | float x =>
    rw [toJson, Json.ofNumber, if_pos (h x rfl)]
    simp [Json.isNull]
  | _ => simp [toJson, Json.isNull]

end SqlValue

namespace Relation

theorem relatedStatement?_of_mem {r : Relation} {rows : List Row} {key : Json}
    (h : key ∈ lookupKeys r.keyColumn rows) :
    ∃ s, r.relatedStatement? rows = some s ∧ SqlValue.ofJson key ∈ s.params := by
  unfold relatedStatement?
  split
  next none =>
    rw [none] at h
    cases h
  next => exact ⟨_, rfl, List.mem_map_of_mem h⟩

end Relation

namespace StoredRow

variable {row : StoredRow} {rows : List StoredRow} {table action : String} {r : Relation}
  {v : SqlValue} {s : Statement}

def report (row : StoredRow) : Row :=
  row.mapValues SqlValue.toJson

/-- What is bound for the row when it is given back as it was reported. -/
def returned (row : StoredRow) : List SqlValue :=
  row.entries.map fun entry => entry.2.returned

theorem returned_eq (row : StoredRow) : row.returned
    = (row.entries.map fun entry => (entry.1, entry.2.returned)).map Prod.snd := by
  rw [returned, List.map_map]
  rfl

/-- The row has a value, and its values stand under names. -/
structure Writable (row : StoredRow) : Prop where
  filled : row.entries ≠ []
  named : ∀ key ∈ row.keys, isIdentifier key = true

theorem bindRow_report (writable : row.Writable) (finite : ∀ entry ∈ row.entries, entry.2.Finite) :
    Mutation.bindRow action row.report
      = .ok (row.entries.map fun entry => (entry.1, entry.2.returned)) := by
  have entries : row.report.entries = row.entries.map fun entry => (entry.1, entry.2.toJson) := rfl
  refine Mutation.bindRow_eq_ok.mpr ⟨⟨?_, ?_⟩, ?_⟩
  · rw [entries]
    simpa using writable.filled
  · rw [entries, List.forall_mem_map]
    exact fun entry he => writable.named entry.1 (List.mem_map_of_mem he)
  · rw [entries, List.map_map]
    refine List.map_congr_left fun entry he => ?_
    simp only [Function.comp_apply, SqlValue.ofJson_toJson (finite entry he)]

theorem insert_report (named : isIdentifier table = true) (writable : row.Writable)
    (finite : ∀ entry ∈ row.entries, entry.2.Finite) :
    ∃ sql, Mutation.insert table row.report = .ok ⟨sql, row.returned⟩ := by
  have name : requireIdentifier table = .ok () := if_pos named
  rw [Mutation.insert, name, bindRow_report writable finite, returned_eq]
  exact ⟨_, rfl⟩

theorem update_report {conditions : Json} {c : Condition} (named : isIdentifier table = true)
    (writable : row.Writable) (finite : ∀ entry ∈ row.entries, entry.2.Finite)
    (bounded : Mutation.requireCondition "update" conditions = .ok c) :
    ∃ sql, Mutation.update table conditions row.report = .ok ⟨sql, row.returned ++ c.params⟩ := by
  have name : requireIdentifier table = .ok () := if_pos named
  rw [Mutation.update, name, bindRow_report writable finite, bounded, returned_eq]
  exact ⟨_, rfl⟩

/-- What a look-up binds are keys that the rows have. -/
theorem related_returned {p : SqlValue}
    (finite : ∀ row ∈ rows, ∀ v ∈ row.get? r.keyColumn, v.Finite)
    (asked : r.relatedStatement? (rows.map report) = some s) (hp : p ∈ s.params) :
    ∃ row ∈ rows, ∃ v ∈ row.get? r.keyColumn, v ≠ .null ∧ p = v.returned := by
  obtain rfl := Relation.relatedStatement?_eq_some asked
  obtain ⟨key, hkey, rfl⟩ := List.mem_map.mp hp
  obtain ⟨keyed, reported, hmem, there⟩ := Relation.of_mem_lookupKeys hkey
  obtain ⟨row, hrow, rfl⟩ := List.mem_map.mp hmem
  rw [report, OrderedMap.get?_mapValues] at there
  obtain ⟨v, hv, rfl⟩ := Option.map_eq_some_iff.mp there
  have finite := finite row hrow v hv
  exact ⟨row, hrow, v, hv, (SqlValue.toJson_isNull finite).mp keyed, SqlValue.ofJson_toJson finite⟩

theorem returned_related (carried : ∀ row ∈ rows, ∀ v ∈ row.get? r.keyColumn, v.Carried)
    (hrow : row ∈ rows) (hv : v ∈ row.get? r.keyColumn) (keyed : v ≠ .null) :
    ∃ s, r.relatedStatement? (rows.map report) = some s ∧ v.returned ∈ s.params := by
  have reported : ∀ row : StoredRow, row.report.get? r.keyColumn
      = (row.get? r.keyColumn).map SqlValue.toJson := fun row => OrderedMap.get?_mapValues _
  have finite := (carried row hrow v hv).finite
  have there : row.report.get? r.keyColumn = some v.toJson := by
    rw [reported, hv]
    rfl
  obtain ⟨key, hkey, text⟩ := Relation.exists_lookupKeys (List.mem_map_of_mem hrow) there
    ((SqlValue.toJson_isNull finite).mpr keyed)
  obtain ⟨-, other, hother, found⟩ := Relation.of_mem_lookupKeys hkey
  obtain ⟨row', hrow', rfl⟩ := List.mem_map.mp hother
  rw [reported] at found
  obtain ⟨w, hw, rfl⟩ := Option.map_eq_some_iff.mp found
  -- Of the keys with one text the first is bound; it is the key of this row, as they are the same.
  obtain rfl := SqlValue.eq_of_compact (carried row' hrow' w hw) (carried row hrow v hv) text
  rw [← SqlValue.ofJson_toJson finite]
  exact Relation.relatedStatement?_of_mem hkey

end StoredRow

namespace SqlValue

/-- A value that is given back as it was reported is bound as it is stored, unless it is bytes,
which are bound as the text of their list. So it is in rows that are written back and in the keys
of look-ups. From the text that is sent for it any value is decoded as it is. -/
theorem returned_from_reports (v : SqlValue) (row : StoredRow) (r : Relation)
    (rows : List StoredRow) :
    (v.Finite → ofJson v.toJson = v.returned ∧ (v.returned = v ↔ ∀ bytes, v ≠ .blob bytes))
      ∧ (v.Carried → Draft.decode read v.toJson.compact = .ok v)
      ∧ (row.Writable → (∀ entry ∈ row.entries, entry.2.Finite) →
        ∀ table, isIdentifier table = true →
          (∃ sql, Mutation.insert table row.report = .ok ⟨sql, row.returned⟩)
            ∧ ∀ conditions c, Mutation.requireCondition "update" conditions = .ok c →
              ∃ sql, Mutation.update table conditions row.report
                = .ok ⟨sql, row.returned ++ c.params⟩)
      ∧ ((∀ row ∈ rows, ∀ v ∈ row.get? r.keyColumn, v.Finite) →
        ∀ s, r.relatedStatement? (rows.map StoredRow.report) = some s → ∀ p ∈ s.params,
          ∃ row ∈ rows, ∃ v ∈ row.get? r.keyColumn, v ≠ .null ∧ p = v.returned)
      ∧ ((∀ row ∈ rows, ∀ v ∈ row.get? r.keyColumn, v.Carried) →
        ∀ row ∈ rows, ∀ v ∈ row.get? r.keyColumn, v ≠ .null →
          ∃ s, r.relatedStatement? (rows.map StoredRow.report) = some s
            ∧ v.returned ∈ s.params) := by
  refine ⟨fun finite => ⟨ofJson_toJson finite, returned_eq_iff⟩, decode_toJson, ?_, ?_, ?_⟩
  · intro writable finite table named
    exact ⟨StoredRow.insert_report named writable finite, fun _ _ bounded =>
      StoredRow.update_report named writable finite bounded⟩
  · exact fun finite s asked p hp => StoredRow.related_returned finite asked hp
  · exact fun carried row hrow v hv keyed => StoredRow.returned_related carried hrow hv keyed

def file : StoredRow :=
  .ofList [("id", .int 7), ("contents", .blob [1, 2])]

/-- The versions of files. -/
def fileVersions : Relation :=
  ⟨"versions", .hasMany, "files", "versions", "fileId", "id"⟩

theorem returned_from_reports_file :
    (blob [1, 2]).Carried ∧ file.Writable
      ∧ Draft.decode read (toJson (.blob [1, 2])).compact = .ok (.blob [1, 2])
      ∧ (∃ sql, Mutation.insert "files" file.report = .ok ⟨sql, [.int 7, .text "[1,2]"]⟩)
      ∧ ∃ s, fileVersions.relatedStatement? [file.report] = some s ∧ .int 7 ∈ s.params := by
  have carried : ∀ entry ∈ file.entries, entry.2.Carried := by
    intro entry he x hx
    simp only [file, OrderedMap.ofList] at he
    rcases List.mem_cons.mp he with rfl | he
    · cases hx
    · obtain rfl := List.mem_singleton.mp he
      cases hx
  have writable : file.Writable := ⟨by decide, by decide⟩
  have keys : ∀ row ∈ [file], ∀ v ∈ row.get? fileVersions.keyColumn, v.Carried := by
    intro row hrow v hv
    obtain rfl := List.mem_singleton.mp hrow
    cases hv
    exact carried ("id", .int 7) List.mem_cons_self
  have bytes : (blob [1, 2]).Carried := carried ("contents", .blob [1, 2]) (by decide)
  obtain ⟨-, decoded, written, -, looked⟩ :=
    returned_from_reports (.blob [1, 2]) file fileVersions [file]
  obtain ⟨inserted, -⟩ := written writable (fun entry he => (carried entry he).finite) "files" rfl
  exact ⟨bytes, writable, decoded bytes, inserted,
    looked keys file (by simp) (.int 7) rfl (by decide)⟩

/-- Bytes that are given back as they were reported are bound as a text. -/
theorem bytes_returned_as_text :
    (blob [1, 2]).Finite ∧ ofJson (toJson (.blob [1, 2])) = .text "[1,2]"
      ∧ ofJson (toJson (.blob [1, 2])) ≠ .blob [1, 2]
      ∧ Mutation.insert "files" file.report
        = .ok ⟨"INSERT INTO files (id, contents) VALUES (?, ?)", [.int 7, .text "[1,2]"]⟩ := by
  have finite : (blob [1, 2]).Finite := by
    intro x hx
    cases hx
  exact ⟨finite, by decide, by decide, by decide⟩

end SqlValue

end Tabularium
