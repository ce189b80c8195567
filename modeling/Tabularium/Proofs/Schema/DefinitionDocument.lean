import Tabularium.Proofs.Json.CompactRoundTrip
import Tabularium.Proofs.OrderedMap
import Tabularium.Proofs.Schema.Snapshot

namespace Tabularium

open Draft Json

variable {α : Type} {level : Nat}

theorem Draft.asMap_map (decode : Draft → Except Fault α) (write : α → Json) (m : OrderedMap α)
    (h : ∀ x, decode (write x).reread = .ok x) :
    asMap decode (m.toJson write).reread = .ok m := by
  rw [OrderedMap.toJson, asMap_written fun e _ => h e.2, OrderedMap.ofList_self]

theorem ColumnEntry.read_toJson (e : ColumnEntry) : ColumnEntry.read e.toJson.reread = .ok e := by
  cases e <;> rfl

theorem TableDefinition.read_toJson (t : TableDefinition) :
    TableDefinition.read t.toJson.reread = .ok t := by
  have hcolumns := asMap_map ColumnEntry.read ColumnEntry.toJson t.columns ColumnEntry.read_toJson
  have hindexes := asList_map Index.read Index.toJson (fun i => i)
    fun i (_ : i ∈ t.indexes) => i.read_toJson
  rw [List.map_id'] at hindexes
  exact Fills.asRecord (.given (storing_ok hcolumns _) (.given (storing_ok hindexes _)
    (.given (storing_ok (asList_texts _) _) (.done _)))) (by decide)

theorem Definition.read_toJson (d : Definition) : Definition.read d.toJson.reread = .ok d := by
  have hmixins := asMap_map (asMap asText) Definition.mixinJson d.mixins fun columns =>
    asMap_map asText Json.text columns asText_reread
  have htables := asMap_map TableDefinition.read TableDefinition.toJson d.tables
    TableDefinition.read_toJson
  exact Fills.asRecord (.given (storing_ok (asText_reread _) _)
    (.given (storing_ok (asWord_ok (uint32?_toNat _)) _) (.given (storing_ok hmixins _)
    (.given (storing_ok htables _) (.done _))))) (by decide)

theorem OrderedMap.toJson_readable {m : OrderedMap α} {write : α → Json} (hl : level < depthLimit)
    (h : ∀ x, Readable (level + 1) (write x)) : Readable level (m.toJson write) := by
  refine .record level _ hl fun e he => ?_
  obtain ⟨entry, -, rfl⟩ := List.mem_map.mp he
  exact h entry.2

theorem TableDefinition.toJson_readable (t : TableDefinition) (hl : level + 3 < depthLimit) :
    Readable level t.toJson := by
  refine .record level _ (by omega) ?_
  simp only [List.forall_mem_cons, List.not_mem_nil, false_implies, implies_true, and_true]
  refine ⟨OrderedMap.toJson_readable (by omega) fun e => ?_, map_readable (by omega) fun i _ =>
    i.toJson_readable (by omega), texts_readable _ (by omega)⟩
  cases e with
  | text s => exact .text _ _
  | splice on => exact .bool _ _

theorem Definition.toJson_readable (d : Definition) : Readable 1 d.toJson := by
  have hlimit : depthLimit = 128 := rfl
  have hversion := d.version.toNat_lt
  refine .record 1 _ (by omega) ?_
  simp only [List.forall_mem_cons, List.not_mem_nil, false_implies, implies_true, and_true]
  exact ⟨.text _ _, .int _ _ (by omega) (by omega),
    OrderedMap.toJson_readable (by omega) fun columns =>
      OrderedMap.toJson_readable (by omega) fun s => .text _ s,
    OrderedMap.toJson_readable (by omega) fun t => t.toJson_readable (by omega)⟩

/-- A schema without floating-point defaults and a definition are read as they were written, from
their documents without blanks as well as from those with line breaks. -/
theorem documents_read_back :
    (∀ s : Schema, s.FloatFree →
        decode Schema.read s.toJson.compact = .ok s ∧ decode Schema.read s.toJson.pretty = .ok s)
      ∧ ∀ d : Definition, decode Definition.read d.toJson.compact = .ok d
        ∧ decode Definition.read d.toJson.pretty = .ok d := by
  constructor
  · intro s hf
    have hread : Schema.read s.toJson.reread = .ok s := by
      rw [Schema.read_toJson hf.finiteDefaults, hf.readBack]
    constructor
    · rw [decode_compact _ s.toJson_readable, hread]
    · rw [decode_pretty _ s.toJson_readable, hread]
  · intro d
    constructor
    · rw [decode_compact _ d.toJson_readable, d.read_toJson]
    · rw [decode_pretty _ d.toJson_readable, d.read_toJson]

/-- A schema with an enumeration that allows nothing, with defaults of several kinds and with a
reference to its own table. -/
def variedSchema : Schema :=
  ⟨"app", 7, [
    { name := "nodes"
      columns := [
        { name := "id", type := .integer, mode := some .timestampMs, primaryKey := true },
        { name := "kind", type := .text, enumValues := some [],
          default := some (.value (.text "it's \"new\"")) },
        { name := "seen", type := .integer, notNull := true, default := some (.value .now) },
        { name := "low", type := .integer, default := some (.value (.int (-2 ^ 63))) },
        { name := "slug", type := .text, unique := true, default := some (.raw "lower('X')") },
        { name := "parent", type := .integer, default := some (.value .null),
          references := some ⟨"nodes", "id", some .setNull⟩ }]
      indexes := [⟨"nodes_kind", ["kind", "slug"], true⟩]
      checks := ["length(slug) > 3"] }]⟩

theorem documents_read_back_varied :
    variedSchema.FloatFree ∧ decode Schema.read variedSchema.toJson.compact = .ok variedSchema
      ∧ decode Schema.read variedSchema.toJson.pretty = .ok variedSchema := by
  have hfree : variedSchema.FloatFree := by decide +kernel
  exact ⟨hfree, documents_read_back.1 variedSchema hfree⟩

end Tabularium
