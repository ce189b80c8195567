import Tabularium.Proofs.Json.RecordReading
import Tabularium.Proofs.Schema.Compiled
import Tabularium.Schema.Document

namespace Tabularium

/-- What a literal is after it was written and read. -/
def Literal.readBack : Literal → Literal
  | .float x => .float x.readBack
  | literal => literal

/-- What a default is after it was written and read. -/
def DefaultValue.readBack : DefaultValue → DefaultValue
  | .raw sql => .raw sql
  | .value literal => .value literal.readBack

/-- What a column is after it was written and read. -/
def Column.readBack (c : Column) : Column :=
  { c with default := c.default.map DefaultValue.readBack }

/-- What a table is after it was written and read. -/
def Table.readBack (t : Table) : Table :=
  { t with columns := t.columns.map Column.readBack }

/-- What a schema is after it was written and read. -/
def Schema.readBack (s : Schema) : Schema :=
  { s with tables := s.tables.map Table.readBack }

open Draft Json

theorem Index.read_toJson (i : Index) : Index.read i.toJson.reread = .ok i := by
  exact Fills.asRecord (.given (storing_ok (asText_reread _) _)
    (.given (storing_ok (asList_texts _) _) (.given (storing_ok (asBool_reread _) _) (.done _))))
    (by decide)

theorem DeleteAction.read_word (action : DeleteAction) :
    asName DeleteAction.all DeleteAction.word (.text action.word) = .ok action := by
  cases action <;> decide

theorem ColumnType.read_word (type : ColumnType) :
    asName ColumnType.all ColumnType.word (.text type.word) = .ok type := by
  cases type <;> decide

theorem ColumnMode.read_word (mode : ColumnMode) :
    asName ColumnMode.all ColumnMode.word (.text mode.word) = .ok mode := by
  cases mode <;> decide

theorem Reference.read_toJson (r : Reference) : Reference.read r.toJson.reread = .ok r := by
  unfold Reference.read Reference.toJson
  rw [reread, rereadEntries_append, ← List.append_nil (rereadEntries (Json.optional ..))]
  refine Fills.asRecord (.given (storing_ok (asText_reread _) _)
    (.given (storing_ok (asText_reread _) _)
      (.optional (fun a => a) ?_ Option.map_id' rfl (.done _))))
    (by decide)
  exact fun action _ => asOption_ok (DeleteAction.read_word action) (by simp [reread])

theorem Literal.read_toJson {l : Literal} (hf : ∀ x, l = .float x → x.isFinite = true) :
    Literal.read l.toJson.reread = .ok l.readBack := by
  cases l with
  | null => rfl
  | now => rfl
  | bool b => rfl
  | int n =>
    simp [Literal.read, Literal.toJson, reread, rereadEntries, asVariant, asWord, int64?_toInt,
      Literal.readBack, bind, Except.bind]
  | float x =>
    have hjson : (Literal.float x).toJson = .record [("float", .float x)] := by
      unfold Literal.toJson Json.ofNumber
      dsimp only
      rw [if_pos (hf x rfl)]
    rw [hjson]
    rfl
  | text s => rfl

theorem Literal.settle_toJson (l : Literal) : ∃ j, settle l.toJson.reread = .ok j := by
  cases l with
  | float x =>
    unfold Literal.toJson Json.ofNumber
    dsimp only
    split <;> exact ⟨_, rfl⟩
  | _ => exact ⟨_, rfl⟩

theorem DefaultValue.read_toJson {v : DefaultValue}
    (hf : ∀ x, v = .value (.float x) → x.isFinite = true) :
    DefaultValue.read v.toJson.reread = .ok v.readBack := by
  cases v with
  | raw sql =>
    exact Fills.asRecord (x := DefaultValue.raw "")
      (.given (storing_ok (asText_reread sql) _) (.done _)) (by decide)
  | value l =>
    obtain ⟨j, hj⟩ := l.settle_toJson
    have hsettle : ∃ j, settle (DefaultValue.value l).toJson.reread = .ok j := by
      unfold DefaultValue.toJson
      simp only [reread, rereadEntries, settle, settleEntries, hj]
      exact ⟨_, rfl⟩
    obtain ⟨j, hj⟩ := hsettle
    have hread := Literal.read_toJson fun x hx => hf x (congrArg _ hx)
    unfold DefaultValue.read settled
    rw [hj]
    exact Fills.asRecord (x := DefaultValue.value .null) (.given (storing_ok hread _) (.done _))
      (by decide)

theorem Column.read_toJson {c : Column} (hf : c.FiniteDefault) :
    Column.read c.toJson.reread = .ok c.readBack := by
  unfold Column.read Column.toJson
  rw [reread, ← List.append_nil (Json.optional "references" _)]
  simp only [rereadEntries_append, List.append_assoc]
  refine Fills.asRecord (.given (storing_ok (asText_reread _) _)
    (.given (storing_ok (ColumnType.read_word _) _) (.optional (fun m => m) ?_ Option.map_id' rfl
    (.given (storing_ok (asBool_reread _) _) (.given (storing_ok (asBool_reread _) _)
    (.given (storing_ok (asBool_reread _) _) (.optional (fun v => v) ?_ Option.map_id' rfl
    (.optional DefaultValue.readBack ?_ rfl rfl
    (.optional (fun r => r) ?_ Option.map_id' rfl (.done _)))))))))) (by decide)
  · exact fun mode _ => asOption_ok (ColumnMode.read_word mode) (by simp [reread])
  · exact fun values _ => asOption_ok (asList_texts values) (by simp [Json.texts, reread])
  · intro value hvalue
    refine asOption_ok (DefaultValue.read_toJson fun x hx => hf x ?_) ?_
    · rw [Option.mem_def.mp hvalue, hx]
    · cases value <;> simp [DefaultValue.toJson, reread]
  · exact fun r _ => asOption_ok r.read_toJson (by simp [Reference.toJson, reread])

theorem Table.read_toJson {t : Table} (hf : ∀ c ∈ t.columns, c.FiniteDefault) :
    Table.read t.toJson.reread = .ok t.readBack := by
  have hcolumns := asList_map Column.read Column.toJson Column.readBack fun c hc =>
    Column.read_toJson (hf c hc)
  have hindexes := asList_map Index.read Index.toJson (fun i => i)
    fun i (_ : i ∈ t.indexes) => i.read_toJson
  rw [List.map_id'] at hindexes
  exact Fills.asRecord (.given (storing_ok (asText_reread _) _) (.given (storing_ok hcolumns _)
    (.given (storing_ok hindexes _) (.given (storing_ok (asList_texts _) _) (.done _)))))
    (by decide)

theorem uint32?_toNat (n : UInt32) : uint32? n.toNat = some n := by
  have hn := n.toNat_lt
  unfold uint32?
  rw [if_pos ⟨by omega, by simp only [Int.pow_eq] ; omega⟩]
  simp

theorem Schema.read_toJson {s : Schema} (hf : s.FiniteDefaults) :
    Schema.read s.toJson.reread = .ok s.readBack := by
  have htables := asList_map Table.read Table.toJson Table.readBack fun t ht =>
    Table.read_toJson (hf t ht)
  exact Fills.asRecord (.given (storing_ok (asText_reread _) _)
    (.given (storing_ok (asWord_ok (uint32?_toNat _)) _) (.given (storing_ok htables _) (.done _))))
    (by decide)

section Readable

variable {level : Nat}

theorem optional_readable {key : String} {value : Option Json} (h : ∀ j ∈ value, Readable level j) :
    ∀ e ∈ Json.optional key value, Readable level e.2 := by
  cases value with
  | none => intro e he; cases he
  | some j =>
    intro e he
    cases List.mem_singleton.mp he
    exact h j rfl

theorem map_readable {α : Type} {write : α → Json} {items : List α} (hl : level < depthLimit)
    (h : ∀ x ∈ items, Readable (level + 1) (write x)) :
    Readable level (.list (items.map write)) := by
  refine .list level _ hl fun j hj => ?_
  obtain ⟨x, hx, rfl⟩ := List.mem_map.mp hj
  exact h x hx

theorem texts_readable (items : List String) (hl : level < depthLimit) :
    Readable level (Json.texts items) :=
  map_readable hl fun s _ => .text (level + 1) s

theorem Index.toJson_readable (i : Index) (hl : level + 1 < depthLimit) :
    Readable level i.toJson := by
  refine .record level _ (by omega) ?_
  simp only [List.forall_mem_cons, List.not_mem_nil, false_implies,
    implies_true, and_true]
  exact ⟨.text _ _, texts_readable _ hl, .bool _ _⟩

theorem Reference.toJson_readable (r : Reference) (hl : level < depthLimit) :
    Readable level r.toJson := by
  refine .record level _ hl ?_
  simp only [List.forall_mem_append, List.forall_mem_cons, List.not_mem_nil, false_implies,
    implies_true, and_true]
  refine ⟨⟨.text _ _, .text _ _⟩, optional_readable fun j hj => ?_⟩
  obtain ⟨action, _, rfl⟩ := Option.mem_map.mp hj
  exact .text _ _

theorem Literal.toJson_readable (l : Literal) (hl : level < depthLimit) :
    Readable level l.toJson := by
  cases l with
  | null => exact .text _ _
  | now => exact .text _ _
  | bool b => exact .record _ _ hl (by simp [Readable.bool])
  | int n =>
    have hlow := n.le_toInt
    have hhigh := n.toInt_lt
    refine .record _ _ hl ?_
    simp only [List.forall_mem_cons, List.not_mem_nil, false_implies,
    implies_true, and_true]
    exact .int _ _ hlow (by omega)
  | float x =>
    refine .record _ _ hl ?_
    simp only [List.forall_mem_cons, List.not_mem_nil, false_implies,
    implies_true, and_true]
    unfold Json.ofNumber
    split
    next hf => exact .float _ _ hf
    next => exact .null _
  | text s => exact .record _ _ hl (by simp [Readable.text])

theorem DefaultValue.toJson_readable (v : DefaultValue) (hl : level + 1 < depthLimit) :
    Readable level v.toJson := by
  cases v with
  | raw sql => exact .record _ _ (by omega) (by simp [Readable.text])
  | value l =>
    refine .record _ _ (by omega) ?_
    simp only [List.forall_mem_cons, List.not_mem_nil, false_implies,
    implies_true, and_true]
    exact ⟨.text _ _, l.toJson_readable hl⟩

theorem Column.toJson_readable (c : Column) (hl : level + 2 < depthLimit) :
    Readable level c.toJson := by
  refine .record level _ (by omega) ?_
  simp only [List.forall_mem_append, List.forall_mem_cons, List.not_mem_nil, false_implies,
    implies_true, and_true]
  refine ⟨⟨⟨⟨⟨⟨.text _ _, .text _ _⟩, optional_readable fun j hj => ?_⟩, .bool _ _, .bool _ _,
    .bool _ _⟩, optional_readable fun j hj => ?_⟩, optional_readable fun j hj => ?_⟩,
    optional_readable fun j hj => ?_⟩
  · obtain ⟨mode, _, rfl⟩ := Option.mem_map.mp hj
    exact .text _ _
  · obtain ⟨values, _, rfl⟩ := Option.mem_map.mp hj
    exact texts_readable _ (by omega)
  · obtain ⟨value, _, rfl⟩ := Option.mem_map.mp hj
    exact value.toJson_readable hl
  · obtain ⟨r, _, rfl⟩ := Option.mem_map.mp hj
    exact r.toJson_readable (by omega)

theorem Table.toJson_readable (t : Table) (hl : level + 4 < depthLimit) :
    Readable level t.toJson := by
  refine .record level _ (by omega) ?_
  simp only [List.forall_mem_cons, List.not_mem_nil, false_implies,
    implies_true, and_true]
  exact ⟨.text _ _, map_readable (by omega) fun c _ => c.toJson_readable (by omega),
    map_readable (by omega) fun i _ => i.toJson_readable (by omega),
    texts_readable _ (by omega)⟩

theorem Schema.toJson_readable (s : Schema) : Readable 1 s.toJson := by
  have hlimit : depthLimit = 128 := rfl
  have hversion := s.version.toNat_lt
  refine .record 1 _ (by omega) ?_
  simp only [List.forall_mem_cons, List.not_mem_nil, false_implies,
    implies_true, and_true]
  exact ⟨.text _ _, .int _ _ (by omega) (by omega),
    map_readable (by omega) fun t _ => t.toJson_readable (by omega)⟩

end Readable

/-- A schema whose numbers are finite is read from its text, but for how its numbers are written. -/
theorem Schema.decode_pretty {s : Schema} (hf : s.FiniteDefaults) :
    Draft.decode Schema.read s.toJson.pretty = .ok s.readBack := by
  rw [Draft.decode_pretty Schema.read s.toJson_readable, Schema.read_toJson hf]

def DefaultValue.isFloat : DefaultValue → Bool
  | .value (.float _) => true
  | _ => false

/-- No default of the schema is a floating-point number. -/
def Schema.FloatFree (s : Schema) : Prop :=
  ∀ t ∈ s.tables, ∀ c ∈ t.columns, ∀ v ∈ c.default, v.isFloat = false

instance (s : Schema) : Decidable s.FloatFree :=
  inferInstanceAs (Decidable (∀ t ∈ s.tables, ∀ c ∈ t.columns, ∀ v ∈ c.default, v.isFloat = false))

theorem DefaultValue.readBack_of_isFloat {v : DefaultValue} (h : v.isFloat = false) :
    v.readBack = v := by
  cases v with
  | raw sql => rfl
  | value literal =>
    cases literal with
    | float x => cases h
    | _ => rfl

theorem Column.readBack_of_isFloat {c : Column} (h : ∀ v ∈ c.default, v.isFloat = false) :
    c.readBack = c := by
  have hdefault : c.default.map DefaultValue.readBack = c.default := by
    cases hv : c.default with
    | none => rfl
    | some v => exact congrArg some (DefaultValue.readBack_of_isFloat (h v hv))
  unfold Column.readBack
  rw [hdefault]

/-- Without floating-point defaults a schema is read as it was written. -/
theorem Schema.FloatFree.readBack {s : Schema} (h : s.FloatFree) : s.readBack = s := by
  have htable : ∀ t ∈ s.tables, t.readBack = t := by
    intro t ht
    have hcolumns : t.columns.map Column.readBack = t.columns :=
      (List.map_congr_left fun c hc => Column.readBack_of_isFloat (h t ht c hc)).trans
        (List.map_id' _)
    unfold Table.readBack
    rw [hcolumns]
  have htables : s.tables.map Table.readBack = s.tables :=
    (List.map_congr_left htable).trans (List.map_id' _)
  unfold Schema.readBack
  rw [htables]

theorem Schema.FloatFree.finiteDefaults {s : Schema} (h : s.FloatFree) : s.FiniteDefaults := by
  intro t ht c hc x hx
  have hfloat := h t ht c hc _ hx
  cases hfloat

end Tabularium
