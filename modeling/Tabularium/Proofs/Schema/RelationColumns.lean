import Tabularium.Proofs.Query.StatementMarks
import Tabularium.Proofs.Schema.RelationPairs

namespace Tabularium

variable {s : Schema} {r : Relation}

namespace Relation

/-- The table that has the foreign key of a relation. -/
def holder (r : Relation) : String :=
  match r.kind with
  | .belongsTo => r.table
  | .hasMany => r.related

/-- The table that the foreign key of a relation refers to. -/
def referred (r : Relation) : String :=
  match r.kind with
  | .belongsTo => r.related
  | .hasMany => r.table

/-- The relation leads from a foreign key of one table to another table: by convention to its
column `id`, and else to the column that the reference of the foreign key names. -/
structure Connects (r : Relation) (holding : Table) (key : Column) (other : Table) : Prop where
  holdingName : holding.name = r.holder
  otherName : other.name = r.referred
  declared : key ∈ holding.columns
  keyName : key.name = r.foreignKey
  byConvention : r.foreignKey = keyTo r.referred → r.targetKey = "id"
  byReference : r.foreignKey ≠ keyTo r.referred → r.targetKey ∈ other.columns.map (·.name)
    ∧ ∃ target, key.references = some target ∧ target.table = r.referred
      ∧ target.column = r.targetKey

/-- What convention implies is found by the name of the foreign key. -/
theorem connects_of_convention {base other : Table} (h : byConvention? base other = some r) :
    (∃ key, r.Connects base key other) ∨ ∃ key, r.Connects other key base := by
  obtain ⟨-, ⟨hkey, rfl⟩ | ⟨-, hkey, rfl⟩⟩ := byConvention?_eq_some.mp h
  · obtain ⟨key, hmem, hname⟩ := List.mem_map.mp hkey
    exact .inl ⟨key, rfl, rfl, hmem, hname, fun _ => rfl, fun hne => absurd rfl hne⟩
  · obtain ⟨key, hmem, hname⟩ := List.mem_map.mp hkey
    exact .inr ⟨key, rfl, rfl, hmem, hname, fun _ => rfl, fun hne => absurd rfl hne⟩

/-- What a reference implies leads to the column that it names. -/
theorem connects_of_reference {base other : Table} {column target : Column} {reference : Reference}
    (hc : column ∈ base.columns) (hr : column.references = some reference)
    (ho : other.name = reference.table) (ht : target ∈ other.columns)
    (hn : target.name = reference.column) (hname : column.name ≠ keyTo reference.table)
    (hcases : r = ⟨reference.table, .belongsTo, base.name, reference.table, column.name,
        reference.column⟩
      ∨ r = ⟨base.name, .hasMany, reference.table, base.name, column.name, reference.column⟩) :
    r.Connects base column other := by
  have htarget : reference.column ∈ other.columns.map (·.name) := hn ▸ List.mem_map_of_mem ht
  obtain rfl | rfl := hcases
  · exact ⟨rfl, ho, hc, rfl, fun heq => absurd heq hname,
      fun _ => ⟨htarget, reference, hr, rfl, rfl⟩⟩
  · exact ⟨rfl, ho, hc, rfl, fun heq => absurd heq hname,
      fun _ => ⟨htarget, reference, hr, rfl, rfl⟩⟩

/-- The statement for related rows reads the related table and compares one of its columns, or the
column `id` that convention takes it to have. -/
theorem Connects.statement {holding other : Table} {key : Column} {rows : List Row}
    {statement : Statement} (hc : r.Connects holding key other) (hh : holding ∈ s.tables)
    (ho : other ∈ s.tables) (hs : r.relatedStatement? rows = some statement) :
    ∃ t ∈ s.tables, ∃ column,
      statement.sql = "SELECT * FROM " ++ t.name ++ " WHERE " ++ column ++ " IN ("
        ++ SqlValue.placeholders statement.params.length ++ ")"
      ∧ (column ∈ t.columns.map (·.name)
        ∨ column = "id" ∧ r.kind = .belongsTo ∧ r.foreignKey = keyTo t.name) := by
  have hsql : statement.sql = "SELECT * FROM " ++ r.related ++ " WHERE " ++ r.filterColumn
      ++ " IN (" ++ SqlValue.placeholders statement.params.length ++ ")" := by
    rw [relatedStatement?_eq_some hs, List.length_map]
  cases hkind : r.kind with
  | belongsTo =>
    have hother : other.name = r.related := by simpa [referred, hkind] using hc.otherName
    have hfilter : r.filterColumn = r.targetKey := by rw [filterColumn, hkind]
    refine ⟨other, ho, r.targetKey, by rw [hother, ← hfilter, hsql], ?_⟩
    by_cases hname : r.foreignKey = keyTo r.referred
    · exact .inr ⟨hc.byConvention hname, rfl, hc.otherName ▸ hname⟩
    · exact .inl (hc.byReference hname).1
  | hasMany =>
    have hholding : holding.name = r.related := by simpa [holder, hkind] using hc.holdingName
    have hfilter : r.filterColumn = r.foreignKey := by rw [filterColumn, hkind]
    refine ⟨holding, hh, r.foreignKey, by rw [hholding, ← hfilter, hsql], .inl ?_⟩
    rw [← hc.keyName]
    exact List.mem_map_of_mem hc.declared

end Relation

namespace RelationMap

open Tabularium.Relation

/-- Where convention leaves two tables open neither has a foreign key with the conventional name to
the other. -/
theorem name_ne_keyTo (hd : s.tableNames.Nodup) {base other : Table} (hb : base ∈ s.tables)
    (ho : other ∈ s.tables) (hne : base.name ≠ other.name)
    (hopen : (conventional s).find? (·.joins base.name other.name) = none) :
    keyTo other.name ∉ base.columns.map (·.name)
      ∧ keyTo base.name ∉ other.columns.map (·.name) := by
  have hnone : byConvention? base other = none := by
    cases hr : byConvention? base other with
    | none => rfl
    | some r =>
      rw [(find?_conventional hd).mpr ⟨base, hb, other, ho, rfl, rfl, hr⟩] at hopen
      cases hopen
  have hno : ∀ r, byConvention? base other ≠ some r := fun r => by simp [hnone]
  have hown : keyTo other.name ∉ base.columns.map (·.name) := fun hmem =>
    hno _ (byConvention?_eq_some.mpr ⟨hne, .inl ⟨hmem, rfl⟩⟩)
  exact ⟨hown, fun hmem =>
    hno _ (byConvention?_eq_some.mpr ⟨hne, .inr ⟨hown, hmem, rfl⟩⟩)⟩

theorem connects_of_mem (hs : s.WellFormed) (hr : r ∈ (resolve s).relations) :
    ∃ holding ∈ s.tables, ∃ other ∈ s.tables, ∃ key, r.Connects holding key other := by
  have hd := hs.tablesDistinct
  rcases mem_resolve hr with hconv | ⟨href, hopen⟩
  · obtain ⟨base, hb, other, ho, hconv⟩ := mem_conventional hconv
    rcases connects_of_convention hconv with ⟨key, hkey⟩ | ⟨key, hkey⟩
    · exact ⟨base, hb, other, ho, key, hkey⟩
    · exact ⟨other, ho, base, hb, key, hkey⟩
  · obtain ⟨base, hb, column, hc, href⟩ := mem_referenced href
    obtain ⟨reference, hreference, hne, hcases⟩ := mem_byReference.mp href
    obtain ⟨other, ho, hname, target, ht, hn⟩ :=
      hs.referencesResolved base hb column hc reference hreference
    refine ⟨base, hb, other, ho, column, connects_of_reference hc hreference hname ht hn ?_ hcases⟩
    have hforeign : column.name ∈ base.columns.map (·.name) := List.mem_map_of_mem hc
    intro heq
    rw [heq, ← hname] at hforeign
    rw [← hname] at hne hcases
    obtain rfl | rfl := hcases
    · exact (name_ne_keyTo hd hb ho (Ne.symm hne) hopen).1 hforeign
    · exact (name_ne_keyTo hd ho hb hne hopen).2 hforeign

/-- In a compiled schema every relation leads from a foreign key that its table has to the column
that the reference of the foreign key names, or, when the foreign key is named by convention, to the
column `id`; a statement for related rows names no other columns. -/
theorem resolve_connects {d : Definition} (h : d.compile = .ok s)
    (hr : r ∈ (resolve s).relations) :
    (∃ holding ∈ s.tables, ∃ other ∈ s.tables, ∃ key, r.Connects holding key other)
      ∧ ∀ rows statement, r.relatedStatement? rows = some statement →
        ∃ t ∈ s.tables, ∃ column,
          statement.sql = "SELECT * FROM " ++ t.name ++ " WHERE " ++ column ++ " IN ("
            ++ SqlValue.placeholders statement.params.length ++ ")"
          ∧ (column ∈ t.columns.map (·.name)
            ∨ column = "id" ∧ r.kind = .belongsTo ∧ r.foreignKey = keyTo t.name) := by
  obtain ⟨holding, hh, other, ho, key, hc⟩ :=
    connects_of_mem (Definition.compile_wellFormed h) hr
  exact ⟨⟨holding, hh, other, ho, key, hc⟩, fun _ _ hs => hc.statement hh ho hs⟩

theorem resolve_connects_posts :
    teams.compile = .ok teamsSchema
      ∧ ⟨"posts", .hasMany, "users", "posts", "author", "name"⟩ ∈ (resolve teamsSchema).relations
      ∧ ∃ holding ∈ teamsSchema.tables, ∃ other ∈ teamsSchema.tables, ∃ key,
        (⟨"posts", .hasMany, "users", "posts", "author", "name"⟩ : Relation).Connects holding key
          other := by
  have hmem : ⟨"posts", .hasMany, "users", "posts", "author", "name"⟩
      ∈ (resolve teamsSchema).relations := by decide +kernel
  exact ⟨teams_compiles, hmem, (resolve_connects teams_compiles hmem).1⟩

/-- Users without a column `id`, and posts with a foreign key that is named by convention. -/
def numbered : Definition :=
  ({ name := "app" } : Definition).column "users" "number" "integer primary key"
    |>.column "posts" "userId" "integer"

def numberedSchema : Schema :=
  ⟨"app", 1, [
    { name := "users", columns := [{ name := "number", type := .integer, primaryKey := true }] },
    { name := "posts", columns := [{ name := "userId", type := .integer }] }]⟩

/-- Posts that refer to the addresses of users by a foreign key that is named by convention. -/
def addressed : Definition :=
  ({ name := "app" } : Definition).column "users" "id" "integer primary key"
    |>.column "users" "address" "text unique"
    |>.column "posts" "userId" "text -> users.address"

def addressedSchema : Schema :=
  ⟨"app", 1, [
    { name := "users"
      columns := [{ name := "id", type := .integer, primaryKey := true },
        { name := "address", type := .text, unique := true }] },
    { name := "posts"
      columns := [{ name := "userId", type := .text,
                    references := some ⟨"users", "address", none⟩ }] }]⟩

/-- By convention a foreign key leads to a column `id` also when there is none, and also when its
own reference names another column. -/
theorem convention_overrides :
    (¬ ∀ (d : Definition) (s : Schema), d.compile = .ok s → ∀ r ∈ (resolve s).relations,
        ∀ t ∈ s.tables, t.name = r.referred → r.targetKey ∈ t.columns.map (·.name))
      ∧ ¬ ∀ (d : Definition) (s : Schema), d.compile = .ok s → ∀ r ∈ (resolve s).relations,
        ∀ t ∈ s.tables, t.name = r.holder → ∀ key ∈ t.columns, key.name = r.foreignKey →
          ∀ target, key.references = some target → target.table = r.referred →
            r.targetKey = target.column := by
  have hrelation : ∀ s ∈ [numberedSchema, addressedSchema],
      ⟨"users", .belongsTo, "posts", "users", "userId", "id"⟩ ∈ (resolve s).relations := by
    decide +kernel
  constructor
  · intro h
    have hcolumn := h numbered numberedSchema (by decide +kernel) _ (hrelation _ (by simp)) _
      List.mem_cons_self rfl
    revert hcolumn
    decide +kernel
  · intro h
    have hcolumn := h addressed addressedSchema (by decide +kernel) _ (hrelation _ (by simp)) _
      (List.mem_cons_of_mem _ List.mem_cons_self) rfl _ List.mem_cons_self rfl _ rfl rfl
    revert hcolumn
    decide +kernel

end RelationMap

end Tabularium
