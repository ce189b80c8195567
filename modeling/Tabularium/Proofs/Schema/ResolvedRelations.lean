import Tabularium.Proofs.Schema.Compiled
import Tabularium.Schema.Relation

namespace Tabularium

variable {s : Schema} {base other : Table} {column : Column} {r r' : Relation}
  {rs found : List Relation} {a b table name : String}

/-- The names of a relation can stand without quotes. -/
structure Relation.Named (r : Relation) : Prop where
  table : isIdentifier r.table = true
  related : isIdentifier r.related = true
  foreignKey : isIdentifier r.foreignKey = true
  targetKey : isIdentifier r.targetKey = true

theorem Table.WellFormed.column_named {t : Table} (h : t.WellFormed)
    (hc : name ∈ t.columns.map (·.name)) : isIdentifier name = true := by
  obtain ⟨c, hmem, rfl⟩ := List.mem_map.mp hc
  exact h.columnsNamed c hmem

namespace Relation

/-- The name that a foreign key to a table has by convention. -/
def keyTo (table : String) : String :=
  singular table ++ "Id"

theorem joins_iff : r.joins a b = true ↔ r.table = a ∧ r.related = b := by
  simp [joins]

/-- By convention a table belongs to another one when it has a column with the name of the foreign
key, and else has many of it when the other one has such a column. -/
theorem byConvention?_eq_some :
    byConvention? base other = some r ↔ base.name ≠ other.name
      ∧ (keyTo other.name ∈ base.columns.map (·.name)
          ∧ r = ⟨other.name, .belongsTo, base.name, other.name, keyTo other.name, "id"⟩
        ∨ keyTo other.name ∉ base.columns.map (·.name)
          ∧ keyTo base.name ∈ other.columns.map (·.name)
          ∧ r = ⟨other.name, .hasMany, base.name, other.name, keyTo base.name, "id"⟩) := by
  simp only [← Table.column?_isSome]
  unfold byConvention?
  dsimp only
  by_cases hname : base.name = other.name
  · rw [if_pos hname]
    exact iff_of_false (by simp) fun h => h.1 hname
  rw [if_neg hname]
  by_cases hown : (base.column? (keyTo other.name)).isSome
  · rw [keyTo] at hown
    rw [if_pos hown]
    constructor
    · intro h
      exact ⟨hname, .inl ⟨hown, (Option.some.inj h).symm⟩⟩
    · rintro ⟨-, ⟨-, rfl⟩ | ⟨hno, -⟩⟩
      · rfl
      · exact absurd hown hno
  · rw [keyTo] at hown
    rw [if_neg hown]
    constructor
    · intro h
      split at h
      next hother => exact ⟨hname, .inr ⟨hown, hother, (Option.some.inj h).symm⟩⟩
      next => cases h
    · rintro ⟨-, ⟨hyes, -⟩ | ⟨-, hother, rfl⟩⟩
      · exact absurd hyes hown
      · exact if_pos hother

theorem mem_byReference : r ∈ byReference table column ↔
    ∃ target, column.references = some target ∧ target.table ≠ table
      ∧ (r = ⟨target.table, .belongsTo, table, target.table, column.name, target.column⟩
        ∨ r = ⟨table, .hasMany, target.table, table, column.name, target.column⟩) := by
  unfold byReference
  split
  next hnone => simp [hnone]
  next target hsome =>
    split
    next heq => simp [hsome, heq]
    next hne => simp [hsome, hne]

theorem byConvention?_named (hb : base.WellFormed) (ho : other.WellFormed)
    (h : byConvention? base other = some r) : r.Named := by
  have hid : isIdentifier "id" = true := by decide
  obtain ⟨-, ⟨hown, rfl⟩ | ⟨-, hother, rfl⟩⟩ := byConvention?_eq_some.mp h
  · exact ⟨hb.named, ho.named, hb.column_named hown, hid⟩
  · exact ⟨hb.named, ho.named, ho.column_named hother, hid⟩

theorem byReference_named (hs : s.WellFormed) (ht : base ∈ s.tables) (hc : column ∈ base.columns)
    (h : r ∈ byReference base.name column) : r.Named := by
  obtain ⟨target, htarget, -, hcases⟩ := mem_byReference.mp h
  obtain ⟨u, hu, hname, k, hk, hkey⟩ := hs.referencesResolved base ht column hc target htarget
  have hbase := (hs.tables base ht).named
  have hforeign := (hs.tables base ht).columnsNamed column hc
  have htable : isIdentifier target.table = true := hname ▸ (hs.tables u hu).named
  have hcolumn : isIdentifier target.column = true := hkey ▸ (hs.tables u hu).columnsNamed k hk
  obtain rfl | rfl := hcases
  · exact ⟨hbase, htable, hforeign, hcolumn⟩
  · exact ⟨htable, hbase, hforeign, hcolumn⟩

end Relation

namespace RelationMap

open Tabularium.Relation

theorem mem_put (h : r' ∈ put r rs) : r' = r ∨ r' ∈ rs := by
  induction rs with
  | nil => exact .inl (List.mem_singleton.mp h)
  | cons r₀ rest ih =>
    rw [put] at h
    split at h
    next => exact (List.mem_cons.mp h).imp_right (List.mem_cons_of_mem r₀)
    next =>
      rcases List.mem_cons.mp h with rfl | h
      · exact .inr List.mem_cons_self
      · exact (ih h).imp_right (List.mem_cons_of_mem r₀)

theorem mem_foldl_put (h : r ∈ found.foldl (fun rs r => put r rs) rs) : r ∈ found ∨ r ∈ rs := by
  induction found generalizing rs with
  | nil => exact .inr h
  | cons r₀ found ih =>
    rcases ih h with h | h
    · exact .inl (List.mem_cons_of_mem r₀ h)
    · rcases mem_put h with rfl | h
      · exact .inl List.mem_cons_self
      · exact .inr h

theorem find?_add : (add rs r).find? (·.joins a b)
    = (rs.find? (·.joins a b)).or ([r].find? (·.joins a b)) := by
  rw [add]
  split
  next hany =>
    by_cases hr : r.joins a b
    · obtain ⟨rfl, rfl⟩ := joins_iff.mp hr
      obtain ⟨r', hr'⟩ :=
        Option.isSome_iff_exists.mp (List.find?_isSome.mpr (List.any_eq_true.mp hany))
      rw [hr', Option.some_or]
    · simp [hr]
  next => rw [List.find?_append]

/-- A relation is added only between tables that are left open. -/
theorem mem_foldl_add (h : r ∈ found.foldl add rs) :
    r ∈ rs ∨ r ∈ found ∧ rs.find? (·.joins r.table r.related) = none := by
  induction found generalizing rs with
  | nil => exact .inl h
  | cons r₀ found ih =>
    rcases ih h with hmem | ⟨hmem, hopen⟩
    · rw [add] at hmem
      split at hmem
      next => exact .inl hmem
      next hnone =>
        rcases List.mem_append.mp hmem with hmem | hmem
        · exact .inl hmem
        · obtain rfl := List.mem_singleton.mp hmem
          refine .inr ⟨List.mem_cons_self, List.find?_eq_none.mpr fun r' hr' hjoins => ?_⟩
          exact hnone (List.any_eq_true.mpr ⟨r', hr', hjoins⟩)
    · rw [find?_add, Option.or_eq_none_iff] at hopen
      exact .inr ⟨List.mem_cons_of_mem _ hmem, hopen.1⟩

theorem mem_conventional (h : r ∈ conventional s) :
    ∃ base ∈ s.tables, ∃ other ∈ s.tables, byConvention? base other = some r := by
  obtain hfound | hnil := mem_foldl_put h
  · obtain ⟨base, hb, hfound⟩ := List.mem_flatMap.mp hfound
    obtain ⟨other, ho, hr⟩ := List.mem_filterMap.mp hfound
    exact ⟨base, hb, other, ho, hr⟩
  · cases hnil

theorem mem_referenced (h : r ∈ referenced s) :
    ∃ base ∈ s.tables, ∃ column ∈ base.columns, r ∈ byReference base.name column := by
  obtain ⟨base, hb, h⟩ := List.mem_flatMap.mp h
  obtain ⟨column, hc, h⟩ := List.mem_flatMap.mp h
  exact ⟨base, hb, column, hc, h⟩

/-- References imply relations only between tables that convention leaves open. -/
theorem mem_resolve (h : r ∈ (resolve s).relations) :
    r ∈ conventional s
      ∨ r ∈ referenced s ∧ (conventional s).find? (·.joins r.table r.related) = none :=
  mem_foldl_add h

theorem resolve_named (hs : s.WellFormed) (h : r ∈ (resolve s).relations) : r.Named := by
  rcases mem_resolve h with hconv | ⟨href, -⟩
  · obtain ⟨base, hb, other, ho, hr⟩ := mem_conventional hconv
    exact byConvention?_named (hs.tables base hb) (hs.tables other ho) hr
  · obtain ⟨base, hb, column, hc, hr⟩ := mem_referenced href
    exact byReference_named hs hb hc hr

end RelationMap

end Tabularium
