import Mathlib.Data.List.Nodup
import Tabularium.Schema.Basic

namespace Tabularium

namespace Table

variable {t : Table} {name : String}

theorem column?_isNone : (t.column? name).isNone ↔ name ∉ t.columns.map (·.name) := by
  simp [column?]

theorem column?_isSome : (t.column? name).isSome ↔ name ∈ t.columns.map (·.name) := by
  simp [column?]

theorem column?_mem {k : Column} (h : t.column? name = some k) : k ∈ t.columns ∧ k.name = name :=
  ⟨List.mem_of_find?_eq_some h, by simpa using List.find?_some h⟩

theorem column?_of_mem {k : Column} (hd : (t.columns.map (·.name)).Nodup) (h : k ∈ t.columns) :
    t.column? k.name = some k := by
  cases hm : t.column? k.name with
  | none => exact absurd (List.mem_map_of_mem h) (column?_isNone.mp (by rw [hm]; rfl))
  | some m =>
    obtain ⟨hmem, hn⟩ := column?_mem hm
    rw [List.inj_on_of_nodup_map hd hmem h hn]

theorem index?_mem {i : Index} (h : t.index? name = some i) : i ∈ t.indexes :=
  List.mem_of_find?_eq_some h

theorem index?_name {i : Index} (h : t.index? name = some i) : i.name = name := by
  simpa using List.find?_some h

theorem index?_eq_none : t.index? name = none ↔ name ∉ t.indexes.map (·.name) := by
  simp [index?]

end Table

namespace Schema

variable {s : Schema} {t : Table} {name : String}

theorem table?_mem (h : s.table? name = some t) : t ∈ s.tables ∧ t.name = name :=
  ⟨List.mem_of_find?_eq_some h, by simpa using List.find?_some h⟩

theorem table?_isNone : s.table? name = none ↔ name ∉ s.tableNames := by
  simp [table?, tableNames]

theorem table?_of_mem (hd : s.tableNames.Nodup) (h : t ∈ s.tables) : s.table? t.name = some t := by
  cases hu : s.table? t.name with
  | none => exact absurd (List.mem_map_of_mem h) (table?_isNone.mp hu)
  | some u =>
    obtain ⟨hm, hn⟩ := table?_mem hu
    rw [List.inj_on_of_nodup_map hd hm h hn]

end Schema

end Tabularium
