namespace Tabularium

/-- A map whose entries stand in the order in which their keys were first inserted. -/
structure OrderedMap (α : Type) where
  entries : List (String × α)
  nodup : (entries.map Prod.fst).Nodup

namespace OrderedMap

variable {α β : Type}

/-- The entries with a value stored under a key: in place when the key is there, else behind. -/
def insertEntry (key : String) (value : α) : List (String × α) → List (String × α)
  | [] => [(key, value)]
  | (k, v) :: rest => if k = key then (k, value) :: rest else (k, v) :: insertEntry key value rest

theorem mem_keys_insertEntry {key k : String} {value : α} {entries : List (String × α)}
    (h : k ∈ (insertEntry key value entries).map Prod.fst) :
    k = key ∨ k ∈ entries.map Prod.fst := by
  induction entries with
  | nil => simp_all [insertEntry]
  | cons entry rest ih =>
    obtain ⟨k', v'⟩ := entry
    by_cases same : k' = key <;> grind [insertEntry]

/-- Storing a value keeps the keys distinct. -/
theorem nodup_insertEntry (key : String) (value : α) {entries : List (String × α)}
    (h : (entries.map Prod.fst).Nodup) :
    ((insertEntry key value entries).map Prod.fst).Nodup := by
  induction entries with
  | nil => simp [insertEntry]
  | cons entry rest ih =>
    obtain ⟨k, v⟩ := entry
    simp only [List.map_cons, List.nodup_cons] at h
    by_cases same : k = key
    · rw [insertEntry, if_pos same, List.map_cons, List.nodup_cons]
      exact h
    · rw [insertEntry, if_neg same, List.map_cons, List.nodup_cons]
      refine ⟨fun mem => ?_, ih h.2⟩
      rcases mem_keys_insertEntry mem with eq | mem
      · exact same eq
      · exact h.1 mem

def empty : OrderedMap α := ⟨[], List.nodup_nil⟩

instance : Inhabited (OrderedMap α) := ⟨empty⟩

/-- Stores a value under a key, which keeps its place when it has one. -/
def insert (m : OrderedMap α) (key : String) (value : α) : OrderedMap α :=
  ⟨insertEntry key value m.entries, nodup_insertEntry key value m.nodup⟩

def get? (m : OrderedMap α) (key : String) : Option α :=
  (m.entries.find? fun entry => entry.1 == key).map Prod.snd

/-- The map with a value appended under a key that has none. -/
def ensure (m : OrderedMap α) (key : String) (value : α) : OrderedMap α :=
  match m.get? key with
  | some _ => m
  | none => m.insert key value

/-- Changes the value under a key, which starts from a given value when there is none. -/
def update (m : OrderedMap α) (key : String) (start : α) (change : α → α) : OrderedMap α :=
  m.insert key (change ((m.get? key).getD start))

/-- Inserts the entries one after the other. -/
def ofList (entries : List (String × α)) : OrderedMap α :=
  entries.foldl (fun m entry => m.insert entry.1 entry.2) empty

def keys (m : OrderedMap α) : List String :=
  m.entries.map Prod.fst

def isEmpty (m : OrderedMap α) : Bool :=
  m.entries.isEmpty

theorem ext_entries {m n : OrderedMap α} (h : m.entries = n.entries) : m = n := by
  cases m
  cases n
  simp_all

instance [DecidableEq α] : DecidableEq (OrderedMap α) := fun m n =>
  if h : m.entries = n.entries then isTrue (ext_entries h)
  else isFalse fun eq => h (eq ▸ rfl)

end OrderedMap

end Tabularium
