import Mathlib.Data.List.Basic
import Tabularium.Proofs.Json.TextRoundTrip
import Tabularium.Proofs.Numeric.IntegerText
import Tabularium.Query.Related

namespace Tabularium

/-- A value that rows of two tables can share. -/
inductive Key where
  | bool (b : Bool)
  | int (n : Int)
  | text (s : String)
deriving DecidableEq

/-- The document that is the key. -/
def Key.toJson : Key → Json
  | bool b => .bool b
  | int n => .int n
  | text s => .text s

namespace Json

/-- The key that the document is. -/
def key? : Json → Option Key
  | .bool b => some (.bool b)
  | .int n => some (.int n)
  | .text s => some (.text s)
  | _ => none

/-- The document is a key, or null in place of one. -/
def isKey (j : Json) : Bool :=
  j.isNull || j.key?.isSome

/-- The key that a text stands for. -/
def ofKeyText (cs : List Char) : Json :=
  match cs with
  | 'n' :: _ => .null
  | 't' :: _ => .bool true
  | 'f' :: _ => .bool false
  | '\x22' :: rest =>
    match Draft.readText rest with
    | some (some s, _) => .text s
    | _ => .null
  | _ => .int ((readInteger? cs).getD 0)

theorem ofKeyText_compact {j : Json} (h : j.isKey = true) : ofKeyText j.compactChars = j := by
  cases j with
  | null => rfl
  | bool b => cases b <;> rfl
  | int n =>
    have hread := readInteger?_repr n
    have hchars : compactChars (.int n) = (Int.repr n).toList := rfl
    rw [hchars]
    unfold ofKeyText
    split
    next he => rw [he] at hread; simp [readInteger?, splitSign] at hread
    next he => rw [he] at hread; simp [readInteger?, splitSign] at hread
    next he => rw [he] at hread; simp [readInteger?, splitSign] at hread
    next he => rw [he] at hread; simp [readInteger?, splitSign] at hread
    next => rw [hread]; rfl
  | text s =>
    have hchars : compactChars (.text s)
        = '\x22' :: (s.toList.flatMap escapeChar ++ ['\x22']) := rfl
    rw [hchars, ofKeyText]
    simp only [Draft.readText_quotedChars]
  | float x => simp [isKey, isNull, key?] at h
  | list items => simp [isKey, isNull, key?] at h
  | record entries => simp [isKey, isNull, key?] at h

theorem compact_inj {a b : Json} (ha : a.isKey = true) (hb : b.isKey = true) :
    a.compact = b.compact ↔ a = b := by
  constructor
  · intro h
    rw [compact, compact, String.ofList_inj] at h
    rw [← ofKeyText_compact ha, h, ofKeyText_compact hb]
  · rintro rfl
    rfl

theorem key?_eq_some {j : Json} {k : Key} : j.key? = some k ↔ j = k.toJson := by
  cases j <;> cases k <;> simp [key?, Key.toJson]

theorem key?_of_isKey {j : Json} (h : j.isKey = true) (hn : j.isNull = false) :
    ∃ k, j.key? = some k := by
  rw [isKey, hn, Bool.false_or] at h
  exact Option.isSome_iff_exists.mp h

end Json

theorem Key.toJson_isKey (k : Key) : k.toJson.isKey = true ∧ k.toJson.isNull = false := by
  cases k <;> exact ⟨rfl, rfl⟩

theorem SqlValue.ofJson_eq_null {j : Json} (h : SqlValue.ofJson j = .null) : j = .null := by
  cases j with
  | null => rfl
  | int n =>
    rw [SqlValue.ofJson] at h
    split at h <;> cases h
  | _ => cases h

namespace Relation

variable {r : Relation} {column : String} {rows related : List Row} {row : Row} {v : Json} {k : Key}

/-- The rows have keys in a column, or null, or nothing at all. -/
def KeyColumn (column : String) (rows : List Row) : Prop :=
  ∀ row ∈ rows, ∀ v ∈ row.get? column, v.isKey = true

/-- The key that a row has in a column; null is none. -/
def keyIn (column : String) (row : Row) : Option Key :=
  (row.get? column).bind Json.key?

/-- The rows that are found by one key. -/
def rowsOf (column : String) (key : Key) (rows : List Row) : List Row :=
  rows.filter fun row => keyIn column row = some key

/-- What a look-up for one row alone finds. -/
def lookup (r : Relation) (related : List Row) (row : Row) : Json :=
  match r.kind, keyIn r.keyColumn row with
  | .belongsTo, some key => ((rowsOf r.filterColumn key related).head?.map Json.ofRow).getD .null
  | .belongsTo, none => .null
  | .hasMany, some key => .list ((rowsOf r.filterColumn key related).map Json.ofRow)
  | .hasMany, none => .list []

/-- What the statement for the related rows is answered with: the rows whose value in the filter
column is bound as one of the values of the statement. Without a statement there is no answer. -/
def answer (r : Relation) (related : List Row) : Option Statement → List Row
  | none => []
  | some s => related.filter fun row =>
    (row.get? r.filterColumn).any fun v => s.params.contains (.ofJson v)

/-- Every text that is not seen yet is kept. -/
theorem exists_distinctKeys {keys : List Json} {seen : List String} (h : v ∈ keys)
    (hs : v.compact ∉ seen) : ∃ w ∈ distinctKeys seen keys, w.compact = v.compact := by
  induction keys generalizing seen with
  | nil => cases h
  | cons key keys ih =>
    rw [distinctKeys]
    split
    next hc =>
      rcases List.mem_cons.mp h with rfl | h
      · exact absurd (by simpa using hc) hs
      · exact ih h hs
    next =>
      by_cases he : v.compact = key.compact
      · exact ⟨key, List.mem_cons_self, he.symm⟩
      · have hrest : v ∈ keys := (List.mem_cons.mp h).resolve_left fun hv => he (hv ▸ rfl)
        obtain ⟨w, hw, htext⟩ := ih hrest (by simp [he, hs] : v.compact ∉ key.compact :: seen)
        exact ⟨w, List.mem_cons_of_mem key hw, htext⟩

theorem distinctKeys_subset (seen : List String) (keys : List Json) :
    distinctKeys seen keys ⊆ keys := by
  induction keys generalizing seen with
  | nil => exact List.nil_subset _
  | cons key keys ih =>
    rw [distinctKeys]
    split
    next => exact List.subset_cons_of_subset key (ih seen)
    next => exact List.cons_subset_cons key (ih _)

theorem of_mem_lookupKeys (h : v ∈ lookupKeys column rows) :
    v.isNull = false ∧ ∃ row ∈ rows, row.get? column = some v := by
  obtain ⟨hmem, hn⟩ := List.mem_filter.mp (distinctKeys_subset _ _ h)
  obtain ⟨row, hr, hv⟩ := List.mem_filterMap.mp hmem
  exact ⟨by simpa using hn, row, hr, hv⟩

theorem exists_lookupKeys (hr : row ∈ rows) (hv : row.get? column = some v)
    (hn : v.isNull = false) : ∃ w ∈ lookupKeys column rows, w.compact = v.compact := by
  have hmem : v ∈ rows.filterMap fun row => row.get? column :=
    List.mem_filterMap.mpr ⟨row, hr, hv⟩
  have hkept : v ∈ (rows.filterMap fun row => row.get? column).filter fun key => !key.isNull :=
    List.mem_filter.mpr ⟨hmem, by simp [hn]⟩
  exact exists_distinctKeys hkept List.not_mem_nil

theorem mem_lookupKeys (hk : KeyColumn column rows) (hr : row ∈ rows)
    (hv : row.get? column = some v) (hn : v.isNull = false) : v ∈ lookupKeys column rows := by
  obtain ⟨w, hw, htext⟩ := exists_lookupKeys hr hv hn
  obtain ⟨-, row', hr', hw'⟩ := of_mem_lookupKeys hw
  rwa [(Json.compact_inj (hk row' hr' w hw') (hk row hr v hv)).mp htext] at hw

theorem answer_relatedStatement? (r : Relation) (rows related : List Row) :
    r.answer related (r.relatedStatement? rows) = related.filter fun row =>
      (row.get? r.filterColumn).any fun v =>
        ((lookupKeys r.keyColumn rows).map SqlValue.ofJson).contains (.ofJson v) := by
  unfold relatedStatement?
  cases lookupKeys r.keyColumn rows with
  | nil => simp [answer]
  | cons key keys => rfl

/-- No row that is answered with has null where it is looked up. -/
theorem rowsWithKey_null (rows : List Row) (hrelated : KeyColumn r.filterColumn related) :
    rowsWithKey r.filterColumn Json.null.compact (r.answer related (r.relatedStatement? rows))
      = [] := by
  rw [answer_relatedStatement?, rowsWithKey, List.filter_filter, List.filter_eq_nil_iff]
  intro row hr h
  rw [Bool.and_eq_true, Option.any_eq_true, Option.any_eq_true] at h
  obtain ⟨⟨v, hv, htext⟩, w, hw, hbound⟩ := h
  cases hv.symm.trans hw
  rw [beq_iff_eq, Json.compact_inj (hrelated row hr v hv) rfl] at htext
  subst htext
  obtain ⟨key, hkey, he⟩ := List.mem_map.mp (List.contains_iff_mem.mp hbound)
  have hnull := (of_mem_lookupKeys hkey).1
  rw [SqlValue.ofJson_eq_null he] at hnull
  cases hnull

/-- The rows of the answer that have the text of a key are all the rows that have the key. -/
theorem rowsWithKey_answer (hrows : KeyColumn r.keyColumn rows)
    (hrelated : KeyColumn r.filterColumn related) (hr : row ∈ rows)
    (hv : row.get? r.keyColumn = some k.toJson) :
    rowsWithKey r.filterColumn k.toJson.compact (r.answer related (r.relatedStatement? rows))
      = rowsOf r.filterColumn k related := by
  obtain ⟨hkey, hn⟩ := k.toJson_isKey
  have hlooked := mem_lookupKeys hrows hr hv hn
  rw [answer_relatedStatement?, rowsWithKey, List.filter_filter, rowsOf]
  refine List.filter_congr fun other ho => ?_
  cases hw : other.get? r.filterColumn with
  | none => simp [keyIn, hw]
  | some w =>
    have htext := Json.compact_inj (hrelated other ho w hw) hkey
    have hsame : keyIn r.filterColumn other = some k ↔ w = k.toJson := by
      rw [keyIn, hw, Option.bind_some, Json.key?_eq_some]
    rw [Bool.eq_iff_iff, decide_eq_true_iff, hsame, Option.any_some, Option.any_some,
      Bool.and_eq_true, beq_iff_eq, htext, List.contains_iff_mem]
    exact ⟨fun h => h.1, fun h => ⟨h, List.mem_map_of_mem (h ▸ hlooked)⟩⟩

/-- What a row of a table with keys has in its key column. -/
theorem key_cases (hk : KeyColumn column rows) (hr : row ∈ rows) :
    row.get? column = none ∨ row.get? column = some .null
      ∨ ∃ k : Key, row.get? column = some k.toJson := by
  cases hv : row.get? column with
  | none => exact .inl rfl
  | some v =>
    cases hn : v.isNull with
    | true => cases v <;> simp_all [Json.isNull]
    | false =>
      obtain ⟨k, hkey⟩ := Json.key?_of_isKey (hk row hr v hv) hn
      exact .inr (.inr ⟨k, by rw [Json.key?_eq_some.mp hkey]⟩)

/-- When no two rows share a key, a key finds one row at most. -/
theorem rowsOf_cases (h : (rows.filterMap (keyIn column)).Nodup) (k : Key) :
    rowsOf column k rows = [] ∨ ∃ row, rowsOf column k rows = [row] := by
  induction rows with
  | nil => exact .inl rfl
  | cons row rows ih =>
    rw [List.filterMap_cons] at h
    split at h
    next hnone =>
      rw [rowsOf, List.filter_cons_of_neg (by simp [hnone])]
      exact ih h
    next k' hsome =>
      rw [List.nodup_cons] at h
      by_cases he : k' = k
      · subst he
        have hrest : rows.filter (fun other => keyIn column other = some k') = [] := by
          rw [List.filter_eq_nil_iff]
          intro other ho hk
          exact h.1 (List.mem_filterMap.mpr ⟨other, ho, by simpa using hk⟩)
        rw [rowsOf, List.filter_cons_of_pos (by simp [hsome]), hrest]
        exact .inr ⟨row, rfl⟩
      · rw [rowsOf, List.filter_cons_of_neg (by simp [hsome, he])]
        exact ih h.2

/-- Related rows that are looked up for all rows at once are put where look-ups row by row put
them, also when there is nothing to look up. -/
theorem attach_answer (r : Relation) (rows related : List Row)
    (hrows : KeyColumn r.keyColumn rows) (hrelated : KeyColumn r.filterColumn related)
    (hone : r.kind = .belongsTo → (related.filterMap (keyIn r.filterColumn)).Nodup) :
    r.attach rows (r.answer related (r.relatedStatement? rows))
      = rows.map fun row => row.insert r.name (r.lookup related row) := by
  refine List.map_congr_left fun row hr => congrArg (row.insert r.name) ?_
  have hall := fun k => rowsWithKey_answer (k := k) hrows hrelated hr
  have hcases := key_cases hrows hr
  have hnull := rowsWithKey_null rows hrelated
  -- From here on only what the answer holds for the key of this row counts, not how it was found.
  generalize r.answer related (r.relatedStatement? rows) = answered at hall hnull ⊢
  cases hkind : r.kind with
  | belongsTo =>
    have hkey : r.keyColumn = r.foreignKey := by rw [keyColumn, hkind]
    have hfilter : r.filterColumn = r.targetKey := by rw [filterColumn, hkind]
    rw [attachment, lookup, hkind, ← hkey, ← hfilter, keyIn]
    rcases hcases with h | h | ⟨k, h⟩
    · rw [h]
      rfl
    · rw [h]
      rfl
    · rw [h, Option.filter_some, if_pos (by simp [k.toJson_isKey.2]), Option.bind_some,
        Json.key?_eq_some.mpr rfl]
      dsimp only
      rw [hall k h]
      rcases rowsOf_cases (hone hkind) k with hnone | ⟨other, hother⟩
      · rw [hnone]
        rfl
      · rw [hother]
        rfl
  | hasMany =>
    have hkey : r.keyColumn = r.targetKey := by rw [keyColumn, hkind]
    have hfilter : r.filterColumn = r.foreignKey := by rw [filterColumn, hkind]
    rw [attachment, lookup, hkind, ← hkey, ← hfilter, keyIn]
    rcases hcases with h | h | ⟨k, h⟩
    · rw [h]
      rfl
    · rw [h]
      dsimp only
      rw [hnull]
      rfl
    · rw [h, Option.bind_some, Json.key?_eq_some.mpr rfl]
      dsimp only
      rw [hall k h]

/-- The authors of posts, who are referred to by their addresses. -/
def postAuthor : Relation :=
  ⟨"users", .belongsTo, "posts", "users", "author", "address"⟩

def posts : List Row :=
  [.ofList [("id", .int 1), ("author", .text "1")], .ofList [("id", .int 2), ("author", .int 1)],
    .ofList [("id", .int 3), ("author", .null)], .ofList [("id", .int 4)],
    .ofList [("id", .int 5), ("author", .text "1")]]

def users : List Row :=
  [.ofList [("address", .null)], .ofList [("address", .text "1"), ("name", .text "Ada")],
    .ofList [("address", .bool true)]]

/-- Posts share an author, a number is not the text of it, and null refers to nobody. -/
theorem attach_answer_posts :
    KeyColumn postAuthor.keyColumn posts ∧ KeyColumn postAuthor.filterColumn users
      ∧ (users.filterMap (keyIn postAuthor.filterColumn)).Nodup
      ∧ (postAuthor.attach posts (postAuthor.answer users (postAuthor.relatedStatement? posts))).map
          (fun row => row.get? "users")
        = [some (.record [("address", .text "1"), ("name", .text "Ada")]), some .null, some .null,
          some .null, some (.record [("address", .text "1"), ("name", .text "Ada")])] := by
  have hposts : KeyColumn postAuthor.keyColumn posts := by unfold KeyColumn; decide
  have husers : KeyColumn postAuthor.filterColumn users := by unfold KeyColumn; decide
  have hone : (users.filterMap (keyIn postAuthor.filterColumn)).Nodup := by decide
  refine ⟨hposts, husers, hone, ?_⟩
  rw [attach_answer postAuthor posts users hposts husers fun _ => hone]
  rfl

end Relation

end Tabularium
