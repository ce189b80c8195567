import Mathlib.Data.List.Induction
import Mathlib.Data.List.Nodup
import Tabularium.OrderedMap

namespace Tabularium

namespace OrderedMap

variable {α : Type} {m n : OrderedMap α} {entries : List (String × α)} {key : String} {value : α}

/-- The last of the entries with a key holds a value. -/
def LastUnder (entries : List (String × α)) (key : String) (value : α) : Prop :=
  ∃ front back, entries = front ++ (key, value) :: back ∧ ∀ entry ∈ back, entry.1 ≠ key

theorem insertEntry_new {key : String} (value : α) {entries : List (String × α)}
    (h : key ∉ entries.map Prod.fst) :
    insertEntry key value entries = entries ++ [(key, value)] := by
  induction entries with
  | nil => rfl
  | cons entry rest ih =>
    obtain ⟨k, v⟩ := entry
    rw [List.map_cons, List.mem_cons, not_or] at h
    rw [insertEntry, if_neg (Ne.symm h.1), ih h.2, List.cons_append]

/-- A value that is stored under a key that is there takes the place of the one before it. -/
theorem insertEntry_known (hn : (entries.map Prod.fst).Nodup) (h : key ∈ entries.map Prod.fst) :
    insertEntry key value entries
      = entries.map fun e => if e.1 = key then (e.1, value) else e := by
  induction entries with
  | nil => cases h
  | cons entry rest ih =>
    obtain ⟨k, v⟩ := entry
    rw [List.map_cons, List.nodup_cons] at hn
    by_cases hk : k = key
    · have hother : ∀ e ∈ rest, (if e.1 = key then (e.1, value) else e) = e := by
        intro e he
        refine if_neg fun hsame => hn.1 ?_
        exact List.mem_map.mpr ⟨e, he, hsame.trans hk.symm⟩
      rw [insertEntry, if_pos hk, List.map_cons, if_pos hk, List.map_congr_left hother,
        List.map_id']
    · have hmem : key ∈ rest.map Prod.fst := by
        rw [List.map_cons, List.mem_cons] at h
        exact h.resolve_left (Ne.symm hk)
      rw [insertEntry, if_neg hk, List.map_cons, if_neg hk, ih hn.2 hmem]

/-- Entries with distinct keys are those of their map. -/
theorem ofList_entries {entries : List (String × α)} (h : (entries.map Prod.fst).Nodup) :
    (ofList entries).entries = entries := by
  -- The map that the fold starts from holds the keys already passed, which no later one repeats.
  suffices hfold : ∀ m : OrderedMap α, ((m.entries ++ entries).map Prod.fst).Nodup →
      (entries.foldl (fun m entry => m.insert entry.1 entry.2) m).entries
        = m.entries ++ entries from hfold empty h
  induction entries with
  | nil => exact fun m _ => (List.append_nil _).symm
  | cons entry rest ih =>
    intro m hm
    have hnew : entry.1 ∉ m.entries.map Prod.fst := by
      rw [List.map_append, List.nodup_append] at hm
      exact fun hmem => hm.2.2 _ hmem _ (by simp) rfl
    have hstep : (m.insert entry.1 entry.2).entries = m.entries ++ [entry] :=
      insertEntry_new entry.2 hnew
    rw [List.foldl_cons, ih (List.nodup_cons.mp h).2 _ (by rw [hstep]; simpa using hm), hstep]
    simp

theorem ofList_self (m : OrderedMap α) : ofList m.entries = m :=
  ext_entries (ofList_entries m.nodup)

theorem get?_empty (key : String) : (empty : OrderedMap α).get? key = none := rfl

theorem get?_isSome {m : OrderedMap α} : (m.get? key).isSome ↔ key ∈ m.keys := by
  simp [get?, keys]

theorem mem_of_get? {m : OrderedMap α} (h : m.get? key = some value) :
    (key, value) ∈ m.entries := by
  obtain ⟨⟨k, v⟩, hfound, rfl⟩ := Option.map_eq_some_iff.mp h
  obtain rfl : k = key := by simpa using List.find?_some hfound
  exact List.mem_of_find?_eq_some hfound

theorem get?_insert (m : OrderedMap α) (key : String) (value : α) (k : String) :
    (m.insert key value).get? k = if key = k then some value else m.get? k := by
  obtain ⟨entries, nodup⟩ := m
  change ((insertEntry key value entries).find? fun entry => entry.1 == k).map Prod.snd
    = if key = k then some value else (entries.find? fun entry => entry.1 == k).map Prod.snd
  clear nodup
  induction entries with
  | nil =>
    by_cases hk : key = k <;> simp [insertEntry, hk]
  | cons entry rest ih =>
    obtain ⟨k', v'⟩ := entry
    by_cases hkey : k' = key
    · rw [insertEntry, if_pos hkey, hkey]
      by_cases hk : key = k <;> simp [hk]
    · rw [insertEntry, if_neg hkey]
      by_cases hk : k' = k
      · have hne : key ≠ k := fun h => hkey (hk.trans h.symm)
        simp [hk, hne]
      · rw [List.find?_cons_of_neg (by simpa using hk), List.find?_cons_of_neg (by simpa using hk),
          ih]

theorem get?_of_mem {e : String × α} (h : e ∈ m.entries) : m.get? e.1 = some e.2 := by
  obtain ⟨v, hv⟩ := Option.isSome_iff_exists.mp (get?_isSome.mpr (List.mem_map_of_mem h))
  have hsame : (e.1, v) = e := List.inj_on_of_nodup_map m.nodup (mem_of_get? hv) h rfl
  rw [hv, ← congrArg Prod.snd hsame]

theorem get?_eq_none : m.get? key = none ↔ key ∉ m.keys := by
  rw [← get?_isSome, Option.not_isSome_iff_eq_none]

/-- Maps with the same keys in the same order and the same value under each key are the same. -/
theorem eq_of_get? (hkeys : m.keys = n.keys) (hget : ∀ key, m.get? key = n.get? key) : m = n := by
  have hentries : ∀ m : OrderedMap α, m.entries.map (fun e => (e.1, some e.2))
      = m.keys.map fun key => (key, m.get? key) := by
    intro m
    rw [keys, List.map_map]
    exact List.map_congr_left fun e he => by rw [Function.comp_apply, get?_of_mem he]
  have hinjective : Function.Injective fun e : String × α => (e.1, some e.2) := by
    rintro ⟨k, v⟩ ⟨k', v'⟩ h
    simpa using h
  apply ext_entries
  apply List.map_injective_iff.mpr hinjective
  simp only [hentries, hkeys, hget]

theorem insert_entries_known (h : key ∈ m.keys) :
    (m.insert key value).entries = m.entries.map fun e => if e.1 = key then (e.1, value) else e :=
  insertEntry_known m.nodup h

theorem insert_entries_new (h : key ∉ m.keys) :
    (m.insert key value).entries = m.entries ++ [(key, value)] :=
  insertEntry_new value h

theorem keys_insert (m : OrderedMap α) (key : String) (value : α) :
    (m.insert key value).keys = if key ∈ m.keys then m.keys else m.keys ++ [key] := by
  split
  next h =>
    rw [keys, insert_entries_known h, List.map_map]
    refine List.map_congr_left fun e _ => ?_
    rw [Function.comp_apply]
    split <;> rfl
  next h => rw [keys, insert_entries_new h, List.map_append]; rfl

/-- A value that is stored again under its key changes nothing. -/
theorem insert_self (h : m.get? key = some value) : m.insert key value = m := by
  have hkey : key ∈ m.keys := get?_isSome.mp (by rw [h]; rfl)
  apply ext_entries
  rw [insert_entries_known hkey]
  have hsame : ∀ e ∈ m.entries, (if e.1 = key then (e.1, value) else e) = e := by
    intro e he
    split
    next hk =>
      have hvalue := get?_of_mem he
      rw [hk, h, Option.some.injEq] at hvalue
      rw [hvalue]
    next => rfl
  rw [List.map_congr_left hsame, List.map_id']

theorem ofList_snoc (entries : List (String × α)) (key : String) (value : α) :
    ofList (entries ++ [(key, value)]) = (ofList entries).insert key value := by
  rw [ofList, List.foldl_append]
  rfl

theorem lastUnder_snoc {k : String} {v : α} :
    LastUnder (entries ++ [(k, v)]) key value
      ↔ if k = key then v = value else LastUnder entries key value := by
  constructor
  · rintro ⟨front, back, heq, hback⟩
    rcases List.eq_nil_or_concat back with rfl | ⟨back, last, rfl⟩
    · obtain ⟨-, hlast⟩ := List.append_inj' heq rfl
      obtain ⟨rfl, rfl⟩ : k = key ∧ v = value := by simpa using hlast
      rw [if_pos rfl]
    · have heq' : entries ++ [(k, v)] = (front ++ (key, value) :: back) ++ [last] := by
        rw [heq, List.concat_eq_append, List.append_assoc, List.cons_append]
      obtain ⟨hentries, hlast⟩ := List.append_inj' heq' rfl
      obtain rfl : (k, v) = last := by simpa using hlast
      have hne : k ≠ key := hback (k, v) (by simp)
      rw [if_neg hne]
      exact ⟨front, back, hentries, fun entry hentry => hback entry (by simp [hentry])⟩
  · intro h
    split at h
    next hk =>
      obtain ⟨rfl, rfl⟩ : k = key ∧ v = value := ⟨hk, h⟩
      exact ⟨entries, [], rfl, by simp⟩
    next hk =>
      obtain ⟨front, back, rfl, hback⟩ := h
      refine ⟨front, back ++ [(k, v)], by simp, fun entry hentry => ?_⟩
      rcases List.mem_append.mp hentry with hentry | hentry
      · exact hback entry hentry
      · obtain rfl := List.mem_singleton.mp hentry
        exact hk

/-- A map holds under a key what was stored last under it. -/
theorem get?_ofList : (ofList entries).get? key = some value ↔ LastUnder entries key value := by
  induction entries using List.reverseRecOn with
  | nil =>
    have hnone : ¬ LastUnder ([] : List (String × α)) key value := by
      rintro ⟨front, back, heq, -⟩
      simp at heq
    exact iff_of_false (by simp [ofList, get?_empty]) hnone
  | append_singleton entries entry ih =>
    obtain ⟨k, v⟩ := entry
    rw [ofList_snoc, get?_insert, lastUnder_snoc]
    split
    next => rw [Option.some.injEq]
    next => exact ih

end OrderedMap

end Tabularium
