import Tabularium.Proofs.Json.CompactRoundTrip
import Tabularium.Proofs.Json.RecordReading
import Tabularium.Proofs.OrderedMap

namespace Tabularium

namespace Json

/-- The text of a document brings it back: its numbers fit and are read as they were written, its
keys are distinct, and at this level of nesting it is not too deep. -/
inductive Faithful : Nat → Json → Prop where
  | null (level : Nat) : Faithful level .null
  | bool (level : Nat) (b : Bool) : Faithful level (.bool b)
  | int (level : Nat) (n : Int) (low : -(2 ^ 63) ≤ n) (high : n < 2 ^ 64) : Faithful level (.int n)
  | float (level : Nat) (x : Binary64) (finite : x.isFinite = true) (back : x.readBack = x) :
    Faithful level (.float x)
  | text (level : Nat) (s : String) : Faithful level (.text s)
  | list (level : Nat) (items : List Json) (shallow : level < Draft.depthLimit)
    (faithful : ∀ j ∈ items, Faithful (level + 1) j) : Faithful level (.list items)
  | record (level : Nat) (entries : List (String × Json)) (shallow : level < Draft.depthLimit)
    (distinct : (entries.map Prod.fst).Nodup)
    (faithful : ∀ e ∈ entries, Faithful (level + 1) e.2) : Faithful level (.record entries)

namespace Faithful

variable {level : Nat} {j : Json} {items : List Json} {entries : List (String × Json)}

theorem readable (h : Faithful level j) : Readable level j := by
  induction h with
  | null level => exact .null level
  | bool level b => exact .bool level b
  | int level n low high => exact .int level n low high
  | float level x finite _ => exact .float level x finite
  | text level s => exact .text level s
  | list level items shallow _ ih => exact .list level items shallow ih
  | record level entries shallow _ _ ih => exact .record level entries shallow ih

theorem item (h : Faithful level (.list items)) (hj : j ∈ items) : Faithful (level + 1) j := by
  cases h with
  | list _ _ _ faithful => exact faithful j hj

theorem entry {key : String} (h : Faithful level (.record entries)) (he : (key, j) ∈ entries) :
    Faithful (level + 1) j := by
  cases h with
  | record _ _ _ _ faithful => exact faithful _ he

end Faithful

end Json

namespace Draft

open Json

variable {level : Nat} {j : Json}

theorem settleItems_map {items : List Json} (h : ∀ j ∈ items, settle j.reread = .ok j) :
    settleItems (items.map reread) = .ok items := by
  induction items with
  | nil => rfl
  | cons j items ih =>
    rw [List.map_cons, settleItems, h j List.mem_cons_self,
      ih fun k hk => h k (List.mem_cons_of_mem j hk)]

theorem settleEntries_map {entries : List (String × Json)}
    (h : ∀ e ∈ entries, settle e.2.reread = .ok e.2) :
    settleEntries (entries.map fun e => (some e.1, e.2.reread)) = .ok entries := by
  induction entries with
  | nil => rfl
  | cons e entries ih =>
    rw [List.map_cons, settleEntries, h e List.mem_cons_self,
      ih fun k hk => h k (List.mem_cons_of_mem e hk)]

/-- What the text of a faithful document is read as denotes the document. -/
theorem settle_reread (h : Faithful level j) : settle j.reread = .ok j := by
  induction h with
  | float level x finite back => rw [reread, settle, back]
  | list level items shallow _ ih =>
    rw [reread, rereadItems_eq, settle, settleItems_map ih]
    rfl
  | record level entries shallow distinct _ ih =>
    rw [reread, rereadEntries_eq, settle, settleEntries_map ih]
    simp only [Except.map, OrderedMap.ofList_entries distinct]
  | _ => rfl

theorem settleItems_readable {items : List Json} (h : ∀ j ∈ items, ∃ k, settle j.reread = .ok k) :
    ∃ ks, settleItems (items.map reread) = .ok ks := by
  induction items with
  | nil => exact ⟨[], rfl⟩
  | cons j items ih =>
    rw [List.forall_mem_cons] at h
    obtain ⟨k, hk⟩ := h.1
    obtain ⟨ks, hks⟩ := ih h.2
    exact ⟨k :: ks, by rw [List.map_cons, settleItems, hk, hks]⟩

theorem settleEntries_readable {entries : List (String × Json)}
    (h : ∀ e ∈ entries, ∃ k, settle e.2.reread = .ok k) :
    ∃ ks, settleEntries (entries.map fun e => (some e.1, e.2.reread)) = .ok ks := by
  induction entries with
  | nil => exact ⟨[], rfl⟩
  | cons e entries ih =>
    rw [List.forall_mem_cons] at h
    obtain ⟨k, hk⟩ := h.1
    obtain ⟨ks, hks⟩ := ih h.2
    exact ⟨(e.1, k) :: ks, by rw [List.map_cons, settleEntries, hk, hks]⟩

/-- What the text of a readable document is read as denotes a document, though its numbers may
differ and of a key that stands twice one entry is left. -/
theorem settle_readable (h : Readable level j) : ∃ k, settle j.reread = .ok k := by
  induction h with
  | list level items shallow _ ih =>
    obtain ⟨ks, hks⟩ := settleItems_readable ih
    exact ⟨.list ks, by rw [reread, rereadItems_eq, settle, hks]; rfl⟩
  | record level entries shallow _ ih =>
    obtain ⟨ks, hks⟩ := settleEntries_readable ih
    exact ⟨.record (OrderedMap.ofList ks).entries, by
      rw [reread, rereadEntries_eq, settle, hks]; rfl⟩
  | _ => exact ⟨_, rfl⟩

end Draft

end Tabularium
