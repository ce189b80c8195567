import Mathlib.Data.List.Nodup
import Tabularium.Proofs.Json.PrettyRoundTrip
import Tabularium.Proofs.Outcome

namespace Tabularium

namespace Draft

open Json

/-- Entries in the order of fields lead from a value to another. Only a field that may be left out
has no entry. -/
inductive Fills {α : Type} : List (Field α) → α → List (Option String × Draft) → α → Prop where
  | done (x : α) : Fills [] x [] x
  | given {field : Field α} {fields : List (Field α)} {d : Draft} {x y z : α}
    {entries : List (Option String × Draft)} (read : field.read d x = .ok y)
    (rest : Fills fields y entries z) :
    Fills (field :: fields) x ((some field.name, d) :: entries) z
  | skipped {field : Field α} {fields : List (Field α)} {x z : α}
    {entries : List (Option String × Draft)} (optional : field.presence ≠ .required)
    (rest : Fills fields x entries z) : Fills (field :: fields) x entries z

variable {α β γ : Type} {fields : List (Field α)} {x z : α}
  {entries : List (Option String × Draft)}

theorem find?_field {first : List (Field α)} {field : Field α}
    (hn : ((first ++ field :: fields).map (·.name)).Nodup) :
    (first ++ field :: fields).find? (fun f => f.name == field.name) = some field := by
  have hother : ∀ f ∈ first, ¬ (f.name == field.name) = true := by
    intro f hf he
    rw [List.map_append, List.nodup_append] at hn
    exact hn.2.2 _ (List.mem_map_of_mem hf) _ List.mem_cons_self (by simpa using he)
  rw [List.find?_append, List.find?_eq_none.mpr hother, Option.none_or,
    List.find?_cons_of_pos (by simp)]

/-- Entries in the order of fields are read, and every field that has to be there is seen. -/
theorem Fills.readEntries (h : Fills fields x entries z) (first : List (Field α))
    (hn : ((first ++ fields).map (·.name)).Nodup) (seen : List String)
    (hs : ∀ key ∈ seen, key ∈ first.map (·.name)) :
    ∃ seen', readEntries (first ++ fields) seen x entries = .ok (seen', z)
      ∧ (∀ key ∈ seen, key ∈ seen')
      ∧ ∀ f ∈ fields, f.presence = .required → f.name ∈ seen' := by
  induction h generalizing first seen with
  | done x => exact ⟨seen, rfl, fun _ h => h, by simp⟩
  | @given field fields d x y z entries read rest ih =>
    have hsplit : first ++ field :: fields = (first ++ [field]) ++ fields := by simp
    have hnew : seen.contains field.name = false := by
      by_contra hc
      have hmem : field.name ∈ seen := by simpa using hc
      rw [List.map_append, List.nodup_append] at hn
      exact hn.2.2 _ (hs _ hmem) _ List.mem_cons_self rfl
    have hfind := find?_field hn
    obtain ⟨seen', hread, hkept, hall⟩ := ih (first ++ [field]) (hsplit ▸ hn)
      (field.name :: seen) (by
        intro key hkey
        rw [List.map_append, List.mem_append]
        rcases List.mem_cons.mp hkey with rfl | hkey
        · exact .inr List.mem_cons_self
        · exact .inl (hs key hkey))
    refine ⟨seen', ?_, fun key hkey => hkept key (List.mem_cons_of_mem _ hkey), ?_⟩
    · rw [← hread, ← hsplit, Draft.readEntries, hfind]
      simp only [hnew, read]
      rfl
    · intro f hf hr
      rcases List.mem_cons.mp hf with rfl | hf
      · exact hkept _ List.mem_cons_self
      · exact hall f hf hr
  | @skipped field fields x z entries optional rest ih =>
    have hsplit : first ++ field :: fields = (first ++ [field]) ++ fields := by simp
    obtain ⟨seen', hread, hkept, hall⟩ := ih (first ++ [field]) (hsplit ▸ hn) seen (by
      intro key hkey
      rw [List.map_append, List.mem_append]
      exact .inl (hs key hkey))
    refine ⟨seen', by rw [hsplit, hread], hkept, fun f hf hr => ?_⟩
    rcases List.mem_cons.mp hf with rfl | hf
    · exact absurd hr optional
    · exact hall f hf hr

/-- A record whose entries stand in the order of the fields is read as what they lead to. -/
theorem Fills.asRecord (h : Fills fields x entries z) (hn : (fields.map (·.name)).Nodup) :
    asRecord fields x (.record false entries true) = .ok z := by
  obtain ⟨seen, hread, -, hall⟩ := h.readEntries [] hn [] (by simp)
  rw [List.nil_append] at hread
  have hcomplete :
      (fields.any fun f => f.presence == .required && !seen.contains f.name) = false := by
    rw [List.any_eq_false]
    intro f hf hmissing
    simp only [Bool.and_eq_true, beq_iff_eq, Bool.not_eq_eq_eq_not, Bool.not_true] at hmissing
    have := hall f hf hmissing.1
    simp_all
  unfold Draft.asRecord
  simp only [hread, bind, Except.bind, hcomplete]
  rfl

theorem storing_ok {presence : Presence} {name : String} {decode : Draft → Except Fault β}
    {set : α → β → α} {d : Draft} {b : β} (h : decode d = .ok b) (x : α) :
    (Field.storing presence name decode set).read d x = .ok (set x b) := by
  simp only [Field.storing, h]
  rfl

theorem asText_reread (s : String) : asText (Json.text s).reread = .ok s := rfl

theorem asWord_ok {word? : Int → Option β} {n : Int} {w : β} (h : word? n = some w) :
    asWord word? (Json.int n).reread = .ok w := by
  rw [Json.reread, asWord, h]

theorem asBool_reread (b : Bool) : asBool (Json.bool b).reread = .ok b := rfl

/-- An entry that is written only when its value is there fills a field that may be left out, with
what the value is read as. -/
theorem Fills.omittable {presence : Presence} {key : String}
    {decode : Draft → Except Fault (Option γ)} {set : α → Option γ → α} {write : β → Json}
    {value : Option β} {value' : Option γ} (hp : presence ≠ .required)
    (hread : ∀ b ∈ value, decode (write b).reread = .ok value')
    (habsent : value = none → value' = none) (hnone : set x none = x)
    (rest : Fills fields (set x value') entries z) :
    Fills (Field.storing presence key decode set :: fields) x
      (rereadEntries (Json.optional key (value.map write)) ++ entries) z := by
  cases value with
  | none =>
    rw [habsent rfl, hnone] at rest
    exact .skipped hp rest
  | some b => exact .given (storing_ok (hread b rfl) x) rest

/-- An entry that is written only when its value is there fills a field that may be left out. -/
theorem Fills.optional {key : String} {decode : Draft → Except Fault γ} {set : α → Option γ → α}
    {write : β → Json} {value : Option β} {value' : Option γ} (back : β → γ)
    (hread : ∀ b ∈ value, asOption decode (write b).reread = .ok (some (back b)))
    (hvalue : value.map back = value') (hnone : set x none = x)
    (rest : Fills fields (set x value') entries z) :
    Fills (Field.optional key decode set :: fields) x
      (rereadEntries (Json.optional key (value.map write)) ++ entries) z := by
  subst hvalue
  refine Fills.omittable (by decide) (fun b hb => ?_) (fun h => by rw [h]; rfl) hnone rest
  rw [hread b hb, Option.mem_def.mp hb]
  rfl

theorem asOption_ok {decode : Draft → Except Fault γ} {d : Draft} {b : γ} (h : decode d = .ok b)
    (hd : d ≠ .null) : asOption decode d = .ok (some b) := by
  unfold asOption
  split
  next => exact absurd rfl hd
  next => rw [h]; rfl

/-- A list of values that were written one by one is read as what they are read as. -/
theorem asList_map (decode : Draft → Except Fault γ) (write : β → Json) (back : β → γ)
    {items : List β} (h : ∀ b ∈ items, decode (write b).reread = .ok (back b)) :
    asList decode (Json.list (items.map write)).reread = .ok (items.map back) := by
  have hitems : asItems decode ((items.map write).map reread) = .ok (items.map back) := by
    induction items with
    | nil => rfl
    | cons b items ih =>
      simp only [List.map_cons, asItems]
      rw [h b List.mem_cons_self, ih fun c hc => h c (List.mem_cons_of_mem b hc)]
      rfl
  rw [reread, rereadItems_eq]
  unfold asList
  simp only [hitems]
  rfl

theorem asList_texts (items : List String) : asList asText (texts items).reread = .ok items := by
  have h := asList_map asText Json.text id fun item (_ : item ∈ items) => asText_reread item
  rwa [List.map_id] at h

/-- A text is decoded when it is one value with nothing behind it, and the value is read. -/
theorem decode_eq_ok {read : Draft → Except Fault α} {text : String} {x : α} :
    decode read text = .ok x ↔ ∃ d, ofText text = (d, true) ∧ read d = .ok x := by
  unfold decode
  obtain ⟨d, clean⟩ := ofText text
  cases hread : read d with
  | error fault => simp [hread]
  | ok y => cases clean <;> simp [hread]

section Maps

variable {read : Draft → Except Fault α}

theorem asEntries_eq_ok {entries : List (Option String × Draft)} {xs : List (String × α)} :
    asEntries read entries = .ok xs
      ↔ List.Forall₂ (fun entry x => entry.1 = some x.1 ∧ read entry.2 = .ok x.2) entries xs := by
  induction entries generalizing xs with
  | nil =>
    rw [List.forall₂_nil_left_iff]
    exact ⟨fun h => by cases h; rfl, fun h => by rw [h]; rfl⟩
  | cons entry entries ih =>
    obtain ⟨key?, d⟩ := entry
    rw [List.forall₂_cons_left_iff]
    cases key? with
    | none =>
      constructor
      · intro h
        cases h
      · rintro ⟨x, rest, ⟨hkey, -⟩, -⟩
        cases hkey
    | some key =>
      rw [asEntries, bind_eq_ok]
      constructor
      · rintro ⟨x, hx, h⟩
        obtain ⟨rest, hrest, h⟩ := bind_eq_ok.mp h
        cases h
        exact ⟨(key, x), rest, ⟨rfl, hx⟩, ih.mp hrest, rfl⟩
      · rintro ⟨⟨key', x⟩, rest, ⟨hkey, hx⟩, hrest, rfl⟩
        cases hkey
        exact ⟨x, hx, bind_eq_ok.mpr ⟨rest, ih.mpr hrest, rfl⟩⟩

/-- A map is read from a record: its entries are read and inserted in their order. -/
theorem asMap_eq_ok {d : Draft} {m : OrderedMap α} : asMap read d = .ok m
    ↔ ∃ entries xs, d = .record false entries true
      ∧ List.Forall₂ (fun entry x => entry.1 = some x.1 ∧ read entry.2 = .ok x.2) entries xs
      ∧ OrderedMap.ofList xs = m := by
  constructor
  · intro h
    unfold asMap at h
    split at h
    next deep entries closed =>
      cases deep with
      | true => cases h
      | false =>
        obtain ⟨xs, hxs, h⟩ := bind_eq_ok.mp h
        cases closed with
        | false => cases h
        | true =>
          cases h
          exact ⟨entries, xs, rfl, asEntries_eq_ok.mp hxs, rfl⟩
    next => cases h
  · rintro ⟨entries, xs, rfl, hxs, rfl⟩
    exact bind_eq_ok.mpr ⟨xs, asEntries_eq_ok.mpr hxs, rfl⟩

/-- Entries whose values survive being written are read in a map, one after the other. -/
theorem asMap_written {write : α → Json} {entries : List (String × α)}
    (h : ∀ e ∈ entries, read (write e.2).reread = .ok e.2) :
    asMap read (Json.record (entries.map fun (key, x) => (key, write x))).reread
      = .ok (.ofList entries) := by
  refine asMap_eq_ok.mpr ⟨_, entries, by rw [Json.reread, rereadEntries_eq], ?_, rfl⟩
  rw [List.map_map, List.forall₂_map_left_iff, List.forall₂_same]
  exact fun e he => ⟨rfl, h e he⟩

end Maps

section Keeps

variable {P : α → Prop}
  (keeps : ∀ field ∈ fields, ∀ d x y, P x → field.read d x = .ok y → P y)
include keeps

theorem readEntries_keeps {seen seen' : List String} (hx : P x)
    (h : readEntries fields seen x entries = .ok (seen', z)) : P z := by
  fun_induction readEntries fields seen x entries with
  | case1 => cases h; exact hx
  | case2 => cases h
  | case3 _ _ _ _ _ _ _ ih => exact ih hx h
  | case4 => cases h
  | case5 => cases h
  | case6 seen x key d entries field hfind hseen y hread ih =>
    exact ih (keeps field (List.mem_of_find?_eq_some hfind) d x y hx hread) h
  | case7 => cases h

theorem readPositions_keeps {closed : Bool} {ds : List Draft} (hx : P x)
    (h : readPositions closed x fields ds = .ok z) : P z := by
  fun_induction readPositions closed x fields ds with
  | case1 => cases h; exact hx
  | case2 => cases h
  | case3 => cases h
  | case4 => cases h
  | case5 x field fields _ _ ih =>
    exact ih (fun f hf => keeps f (List.mem_cons_of_mem field hf)) hx h
  | case6 => cases h
  | case7 x field fields d ds ih =>
    obtain ⟨y, hread, hrest⟩ := bind_eq_ok.mp h
    exact ih y (fun f hf => keeps f (List.mem_cons_of_mem field hf))
      (keeps field List.mem_cons_self d x y hx hread) hrest

/-- What every field keeps is true of a value that is put together from its fields. -/
theorem asRecord_keeps {d : Draft} (hx : P x) (h : asRecord fields x d = .ok z) : P z := by
  cases d with
  | record deep entries closed =>
    cases deep with
    | true => cases h
    | false =>
      obtain ⟨-, -, h⟩ := bind_eq_ok.mp h
      obtain ⟨⟨seen, y⟩, hread, h⟩ := bind_eq_ok.mp h
      cases closed with
      | false => cases h
      | true =>
        simp only [Bool.not_true, Bool.false_eq_true, if_false] at h
        split at h
        · cases h
        · cases h
          exact readEntries_keeps keeps hx hread
  | list deep items closed =>
    cases deep with
    | true => cases h
    | false => exact readPositions_keeps keeps hx h
  | _ => cases h

end Keeps

end Draft

end Tabularium
