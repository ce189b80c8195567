import Tabularium.Proofs.Json.PrettyRoundTrip

namespace Tabularium

namespace Draft

open Json

variable {cs rest : List Char} {fuel level : Nat}

theorem compactItems_front (item : Json) (items : List Json) :
    compactItems true (item :: items) = compactChars item ++ compactItems false items := by
  rw [compactItems]
  rfl

theorem compactItems_behind (item : Json) (items : List Json) :
    compactItems false (item :: items) =
      ',' :: (compactChars item ++ compactItems false items) := by
  rw [compactItems]
  rfl

theorem compactEntries_front (key : String) (value : Json) (entries : List (String × Json)) :
    compactEntries true ((key, value) :: entries) =
      quotedChars key ++ ':' :: (compactChars value ++ compactEntries false entries) := by
  rw [compactEntries]
  simp

theorem compactEntries_behind (key : String) (value : Json) (entries : List (String × Json)) :
    compactEntries false ((key, value) :: entries) =
      ',' :: (quotedChars key ++ ':' :: (compactChars value ++ compactEntries false entries)) := by
  rw [compactEntries]
  simp

/-- The items of a list are read one after the other up to its end. -/
theorem readItems_compact {items : List Json} {item : Json}
    (h : ∀ j ∈ item :: items, Reads level (compactChars j) j.reread)
    (hf : (compactChars item).length + (compactItems false items).length < fuel) :
    readItems fuel level (compactChars item ++ (compactItems false items ++ ']' :: rest))
      = ((item :: items).map reread, some rest) := by
  obtain ⟨fuel, rfl⟩ : ∃ k, fuel = k + 1 := ⟨fuel - 1, by omega⟩
  induction items generalizing item fuel with
  | nil =>
    have hread := (h item List.mem_cons_self).reads fuel (']' :: rest) (by omega)
      (ends_cons (by decide) _)
    rw [compactItems, List.nil_append]
    exact readItems_last hread (skipBlanks_cons (by decide) _)
  | cons next items ih =>
    rw [compactItems_behind, List.cons_append, List.append_assoc]
    have hlen := congrArg List.length (compactItems_behind next items)
    rw [List.length_cons, List.length_append] at hlen
    have hread := (h item List.mem_cons_self).reads fuel
      (',' :: (compactChars next ++ (compactItems false items ++ ']' :: rest))) (by omega)
      (ends_cons (by decide) _)
    obtain ⟨fuel, rfl⟩ : ∃ k, fuel = k + 1 := ⟨fuel - 1, by omega⟩
    have hrest := ih (fun j hj => h j (List.mem_cons_of_mem item hj)) fuel (by omega)
    exact readItems_more hread hrest

theorem reads_compact_list {items : List Json} (hl : level < depthLimit)
    (h : ∀ j ∈ items, Reads (level + 1) (compactChars j) j.reread) :
    Reads level (compactChars (.list items)) (.list false (items.map reread) true) := by
  cases items with
  | nil =>
    have hnone : Reads level (prettyChars 0 (.list [])) (.list false [] true) :=
      reads_list hl (by simp)
    exact hnone
  | cons item items =>
    have htext : ∀ rest, compactChars (.list (item :: items)) ++ rest
        = '[' :: (compactChars item ++ (compactItems false items ++ ']' :: rest)) := by
      intro rest
      rw [compactChars, compactItems_front]
      simp only [List.cons_append, List.append_assoc, List.nil_append]
    have hs : Starts (compactChars (.list (item :: items))) :=
      ⟨'[', _, by rw [← List.append_nil (compactChars _), htext], by decide⟩
    have hitem := (h item List.mem_cons_self).starts
    refine ⟨hs, fun fuel rest hf hr => ?_⟩
    have hlen := congrArg List.length (htext [])
    simp only [List.append_nil, List.length_cons, List.length_append] at hlen
    obtain ⟨fuel, rfl⟩ : ∃ k, fuel = k + 1 := ⟨fuel - 1, by omega⟩
    refine readValue_list hl ((hs.skipBlanks rest).trans (htext rest)) ?_ ?_
    · rw [hitem.skipBlanks]
      exact hitem.append _
    · rw [hitem.skipBlanks]
      exact readItems_compact h (by omega)

/-- The entries of a record are read one after the other up to its end. -/
theorem readMembers_compact {entries : List (String × Json)} {key : String} {value : Json}
    (h : ∀ e ∈ (key, value) :: entries, Reads level (compactChars e.2) e.2.reread)
    (hf : (compactChars value).length + (compactEntries false entries).length < fuel) :
    readMembers fuel level (quotedChars key ++ ':' :: (compactChars value
        ++ (compactEntries false entries ++ '\x7d' :: rest)))
      = (((key, value) :: entries).map fun e => (some e.1, e.2.reread), some rest) := by
  obtain ⟨fuel, rfl⟩ : ∃ k, fuel = k + 1 := ⟨fuel - 1, by omega⟩
  induction entries generalizing key value fuel with
  | nil =>
    have hread := (h _ List.mem_cons_self).reads fuel ('\x7d' :: rest)
      (by dsimp only; omega) (ends_cons (by decide) _)
    rw [compactEntries, List.nil_append]
    exact readMembers_last ((quotedChars_starts key).skipBlanks _) hread
      (skipBlanks_cons (by decide) _)
  | cons next entries ih =>
    obtain ⟨key', value'⟩ := next
    rw [compactEntries_behind, List.cons_append, List.append_assoc, List.cons_append,
      List.append_assoc]
    have hlen := congrArg List.length (compactEntries_behind key' value' entries)
    simp only [List.length_cons, List.length_append] at hlen
    have hread := (h _ List.mem_cons_self).reads fuel
      (',' :: (quotedChars key' ++ ':' :: (compactChars value'
        ++ (compactEntries false entries ++ '\x7d' :: rest))))
      (by dsimp only; omega) (ends_cons (by decide) _)
    obtain ⟨fuel, rfl⟩ : ∃ k, fuel = k + 1 := ⟨fuel - 1, by omega⟩
    have hrest := ih (fun e he => h e (List.mem_cons_of_mem _ he)) fuel (by omega)
    exact readMembers_more ((quotedChars_starts key).skipBlanks _) hread hrest

theorem reads_compact_record {entries : List (String × Json)} (hl : level < depthLimit)
    (h : ∀ e ∈ entries, Reads (level + 1) (compactChars e.2) e.2.reread) :
    Reads level (compactChars (.record entries))
      (.record false (entries.map fun e => (some e.1, e.2.reread)) true) := by
  cases entries with
  | nil =>
    have hnone : Reads level (prettyChars 0 (.record [])) (.record false [] true) :=
      reads_record hl (by simp)
    exact hnone
  | cons entry entries =>
    obtain ⟨key, value⟩ := entry
    have htext : ∀ rest, compactChars (.record ((key, value) :: entries)) ++ rest
        = '\x7b' :: (quotedChars key ++ ':' :: (compactChars value
          ++ (compactEntries false entries ++ '\x7d' :: rest))) := by
      intro rest
      rw [compactChars, compactEntries_front]
      simp only [List.cons_append, List.append_assoc, List.nil_append]
    have hs : Starts (compactChars (.record ((key, value) :: entries))) :=
      ⟨'\x7b', _, by rw [← List.append_nil (compactChars _), htext], by decide⟩
    refine ⟨hs, fun fuel rest hf hr => ?_⟩
    have hlen := congrArg List.length (htext [])
    simp only [List.append_nil, List.length_cons, List.length_append] at hlen
    obtain ⟨fuel, rfl⟩ : ∃ k, fuel = k + 1 := ⟨fuel - 1, by omega⟩
    exact readValue_record hl ((hs.skipBlanks rest).trans (htext rest))
      ((quotedChars_starts key).skipBlanks _) (readMembers_compact h (by omega))

/-- Every document that is not too deep, with numbers that fit, is read from its compact text. -/
theorem reads_compact {j : Json} (h : Readable level j) :
    Reads level (compactChars j) j.reread := by
  induction h with
  | null level => exact reads_null
  | bool level b =>
    cases b
    · exact reads_false
    · exact reads_true
  | int level n low high => exact reads_int low high
  | float level x finite =>
    have hchars : compactChars (.float x) = x.chars .document := by
      rw [compactChars]
      · rw [scalarChars, if_pos finite]
      all_goals simp
    rw [hchars]
    exact reads_float finite
  | text level s => exact reads_text s
  | list level items shallow _ ih =>
    rw [reread, rereadItems_eq]
    exact reads_compact_list shallow ih
  | record level entries shallow _ ih =>
    rw [reread, rereadEntries_eq]
    exact reads_compact_record shallow ih

/-- A document that is not too deep, with numbers that fit, is decoded from its compact text as it
is from what it was before, but for the numbers with a point. -/
theorem decode_compact {α : Type} (read : Draft → Except Fault α) {j : Json} (h : Readable 1 j) :
    decode read j.compact = read j.reread :=
  decode_of_reads read (reads_compact h)

end Draft

end Tabularium
