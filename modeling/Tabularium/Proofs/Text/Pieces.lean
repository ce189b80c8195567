import Mathlib.Data.List.DropRight
import Tabularium.Text.Pieces

namespace Tabularium

variable {separator : Char} {front back cs piece : List Char}

/-- What is dropped at the end of a text reaches into its front only when nothing of the part behind
is left. -/
theorem rdropWhile_append (p : Char → Bool) (front back : List Char) :
    (front ++ back).rdropWhile p
      = if back.rdropWhile p = [] then front.rdropWhile p else front ++ back.rdropWhile p := by
  unfold List.rdropWhile
  rw [List.reverse_append, List.dropWhile_append]
  by_cases h : back.reverse.dropWhile p = [] <;> simp [h]

theorem splitAtEach_self (h : separator ∉ front) : splitAtEach separator front = [front] := by
  induction front with
  | nil => rfl
  | cons c cs ih =>
    rw [List.mem_cons, not_or] at h
    rw [splitAtEach, if_neg (Ne.symm h.1), ih h.2]
    rfl

theorem splitAtEach_append (h : separator ∉ front) :
    splitAtEach separator (front ++ separator :: back) = front :: splitAtEach separator back := by
  induction front with
  | nil => rw [List.nil_append, splitAtEach, if_pos rfl]
  | cons c cs ih =>
    rw [List.mem_cons, not_or] at h
    rw [List.cons_append, splitAtEach, if_neg (Ne.symm h.1), ih h.2]
    rfl

/-- A text without a separator that is put behind another one goes on with its last piece. -/
theorem splitAtEach_ended (cs : List Char) (h : separator ∉ back) :
    ∃ pieces piece, splitAtEach separator (cs ++ back) = pieces ++ [piece ++ back] := by
  induction cs with
  | nil => exact ⟨[], [], splitAtEach_self h⟩
  | cons c cs ih =>
    obtain ⟨pieces, piece, hsplit⟩ := ih
    rw [List.cons_append, splitAtEach, hsplit]
    by_cases hc : c = separator
    · exact ⟨[] :: pieces, piece, if_pos hc⟩
    · rw [if_neg hc]
      cases pieces with
      | nil => exact ⟨[], c :: piece, rfl⟩
      | cons first pieces => exact ⟨(c :: first) :: pieces, piece, rfl⟩

theorem splitOnce?_append (h : separator ∉ front) :
    splitOnce? separator (front ++ separator :: back) = some (front, back) := by
  induction front with
  | nil => rw [List.nil_append, splitOnce?, if_pos rfl]
  | cons c cs ih =>
    rw [List.mem_cons, not_or] at h
    rw [List.cons_append, splitOnce?, if_neg (Ne.symm h.1), ih h.2]
    rfl

theorem append_of_splitOnce? (h : splitOnce? separator cs = some (front, back)) :
    separator ∉ front ∧ cs = front ++ separator :: back := by
  induction cs generalizing front with
  | nil => cases h
  | cons c cs ih =>
    rw [splitOnce?] at h
    by_cases hc : c = separator
    · rw [if_pos hc] at h
      cases h
      exact ⟨List.not_mem_nil, by rw [hc, List.nil_append]⟩
    · rw [if_neg hc] at h
      obtain ⟨⟨front', back'⟩, hsplit, hpair⟩ := Option.map_eq_some_iff.mp h
      cases hpair
      obtain ⟨hfront, rfl⟩ := ih hsplit
      exact ⟨by simp [Ne.symm hc, hfront], rfl⟩

theorem splitAtEach_exists_cons (separator : Char) (cs : List Char) :
    ∃ piece pieces, splitAtEach separator cs = piece :: pieces := by
  cases cs with
  | nil => exact ⟨_, _, rfl⟩
  | cons c cs =>
    rw [splitAtEach]
    split
    next => exact ⟨_, _, rfl⟩
    next =>
      cases splitAtEach separator cs with
      | nil => exact ⟨_, _, rfl⟩
      | cons piece pieces => exact ⟨_, _, rfl⟩

/-- A text has one piece more than separators. -/
theorem splitAtEach_length (separator : Char) (cs : List Char) :
    (splitAtEach separator cs).length = cs.count separator + 1 := by
  induction cs with
  | nil => rfl
  | cons c cs ih =>
    rw [splitAtEach]
    by_cases hc : c = separator
    · rw [if_pos hc, hc, List.count_cons_self, List.length_cons, ih]
    · obtain ⟨piece, pieces, hsplit⟩ := splitAtEach_exists_cons separator cs
      rw [if_neg hc, List.count_cons_of_ne hc, ← ih, hsplit]
      rfl

theorem not_mem_of_mem_splitAtEach (h : piece ∈ splitAtEach separator cs) : separator ∉ piece := by
  induction cs generalizing piece with
  | nil =>
    rw [List.mem_singleton.mp h]
    exact List.not_mem_nil
  | cons c cs ih =>
    rw [splitAtEach] at h
    by_cases hc : c = separator
    · rw [if_pos hc] at h
      rcases List.mem_cons.mp h with rfl | h
      · exact List.not_mem_nil
      · exact ih h
    · obtain ⟨first, pieces, hsplit⟩ := splitAtEach_exists_cons separator cs
      rw [hsplit] at ih
      rw [if_neg hc, hsplit, keepChar] at h
      rcases List.mem_cons.mp h with rfl | h
      · rw [List.mem_cons, not_or]
        exact ⟨Ne.symm hc, ih List.mem_cons_self⟩
      · exact ih (List.mem_cons_of_mem _ h)

theorem separated_cons_char (c : Char) (separator : String) (piece : List Char)
    (texts : List String) : separated separator (String.ofList (c :: piece) :: texts)
      = String.ofList [c] ++ separated separator (String.ofList piece :: texts) := by
  cases texts with
  | nil => rw [separated, separated, ← String.ofList_append]; rfl
  | cons text texts =>
    rw [separated, separated, ← String.append_assoc, ← String.append_assoc, ← String.ofList_append]
    rfl

/-- The pieces of a text with separators between them are the text. -/
theorem separated_splitAtEach (separator : Char) (cs : List Char) :
    separated (String.ofList [separator]) ((splitAtEach separator cs).map String.ofList)
      = String.ofList cs := by
  induction cs with
  | nil => rfl
  | cons c cs ih =>
    obtain ⟨piece, pieces, hsplit⟩ := splitAtEach_exists_cons separator cs
    rw [hsplit, List.map_cons] at ih
    have hcons : String.ofList (c :: cs) = String.ofList [c] ++ String.ofList cs := by
      rw [← String.ofList_append]
      rfl
    rw [splitAtEach, hsplit, hcons, ← ih]
    by_cases hc : c = separator
    · rw [if_pos hc, hc, List.map_cons, List.map_cons, separated]
      rw [String.ofList_nil, String.empty_append]
    · rw [if_neg hc, keepChar, List.map_cons, separated_cons_char]

end Tabularium
