import Tabularium.Proofs.Schema.TokenText
import Tabularium.Schema.Column.Clause

namespace Tabularium

/-- A part of a group without a comma between values, and the value that it gives. A character
outside quotes stands for itself, and a literal for what is between its quotes. A part is closed
unless the quote of its last literal is missing. -/
inductive Gives : Bool → List Char → List Char → Prop
  | nil : Gives true [] []
  | unclosed (body : List Char) : Gives false body (quoteMark :: doubleQuotes body)
  | char {isClosed : Bool} {c : Char} {value part : List Char} (hmark : c ≠ quoteMark)
      (hcomma : c ≠ ',') (h : Gives isClosed value part) : Gives isClosed (c :: value) (c :: part)
  | literal {isClosed : Bool} {value part : List Char} (body : List Char)
      (hend : part.head? ≠ some quoteMark) (h : Gives isClosed value part) :
      Gives isClosed (body ++ value) (quoteChars body ++ part)

/-- The values that a group gives, one for each part between commas. All parts but the last are
closed: a literal without its last quote takes the rest of the group. -/
inductive Enumerates : List String → List Char → Prop
  | last {isClosed : Bool} {value part : List Char} (h : Gives isClosed value part) :
      Enumerates [String.ofList value] part
  | more {value part rest : List Char} {values : List String} (h : Gives true value part)
      (hrest : Enumerates values rest) :
      Enumerates (String.ofList value :: values) (part ++ ',' :: rest)

variable {isClosed : Bool} {value part rest body cs : List Char} {values : List String} {c : Char}

namespace Clause

theorem valuePieces_cons (hc : c ≠ quoteMark) (isQuoted : Bool) (cs : List Char) :
    valuePieces isQuoted (c :: cs) = if c = ',' ∧ !isQuoted then [] :: valuePieces false cs
      else keepChar c (valuePieces isQuoted cs) := by
  rw [valuePieces.eq_def]
  simp only [if_neg hc]

theorem valuePieces_comma (rest : List Char) :
    valuePieces false (',' :: rest) = [] :: valuePieces false rest := by
  rw [valuePieces_cons (by decide), if_pos ⟨rfl, rfl⟩]

theorem valuePieces_open (cs : List Char) :
    valuePieces false (quoteMark :: cs) = valuePieces true cs := by
  cases cs with
  | nil => rfl
  | cons d ds =>
    rw [valuePieces, if_pos rfl, if_neg (by simp)]
    rfl

/-- A literal adds its body to the piece that it stands in. -/
theorem valuePieces_quoted (h : rest.head? ≠ some quoteMark) :
    valuePieces false (quoteChars body ++ rest) = body.foldr keepChar (valuePieces false rest) := by
  rw [quoteChars, List.cons_append, valuePieces_open, List.append_assoc, List.singleton_append]
  induction body with
  | nil =>
    cases rest with
    | nil => rfl
    | cons d ds =>
      have hd : ¬ (true = true ∧ d = quoteMark) := fun hd => h (congrArg some hd.2)
      rw [doubleQuotes, List.nil_append, valuePieces, if_pos rfl, if_neg hd]
      rfl
  | cons c cs ih =>
    by_cases hc : c = quoteMark
    · rw [doubleQuotes, if_pos hc, List.cons_append, List.cons_append, valuePieces, if_pos rfl,
        if_pos ⟨rfl, rfl⟩, ih, List.foldr_cons, hc]
    · rw [doubleQuotes, if_neg hc, List.cons_append, valuePieces_cons hc, if_neg (by simp),
        ih, List.foldr_cons]

/-- A literal without its last quote takes all that is left. -/
theorem valuePieces_unclosed (body : List Char) :
    valuePieces true (doubleQuotes body) = body.foldr keepChar [[]] := by
  induction body with
  | nil => rfl
  | cons c cs ih =>
    by_cases hc : c = quoteMark
    · rw [doubleQuotes, if_pos hc, valuePieces, if_pos rfl, if_pos ⟨rfl, rfl⟩, ih, List.foldr_cons,
        hc]
    · rw [doubleQuotes, if_neg hc, valuePieces_cons hc, if_neg (by simp), ih, List.foldr_cons]

/-- A part adds the value that it gives to the piece behind it; behind an open part is nothing. -/
theorem valuePieces_part (h : Gives isClosed value part) (hopen : isClosed = false → rest = [])
    (hrest : rest.head? ≠ some quoteMark) :
    valuePieces false (part ++ rest) = value.foldr keepChar (valuePieces false rest) := by
  induction h with
  | nil => rfl
  | unclosed body =>
    rw [hopen rfl, List.append_nil, valuePieces_open, valuePieces_unclosed, valuePieces]
  | char hmark hcomma _ ih =>
    rw [List.cons_append, valuePieces_cons hmark, if_neg fun h => hcomma h.1, ih hopen,
      List.foldr_cons]
  | @literal _ value part body hend _ ih =>
    have hstop : (part ++ rest).head? ≠ some quoteMark := by
      cases part with
      | nil => exact hrest
      | cons c cs => exact hend
    rw [List.append_assoc, valuePieces_quoted hstop, ih hopen, List.foldr_append]

/-- The pieces of a group are the values that it gives. -/
theorem valuePieces_eq (h : Enumerates values cs) :
    valuePieces false cs = values.map String.toList := by
  induction h with
  | @last _ value part h =>
    have hvalue : valuePieces false (part ++ []) = value.foldr keepChar (valuePieces false []) :=
      valuePieces_part h (fun _ => rfl) (by simp)
    rw [List.append_nil, valuePieces, foldr_keepChar, List.append_nil] at hvalue
    rw [hvalue, List.map_singleton, String.toList_ofList]
  | @more value part rest values h _ ih =>
    have hcomma : (',' :: rest).head? ≠ some quoteMark := by simp [show ',' ≠ quoteMark by decide]
    rw [valuePieces_part h (by simp) hcomma, valuePieces_comma, foldr_keepChar, List.append_nil, ih,
      List.map_cons, String.toList_ofList]

/-- What is kept of the values that a group gives: no blanks at their ends, and no last value when
nothing but blanks is in it. -/
def keptValues (values : List String) : List String :=
  if (values.map trimText).getLast? = some "" then (values.map trimText).dropLast
  else values.map trimText

/-- The values that a group gives are read, as far as they are kept. -/
theorem splitValues_eq {group : String} (h : Enumerates values group.toList) :
    splitValues group = keptValues values := by
  have hpieces : (valuePieces false group.toList).map trim = values.map fun v => trim v.toList := by
    rw [valuePieces_eq h, List.map_map]
    rfl
  have htexts : (values.map fun v => trim v.toList).map String.ofList = values.map trimText :=
    List.map_map
  have hlast : (values.map fun v => trim v.toList).getLast? = some []
      ↔ (values.map trimText).getLast? = some "" := by
    rw [← htexts, List.getLast?_map]
    cases (values.map fun v => trim v.toList).getLast? <;> simp
  rw [splitValues, hpieces, dropEmptyLast, keptValues]
  by_cases hempty : (values.map trimText).getLast? = some ""
  · rw [if_pos hempty, if_pos (hlast.mpr hempty), List.map_dropLast, htexts]
  · rw [if_neg hempty, if_neg fun h => hempty (hlast.mp h), htexts]

end Clause

theorem Enumerates.char (h : Enumerates values cs) (hmark : c ≠ quoteMark) (hcomma : c ≠ ',') :
    ∃ values, Enumerates values (c :: cs) := by
  cases h with
  | last h => exact ⟨_, .last (.char hmark hcomma h)⟩
  | more h hrest => exact ⟨_, .more (.char hmark hcomma h) hrest⟩

theorem Enumerates.literal (h : Enumerates values rest) (hend : rest.head? ≠ some quoteMark)
    (body : List Char) : ∃ values, Enumerates values (quoteChars body ++ rest) := by
  cases h with
  | last h => exact ⟨_, .last (.literal body hend h)⟩
  | @more value part rest values h hrest =>
    have hstop : part.head? ≠ some quoteMark := by
      cases part with
      | nil => simp
      | cons d ds => exact hend
    rw [← List.append_assoc]
    exact ⟨_, .more (.literal body hstop h) hrest⟩

/-- A text that is not closed as a literal is the body of one. -/
theorem doubleQuotes_of_unclosed (h : unquote? cs = none) : ∃ body, cs = doubleQuotes body := by
  fun_induction unquote? cs with
  | case1 => exact ⟨[], rfl⟩
  | case2 => cases h
  | case3 c hc => exact ⟨[c], by rw [doubleQuotes, if_neg hc, doubleQuotes]⟩
  | case4 cs ih =>
    obtain ⟨body, rfl⟩ := ih (by simpa using h)
    exact ⟨quoteMark :: body, by rw [doubleQuotes, if_pos rfl]⟩
  | case5 => cases h
  | case6 c d cs hc ih =>
    obtain ⟨body, hbody⟩ := ih (by simpa using h)
    exact ⟨c :: body, by rw [doubleQuotes, if_neg hc, hbody]⟩

/-- Every group gives values. -/
theorem exists_enumerates (cs : List Char) : ∃ values, Enumerates values cs := by
  match cs with
  | [] => exact ⟨_, .last .nil⟩
  | c :: rest =>
    by_cases hmark : c = quoteMark
    · subst hmark
      cases hread : unquote? rest with
      | none =>
        obtain ⟨body, rfl⟩ := doubleQuotes_of_unclosed hread
        exact ⟨_, .last (.unclosed body)⟩
      | some read =>
        obtain ⟨body, rest'⟩ := read
        have hlength := unquote?_length hread
        obtain ⟨rfl, hend⟩ := Token.doubleQuotes_of_unquote? hread
        obtain ⟨values, h⟩ := exists_enumerates rest'
        simpa [quoteChars] using h.literal hend body
    · obtain ⟨values, h⟩ := exists_enumerates rest
      by_cases hcomma : c = ','
      · subst hcomma
        exact ⟨_, .more .nil h⟩
      · exact h.char hmark hcomma
termination_by cs.length
decreasing_by all_goals simp_wf <;> omega

end Tabularium
