import Tabularium.Proofs.Schema.ClauseGrammar

namespace Tabularium

/-- The texts that list values: literals with commas between them, and blanks around the commas. -/
inductive Lists : List String → List Char → Prop
  | one (s : String) : Lists [s] (quoteChars s.toList)
  | more {values : List String} {listing gap gap' : List Char} (s : String)
      (hgap : IsBlankText gap) (hgap' : IsBlankText gap') (h : Lists values listing) :
      Lists (s :: values) (quoteChars s.toList ++ (gap ++ ',' :: (gap' ++ listing)))

variable {values : List String} {rest body listing lead trail : List Char} {depth : Nat}

theorem Lists.ends (h : Lists values listing) :
    listing.head? = some quoteMark ∧ listing.getLast? = some quoteMark := by
  induction h with
  | one s => simp [quoteChars, List.getLast?_cons, List.getLast?_append]
  | more s _ _ _ ih => simp [quoteChars, ih.2, List.getLast?_append, List.getLast?_cons]

theorem trim_listing (h : Lists values listing) (hlead : IsBlankText lead)
    (htrail : IsBlankText trail) : trim (lead ++ (listing ++ trail)) = listing := by
  have hmark : isBlank quoteMark = false := by decide
  have hends : Unpadded listing := by
    rw [Unpadded, h.ends.1, h.ends.2]
    simp [hmark]
  rw [trim_lead hlead, trim_trail htrail, trim_eq_self_iff.mpr hends]

/-- Blanks neither open nor close a group or a quote. -/
theorem isBalanced_blank (h : IsBlankText lead) (rest : List Char) :
    Token.isBalanced depth none (lead ++ rest) = Token.isBalanced depth none rest := by
  induction lead with
  | nil => rfl
  | cons c lead ih =>
    have hc : isBlank c = true := h c List.mem_cons_self
    have hclose : c ≠ ')' := ne_of_blank hc (by decide)
    have hopen : c ≠ '(' := ne_of_blank hc (by decide)
    have hmark : c ≠ quoteMark := ne_of_blank hc (by decide)
    have hdouble : c ≠ '\x22' := ne_of_blank hc (by decide)
    rw [List.cons_append, Token.isBalanced.eq_def]
    simp only [hclose, hopen, hmark, hdouble, or_self, ↓reduceIte]
    exact ih fun d hd => h d (List.mem_cons_of_mem c hd)

/-- A literal is closed: the quotes of its body come in pairs. -/
theorem isBalanced_quoted (rest : List Char) :
    Token.isBalanced depth none (quoteChars body ++ rest) = Token.isBalanced depth none rest := by
  have hopen : ∀ cs, Token.isBalanced depth none (quoteMark :: cs)
      = Token.isBalanced depth (some quoteMark) cs := by
    intro cs
    rw [Token.isBalanced.eq_def]
    simp [show quoteMark ≠ ')' by decide, show quoteMark ≠ '(' by decide]
  have hbody : Token.isBalanced depth (some quoteMark) (doubleQuotes body ++ quoteMark :: rest)
      = Token.isBalanced depth none rest := by
    induction body with
    | nil => simp [doubleQuotes, Token.isBalanced]
    | cons c cs ih =>
      by_cases hc : c = quoteMark
      · rw [doubleQuotes, if_pos hc, List.cons_append, List.cons_append, Token.isBalanced,
          if_pos rfl, hopen, ih]
      · rw [doubleQuotes, if_neg hc, List.cons_append, Token.isBalanced, if_neg hc, ih]
  rw [quoteChars, List.cons_append, hopen, List.append_assoc]
  exact hbody

theorem isBalanced_listing (h : Lists values listing) (rest : List Char) :
    Token.isBalanced depth none (listing ++ rest) = Token.isBalanced depth none rest := by
  induction h with
  | one s => exact isBalanced_quoted rest
  | more s hgap hgap' _ ih =>
    have hcomma : ∀ cs, Token.isBalanced depth none (',' :: cs)
        = Token.isBalanced depth none cs := by
      intro cs
      rw [Token.isBalanced.eq_def]
      simp [show ',' ≠ quoteMark by decide]
    rw [List.append_assoc, isBalanced_quoted, List.append_assoc, isBalanced_blank hgap,
      List.cons_append, hcomma, List.append_assoc, isBalanced_blank hgap', ih]

theorem isBalanced_padded (h : Lists values listing) (hlead : IsBlankText lead)
    (htrail : IsBlankText trail) :
    Token.isBalanced 0 none (lead ++ (listing ++ trail)) = true := by
  rw [isBalanced_blank hlead, isBalanced_listing h, ← List.append_nil trail,
    isBalanced_blank htrail]
  rfl

theorem Gives.blank (h : IsBlankText trail) : Gives true trail trail := by
  induction trail with
  | nil => exact .nil
  | cons c trail ih =>
    have hc : isBlank c = true := h c List.mem_cons_self
    exact .char (ne_of_blank hc (by decide)) (ne_of_blank hc (by decide))
      (ih fun d hd => h d (List.mem_cons_of_mem c hd))

theorem Gives.blank_append {isClosed : Bool} {value part : List Char}
    (h : Gives isClosed value part) (hlead : IsBlankText lead) :
    Gives isClosed (lead ++ value) (lead ++ part) := by
  induction lead with
  | nil => exact h
  | cons c lead ih =>
    have hc : isBlank c = true := hlead c List.mem_cons_self
    exact .char (ne_of_blank hc (by decide)) (ne_of_blank hc (by decide))
      (ih fun d hd => hlead d (List.mem_cons_of_mem c hd))

/-- A literal gives its text with the blanks around it. -/
theorem Gives.padded (s : String) (hlead : IsBlankText lead) (htrail : IsBlankText trail) :
    Gives true (lead ++ (s.toList ++ trail)) (lead ++ (quoteChars s.toList ++ trail)) := by
  have hend : trail.head? ≠ some quoteMark := by
    cases trail with
    | nil => simp
    | cons c cs =>
      intro hhead
      cases Option.some.inj hhead
      exact absurd (htrail quoteMark List.mem_cons_self) (by decide)
  exact (Gives.literal s.toList hend (.blank htrail)).blank_append hlead

theorem trimText_padded (s : String) (hlead : IsBlankText lead) (htrail : IsBlankText trail) :
    trimText (String.ofList (lead ++ (s.toList ++ trail))) = trimText s := by
  rw [trimText, String.toList_ofList, trim_lead hlead, trim_trail htrail, trimText]

/-- A listing gives its values but for blanks at their ends. -/
theorem Lists.enumerates (h : Lists values listing) (hlead : IsBlankText lead) :
    ∃ given, Enumerates given (lead ++ listing)
      ∧ given.map trimText = values.map trimText := by
  have hempty : IsBlankText [] := by decide
  -- The blanks behind a comma stand in front of the rest of the listing.
  induction h generalizing lead with
  | one s =>
    have hpart := Gives.padded s hlead hempty
    have hvalue := trimText_padded s hlead hempty
    simp only [List.append_nil] at hpart hvalue
    exact ⟨_, .last hpart, by rw [List.map_singleton, hvalue, List.map_singleton]⟩
  | @more values listing gap gap' s hgap hgap' _ ih =>
    obtain ⟨given, hgiven, hvalues⟩ := ih hgap'
    have hgroup := Enumerates.more (Gives.padded s hlead hgap) hgiven
    simp only [List.append_assoc] at hgroup
    exact ⟨_, hgroup, by rw [List.map_cons, hvalues, trimText_padded s hlead hgap, List.map_cons]⟩

namespace Clause

/-- Values are kept as they are unless blanks stand at the end of one or the last is empty. -/
theorem keptValues_eq_self_iff : keptValues values = values
    ↔ (∀ v ∈ values, trimText v = v) ∧ values.getLast? ≠ some "" := by
  have htrimmed : values.map trimText = values ↔ ∀ v ∈ values, trimText v = v := by
    conv_lhs => rhs; rw [← List.map_id values]
    exact List.map_inj_left
  constructor
  · intro h
    by_cases hlast : (values.map trimText).getLast? = some ""
    · -- The last value is dropped, so there is one less than was listed.
      have hne : values ≠ [] := by
        rintro rfl
        cases hlast
      have hpositive := List.length_pos_iff.mpr hne
      rw [keptValues, if_pos hlast] at h
      have hlength := congrArg List.length h
      rw [List.length_dropLast, List.length_map] at hlength
      omega
    · rw [keptValues, if_neg hlast] at h
      exact ⟨htrimmed.mp h, fun hempty => hlast (h.symm ▸ hempty)⟩
  · rintro ⟨hself, hlast⟩
    rw [keptValues, htrimmed.mpr hself, if_neg hlast]

/-- An enum clause may be written with the values that are kept of a listing. -/
theorem Written.of_listing {keyword : Token} (h : keyword.Says "enum")
    (hlisting : Lists values listing) :
    Written (.enumValues (keptValues values)) [keyword, .group (String.ofList listing)] := by
  obtain ⟨given, hgiven, hvalues⟩ := hlisting.enumerates (show IsBlankText [] by decide)
  have hkept : keptValues values = keptValues given := by rw [keptValues, keptValues, hvalues]
  rw [hkept]
  exact .enumValues h (by rwa [String.toList_ofList])

theorem keptValues_self (h : ∀ v ∈ values, v ≠ "" ∧ trimText v = v) : keptValues values = values :=
  keptValues_eq_self_iff.mpr
    ⟨fun v hv => (h v hv).2, fun hlast => (h "" (List.mem_of_getLast? hlast)).1 rfl⟩

end Clause

end Tabularium
