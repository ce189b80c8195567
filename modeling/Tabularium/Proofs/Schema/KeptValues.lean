import Tabularium.Proofs.Schema.ColumnReading
import Tabularium.Schema.Ddl

namespace Tabularium

namespace Token

variable {token : Token} {tokens following : List Token} {cs rest inner front back : List Char}

/-- A parenthesis takes no token further. -/
theorem Lexes.before_group (h : Lexes token cs rest) (more : List Char) :
    Lexes token cs (rest ++ '(' :: more) := by
  cases h with
  | word hne hchars harrow hend =>
    refine .word hne hchars harrow fun c hc => ?_
    cases rest with
    | nil =>
      cases Option.mem_some.mp hc
      decide
    | cons d ds => exact hend c hc
  | text s hend =>
    refine .text s ?_
    cases rest with
    | nil => simp [show '(' ≠ quoteMark by decide]
    | cons d ds => exact hend
  | group hlead htrail hinner h => exact .group hlead htrail hinner h
  | arrow => exact .arrow

/-- A group may stand against whatever is in front of it and behind it. -/
theorem covers_around (hfront : Covers tokens front) (h : isBalanced 0 none inner = true)
    (hback : Covers following back) :
    Covers (tokens ++ .group (String.ofList (trim inner)) :: following)
      (front ++ ('(' :: (inner ++ [')']) ++ back)) := by
  induction hfront with
  | done hlead => exact .more hlead (.of_balanced h) hback
  | @more token tokens lead cs rest hlead htoken _ ih =>
    rw [List.append_assoc, List.append_assoc]
    exact .more hlead (htoken.before_group _) ih

end Token

namespace Clause

variable {α : Type} {part : Clause → Option α} {clause : Clause} {before after : List Clause}
  {v : α}

theorem last?_of_none_after (h : part clause = some v) (hafter : ∀ c ∈ after, part c = none) :
    last? part (before ++ clause :: after) = some v := by
  simp [last?, h, List.filterMap_eq_nil_iff.mpr hafter]

end Clause

namespace Column

variable {name text word keyword : String} {type : ColumnType} {mode : Option ColumnMode}
  {values : List String} {before after : List Clause} {front back : List (List Token)}
  {opening closing lead listing trail : List Char}

/-- A column with an enum clause is read, whatever values the clause lists. -/
theorem ofText_listing (htype : (asciiLower word, type, mode) ∈ typeWords)
    (hbefore : List.Forall₂ Clause.Written before front)
    (hafter : List.Forall₂ Clause.Written after back) (hkeyword : asciiLower keyword = "enum")
    (hopening : Token.Covers (.word word :: (front.flatten ++ [.word keyword])) opening)
    (hclosing : Token.Covers back.flatten closing) (hlisting : Lists values listing)
    (hlead : IsBlankText lead) (htrail : IsBlankText trail)
    (htext : text.toList = opening ++ ('(' :: (lead ++ (listing ++ trail) ++ [')']) ++ closing)) :
    ofText name text
      = .ok (settled name type mode
        (before ++ .enumValues (Clause.keptValues values) :: after)) := by
  have hgroup : List.Forall₂ Clause.Written
      (before ++ .enumValues (Clause.keptValues values) :: after)
      (front ++ [.word keyword, .group (String.ofList listing)] :: back) :=
    List.rel_append hbefore
      (.cons (.of_listing (.word (asciiLower_eq_iff.mp hkeyword)) hlisting) hafter)
  have hword : Token.Says (asciiLower word) (.word word) := .word (asciiLower_eq_iff.mp rfl)
  have hlookup := lookup_typeWords_iff.mp (lookup_typeWords htype).2
  refine ofText_eq_ok_iff.mpr ⟨_, type, mode, _, ?_, .mk hword hlookup hgroup, rfl⟩
  have hcovers := Token.covers_around hopening (isBalanced_padded hlisting hlead htrail) hclosing
  rw [trim_listing hlisting hlead htrail] at hcovers
  rw [htext]
  simpa using hcovers

theorem sql_of_enumValues {column : Column} (h : column.enumValues = some values) :
    ∃ head tail, column.sql = head ++ enumClause column.name values ++ tail := by
  rw [sql, h]
  exact ⟨_, _, rfl⟩

/-- What becomes of the values that the last enum clause of a column lists, whatever texts they are:
they are read as far as they are kept, and the column is checked against these. All of them are kept
exactly when no value has blanks at its ends and the last is not empty. -/
theorem ofText_keeps_values_iff (htype : (asciiLower word, type, mode) ∈ typeWords)
    (hbefore : List.Forall₂ Clause.Written before front)
    (hafter : List.Forall₂ Clause.Written after back) (hkeyword : asciiLower keyword = "enum")
    (hopening : Token.Covers (.word word :: (front.flatten ++ [.word keyword])) opening)
    (hclosing : Token.Covers back.flatten closing) (hlisting : Lists values listing)
    (hlead : IsBlankText lead) (htrail : IsBlankText trail)
    (htext : text.toList = opening ++ ('(' :: (lead ++ (listing ++ trail) ++ [')']) ++ closing))
    (hlast : ∀ clause ∈ after, clause.enumValues? = none) :
    ∃ column, ofText name text = .ok column
      ∧ column.enumValues = some (Clause.keptValues values)
      ∧ (∃ head tail, column.sql = head ++ enumClause name (Clause.keptValues values) ++ tail)
      ∧ (column.enumValues = some values
        ↔ (∀ v ∈ values, trimText v = v) ∧ values.getLast? ≠ some "") := by
  have hkept : (settled name type mode
      (before ++ .enumValues (Clause.keptValues values) :: after)).enumValues
        = some (Clause.keptValues values) := Clause.last?_of_none_after rfl hlast
  refine ⟨_, ofText_listing htype hbefore hafter hkeyword hopening hclosing hlisting hlead htrail
    htext, hkept, sql_of_enumValues hkept, ?_⟩
  rw [hkept, Option.some.injEq, Clause.keptValues_eq_self_iff]

/-- Commas, parentheses and quotes in values, and an empty value in front of others. -/
theorem ofText_keeps_values_iff_moods :
    ∃ column, ofText "mood" "text enum( '', 'it''s', '(a, b' ) not null" = .ok column
      ∧ column.enumValues = some ["", "it's", "(a, b"]
      ∧ ∃ head tail, column.sql = head ++ enumClause "mood" ["", "it's", "(a, b"] ++ tail := by
  have hlisting : Lists ["", "it's", "(a, b"] "'', 'it''s', '(a, b'".toList :=
    .more "" (show IsBlankText [] by decide) (show IsBlankText [' '] by decide)
      (.more "it's" (show IsBlankText [] by decide) (show IsBlankText [' '] by decide)
        (.one "(a, b"))
  have hopening : Token.Covers [.word "text", .word "enum"] "text enum".toList :=
    Token.covers_of_readAll (by cbv)
  have hclosing : Token.Covers [.word "not", .word "null"] " not null".toList :=
    Token.covers_of_readAll (by cbv)
  have hafter : List.Forall₂ Clause.Written [.notNull] [[.word "not", .word "null"]] :=
    .cons (.notNull (.cons (.word (by decide)) (.cons (.word (by decide)) .nil))) .nil
  have htype : (asciiLower "text", ColumnType.text, none) ∈ typeWords := by decide
  have hblank : IsBlankText [' '] := by decide
  have htext : "text enum( '', 'it''s', '(a, b' ) not null".toList
      = "text enum".toList ++ ('(' :: ([' '] ++ ("'', 'it''s', '(a, b'".toList ++ [' ']) ++ [')'])
        ++ " not null".toList) := by decide
  obtain ⟨column, hread, hvalues, hsql, -⟩ := ofText_keeps_values_iff htype .nil hafter (by decide)
    hopening hclosing hlisting hblank hblank htext (by decide)
  have hkept : Clause.keptValues ["", "it's", "(a, b"] = ["", "it's", "(a, b"] := by decide
  rw [hkept] at hvalues hsql
  exact ⟨column, hread, hvalues, hsql⟩

/-- Blanks between the quotes of a value are lost, so a text that is not listed is allowed and the
listed one is not. -/
theorem padded_value_trimmed :
    Lists [" a"] "' a'".toList
      ∧ ∃ column, ofText "c" "text enum(' a')" = .ok column ∧ column.enumValues = some ["a"]
        ∧ column.sql = "c TEXT CHECK (c IN ('a'))" := by
  have hlisting : Lists [" a"] "' a'".toList := .one " a"
  have hopening : Token.Covers [.word "text", .word "enum"] "text enum".toList :=
    Token.covers_of_readAll (by cbv)
  have hclosing : Token.Covers [] [] := .done (by decide)
  have hempty : IsBlankText [] := by decide
  have htype : (asciiLower "text", ColumnType.text, none) ∈ typeWords := by decide
  have htext : "text enum(' a')".toList
      = "text enum".toList ++ ('(' :: ([] ++ ("' a'".toList ++ []) ++ [')']) ++ []) := by decide
  exact ⟨hlisting, _, ofText_listing htype .nil .nil (by decide) hopening hclosing hlisting hempty
    hempty htext, by decide, by decide⟩

end Column

end Tabularium
