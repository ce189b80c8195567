import Tabularium.Proofs.Numeric.IntegerText
import Tabularium.Proofs.Schema.ClauseGrammar
import Tabularium.Proofs.Schema.ValueListing
import Tabularium.Proofs.Sql.Names

namespace Tabularium

namespace DefaultValue

/-- The texts that stand for a default that is no number with a fraction. -/
inductive Spelled : DefaultValue → List Char → Prop
  | word {keyword : String} {literal : Literal} {cs : List Char} (h : (keyword, literal) ∈ words)
      (hcs : Spells keyword cs) : Spelled (.value literal) cs
  | int (n : Int64) : Spelled (.value (.int n)) (Int.repr n.toInt).toList
  | text (s : String) : Spelled (.value (.text s)) (quoteChars s.toList)
  | raw {sql : String} (htrim : trimText sql = sql)
      (h : Token.isBalanced 0 none sql.toList = true) :
      Spelled (.raw sql) ('(' :: (sql.toList ++ [')']))

end DefaultValue

namespace DeleteAction

/-- The texts that stand for an action or for none. -/
inductive Spelled : Option DeleteAction → List (List Char) → Prop
  | none : Spelled none []
  | some {opening : List String} {action : DeleteAction} {texts : List (List Char)}
      (hopening : opening ∈ openings)
      (h : List.Forall₂ Spells (opening ++ action.keywords) texts) : Spelled (some action) texts

end DeleteAction

namespace Clause

/-- The texts, one for each token, that stand for a clause. -/
inductive Spelled : Clause → List (List Char) → Prop
  | primaryKey {texts : List (List Char)} (h : List.Forall₂ Spells ["primary", "key"] texts) :
      Spelled .primaryKey texts
  | notNull {texts : List (List Char)} (h : List.Forall₂ Spells ["not", "null"] texts) :
      Spelled .notNull texts
  | nullable {texts : List (List Char)} (h : List.Forall₂ Spells ["null"] texts) :
      Spelled .nullable texts
  | unique {texts : List (List Char)} (h : List.Forall₂ Spells ["unique"] texts) :
      Spelled .unique texts
  | enumValues {values : List String} {word lead listing trail : List Char}
      (h : Spells "enum" word) (hvalues : ∀ v ∈ values, v ≠ "" ∧ trimText v = v)
      (hlisting : Lists values listing) (hlead : IsBlankText lead) (htrail : IsBlankText trail) :
      Spelled (.enumValues values) [word, '(' :: (lead ++ (listing ++ trail) ++ [')'])]
  | default {value : DefaultValue} {word cs : List Char} (h : Spells "default" word)
      (hvalue : value.Spelled cs) : Spelled (.default value) [word, cs]
  | references {target : Reference} {action : List (List Char)}
      (htable : isIdentifier target.table = true) (hcolumn : isIdentifier target.column = true)
      (h : DeleteAction.Spelled target.onDelete action) :
      Spelled (.references target)
        (['-', '>'] :: (target.table.toList ++ '.' :: target.column.toList) :: action)

end Clause

variable {keyword table column : String} {keywords : List String} {cs w : List Char}
  {texts : List (List Char)}

theorem isWordChar_of_name {c : Char} (h : isNameChar c = true) :
    Token.isWordChar c = true ∧ c ≠ '>' := by
  have hne : ∀ d, isNameChar d = false → c ≠ d := by
    rintro d hd rfl
    exact absurd h (by simp [hd])
  simp only [Token.isWordChar, isNameChar_not_blank h, Bool.not_false, Bool.true_and,
    Bool.and_eq_true, bne_iff_ne]
  exact ⟨⟨hne _ (by decide), hne _ (by decide)⟩, hne _ (by decide)⟩

theorem isWord_of_chars (hne : w ≠ []) (h : ∀ c ∈ w, Token.isWordChar c = true ∧ c ≠ '>') :
    Token.IsWord w :=
  ⟨hne, fun c hc => (h c hc).1, fun hmem => (h _ hmem).2 rfl⟩

/-- A keyword is read as a word in whatever case it stands. -/
theorem Spells.token (hkeyword : isIdentifier keyword = true) (h : Spells keyword w) :
    Token.Spelled (.word (String.ofList w)) w := by
  obtain ⟨c, cs, hchars, -, hall⟩ := identifier_chars hkeyword
  refine .word (isWord_of_chars ?_ fun d hd => ?_)
  · rintro rfl
    rw [Spells, hchars] at h
    cases h
  · have hlower : d.toLower ∈ c :: cs := by
      rw [← hchars, ← h]
      exact List.mem_map_of_mem hd
    exact isWordChar_of_name (isNameChar_of_toLower (hall _ hlower))

theorem Spells.says (h : Spells keyword w) : Token.Says keyword (.word (String.ofList w)) :=
  .word (by rwa [String.toList_ofList])

/-- Texts that spell keywords are words that say them. -/
theorem spelled_words (hkeywords : ∀ keyword ∈ keywords, isIdentifier keyword = true)
    (h : List.Forall₂ Spells keywords texts) :
    ∃ tokens, List.Forall₂ Token.Spelled tokens texts
      ∧ List.Forall₂ Token.Says keywords tokens := by
  induction h with
  | nil => exact ⟨[], .nil, .nil⟩
  | cons hw _ ih =>
    obtain ⟨tokens, htokens, hsays⟩ := ih fun keyword hmem =>
      hkeywords keyword (List.mem_cons_of_mem _ hmem)
    exact ⟨_, .cons (hw.token (hkeywords _ List.mem_cons_self)) htokens, .cons hw.says hsays⟩

theorem isWord_repr (n : Int) : Token.IsWord (Int.repr n).toList := by
  obtain ⟨ds, hds, htext⟩ := repr_digits n
  have hne : (Int.repr n).toList ≠ [] := by
    rcases htext with htext | htext <;> simp [htext, hds.1]
  refine isWord_of_chars hne fun c hc => ?_
  rcases mem_repr hc with rfl | hdigit
  · exact ⟨by decide, by decide⟩
  · exact isWordChar_of_name (by simp [isNameChar, Char.isAlphanum, hdigit])

theorem isWord_names (htable : isIdentifier table = true) (hcolumn : isIdentifier column = true) :
    Token.IsWord (table.toList ++ '.' :: column.toList) := by
  obtain ⟨_, _, ht, -, hallt⟩ := identifier_chars htable
  obtain ⟨_, _, hc, -, hallc⟩ := identifier_chars hcolumn
  refine isWord_of_chars (by simp) fun c hmem => ?_
  rcases List.mem_append.mp hmem with hmem | hmem
  · exact isWordChar_of_name (hallt c (ht ▸ hmem))
  · rcases List.mem_cons.mp hmem with rfl | hmem
    · exact ⟨by decide, by decide⟩
    · exact isWordChar_of_name (hallc c (hc ▸ hmem))

theorem asciiLower_repr (n : Int) : asciiLower (Int.repr n) = Int.repr n := by
  have hself : ∀ c ∈ (Int.repr n).toList, c.toLower = c := by
    intro c hc
    rcases mem_repr hc with rfl | hdigit
    · rfl
    · have hrange : 48 ≤ c.toNat ∧ c.toNat ≤ 57 := Char.isDigit_iff_toNat.mp hdigit
      exact toLower_self (by omega)
  rw [asciiLower, List.map_congr_left hself, List.map_id', String.ofList_toList]

theorem repr_ne_word {c : Char} {word : List Char} (hminus : c ≠ '-') (hdigit : c.isDigit = false)
    (n : Int) : Int.repr n ≠ String.ofList (c :: word) := by
  intro h
  have hc : c ∈ (Int.repr n).toList := by simp [h]
  rcases mem_repr hc with hc | hc
  · exact hminus hc
  · rw [hdigit] at hc
    cases hc

theorem isOther_repr (n : Int) : DefaultValue.IsOther (Int.repr n) := by
  have hnow : Int.repr n ≠ "now" := repr_ne_word (by decide) (by decide) _
  have hnull : Int.repr n ≠ "null" := repr_ne_word (by decide) (by decide) _
  have htrue : Int.repr n ≠ "true" := repr_ne_word (by decide) (by decide) _
  have hfalse : Int.repr n ≠ "false" := repr_ne_word (by decide) (by decide) _
  simp [DefaultValue.isOther_iff, asciiLower_repr, DefaultValue.words, hnow, hnull, htrue, hfalse]

/-- The text of a default is that of a token that stands for it. -/
theorem DefaultValue.Spelled.written {value : DefaultValue} (h : value.Spelled cs) :
    ∃ token, Token.Spelled token cs ∧ value.Written token := by
  cases h with
  | @word keyword literal _ h hcs =>
    have hnamed : ∀ entry ∈ words, isIdentifier entry.1 = true := by decide
    exact ⟨_, hcs.token (hnamed _ h), .word h (by rwa [String.toList_ofList])⟩
  | int n =>
    have htoken := Token.Spelled.word (isWord_repr n.toInt)
    rw [String.ofList_toList] at htoken
    exact ⟨_, htoken, .int (isOther_repr _) (repr_spelling _)⟩
  | text s => exact ⟨_, .text s, .text s⟩
  | @raw sql htrim h =>
    have htoken := Token.Spelled.group h
    have hsql : String.ofList (trim sql.toList) = sql := htrim
    rw [hsql] at htoken
    exact ⟨_, htoken, .raw sql⟩

/-- The texts of an action are those of tokens that stand for it. -/
theorem DeleteAction.Spelled.written {action : Option DeleteAction}
    (h : DeleteAction.Spelled action texts) :
    ∃ tokens, List.Forall₂ Token.Spelled tokens texts ∧ DeleteAction.Written action tokens := by
  cases h with
  | none => exact ⟨[], .nil, .none⟩
  | @some opening action _ hopening h =>
    have hnamed : ∀ opening ∈ openings, ∀ keyword ∈ opening ++ action.keywords,
        isIdentifier keyword = true := by
      clear h
      cases action <;> decide
    obtain ⟨tokens, htokens, hsays⟩ := spelled_words (hnamed opening hopening) h
    exact ⟨tokens, htokens, .some hopening hsays⟩

/-- The texts of a clause are those of tokens that stand for it. -/
theorem Clause.Spelled.written {clause : Clause} (h : Spelled clause texts) :
    ∃ tokens, List.Forall₂ Token.Spelled tokens texts ∧ clause.Written tokens := by
  cases h with
  | primaryKey h =>
    obtain ⟨tokens, htokens, hsays⟩ := spelled_words (by decide) h
    exact ⟨tokens, htokens, .primaryKey hsays⟩
  | notNull h =>
    obtain ⟨tokens, htokens, hsays⟩ := spelled_words (by decide) h
    exact ⟨tokens, htokens, .notNull hsays⟩
  | nullable h =>
    obtain ⟨tokens, htokens, hsays⟩ := spelled_words (by decide) h
    exact ⟨tokens, htokens, .nullable hsays⟩
  | unique h =>
    obtain ⟨tokens, htokens, hsays⟩ := spelled_words (by decide) h
    exact ⟨tokens, htokens, .unique hsays⟩
  | enumValues h hvalues hlisting hlead htrail =>
    have hgroup := Token.Spelled.group (isBalanced_padded hlisting hlead htrail)
    rw [trim_listing hlisting hlead htrail] at hgroup
    have hwritten := Written.of_listing h.says hlisting
    rw [keptValues_self hvalues] at hwritten
    exact ⟨_, .cons (h.token (by decide)) (.cons hgroup .nil), hwritten⟩
  | default h hvalue =>
    obtain ⟨token, htoken, hwritten⟩ := hvalue.written
    exact ⟨_, .cons (h.token (by decide)) (.cons htoken .nil), .default h.says hwritten⟩
  | @references target action htable hcolumn h =>
    obtain ⟨tokens, htokens, hwritten⟩ := h.written
    obtain ⟨c, cs, ht, -, hall⟩ := identifier_chars htable
    obtain ⟨d, ds, hc, -, -⟩ := identifier_chars hcolumn
    have hpoint : '.' ∉ target.table.toList := fun hmem =>
      absurd (hall '.' (ht ▸ hmem)) (by decide)
    have hword := Token.Spelled.word (isWord_names htable hcolumn)
    have htarget : String.ofList (target.table.toList ++ '.' :: target.column.toList)
        = target.table ++ "." ++ target.column := by
      rw [← String.toList_inj]
      simp
    rw [htarget] at hword
    refine ⟨_, .cons .arrow (.cons hword htokens), .references hpoint ?_ ?_ hwritten⟩
    · rintro hnil
      rw [hnil] at ht
      cases ht
    · rintro hnil
      rw [hnil] at hc
      cases hc

end Tabularium
